import Distfix.Proofs.Groups
import Distfix.Proofs.Positions

namespace Distfix

/-- An operator is found inside another one, at any depth. -/
inductive Instance.Within : Instance → Instance → Prop
  | self {i} : Within i i
  | nested {i j found : Instance} {k : Child} (hk : k ∈ found.children)
      (hj : .operator j ∈ k.operands) (h : Within i j) : Within i found

/-- The children of an operator are as its definition asks. -/
structure Instance.WellFormed (i : Instance) : Prop where
  leading : ∃ cs, i.children = ⟨0, i.leading, []⟩ :: cs
  ordered : i.children.Pairwise fun k l => k.index ≤ l.index
  accepted : ∀ k ∈ i.children, ∃ s, i.definition.separators[k.index]? = some s ∧
    s.accepts k.keyword.text = true
  counted : ∀ j (s : Separator), i.definition.separators[j]? = some s →
    s.repeats.contains (i.count j) = true

namespace Instance.WellFormed

variable {i : Instance}

theorem index_lt (h : i.WellFormed) {k : Child} (hk : k ∈ i.children) :
    k.index < i.definition.separators.length := by
  obtain ⟨s, hs, -⟩ := h.accepted k hk
  exact (List.getElem?_eq_some_iff.mp hs).1

theorem countIn_once (h : i.WellFormed) {j : Nat} {s : Separator}
    (hs : i.definition.separators[j]? = some s) (hr : s.repeats = .once) :
    Child.countIn j i.children = 1 := by
  have hc := h.counted j s hs
  rw [Instance.count_eq_countIn, hr, Repeats.contains_iff] at hc
  exact Nat.le_antisymm (of_decide_eq_true hc.2) hc.1

theorem children_eq (h : i.WellFormed) :
    ∃ cs, i.children = ⟨0, i.leading, []⟩ :: cs ∧ ∀ k ∈ cs, k.index ≠ 0 := by
  obtain ⟨cs, hcs⟩ := h.leading
  refine ⟨cs, hcs, fun k hk h0 => ?_⟩
  have hone : Child.countIn 0 i.children = 1 := h.countIn_once rfl rfl
  rw [hcs, Child.countIn, List.countP_cons_of_pos rfl] at hone
  exact List.countP_eq_zero.mp (Nat.succ.inj hone) k hk (beq_iff_eq.mpr h0)

theorem single (h : i.WellFormed) (hd : i.definition.rest = []) :
    i.children = [⟨0, i.leading, []⟩] := by
  obtain ⟨cs, hcs, hne⟩ := h.children_eq
  cases cs with
  | nil => exact hcs
  | cons k cs =>
    have hlt := h.index_lt (k := k) (by simp [hcs])
    rw [Definition.separators, hd] at hlt
    exact absurd (Nat.lt_one_iff.mp hlt) (hne k (List.mem_cons_self ..))

theorem pair (h : i.WellFormed) {s s' : Separator} (hd : i.definition.rest = [s, s'])
    (hs : s'.repeats = .once) (hc : i.count 1 = 0) :
    ∃ t os, i.children = [⟨0, i.leading, []⟩, ⟨2, t, os⟩] := by
  obtain ⟨cs, hcs, hne⟩ := h.children_eq
  have hseps : i.definition.separators = [⟨i.definition.leading, .once, none⟩, s, s'] :=
    congrArg _ hd
  rw [Instance.count_eq_countIn, Child.countIn] at hc
  have htwo : ∀ k ∈ cs, k.index = 2 := by
    intro k hk
    have hmem : k ∈ i.children := by simp [hcs, hk]
    have hlt := h.index_lt hmem
    have h1 : k.index ≠ 1 := fun he => List.countP_eq_zero.mp hc k hmem (beq_iff_eq.mpr he)
    have h0 := hne k hk
    rw [hseps, List.length_cons, List.length_cons, List.length_singleton] at hlt
    omega
  have hone : Child.countIn 2 i.children = 1 := h.countIn_once (by rw [hseps]; rfl) hs
  rw [hcs, Child.countIn, List.countP_cons_of_neg (by simp),
    List.countP_eq_length.mpr fun k hk => beq_iff_eq.mpr (htwo k hk)] at hone
  obtain ⟨k, rfl⟩ := List.length_eq_one_iff.mp hone
  obtain ⟨index, t, os⟩ := k
  obtain rfl : index = 2 := htwo _ (List.mem_singleton_self _)
  exact ⟨t, os, hcs⟩

end Instance.WellFormed

namespace Catalog

variable {c : Catalog}

def Finds (c : Catalog) (i : Instance) : Prop :=
  ∃ scope t ts o n, o.2.leading.accepts t.text = true ∧ c.attempt t ts scope o = .ok (i, n)

theorem Finds.wellFormed {i : Instance} (h : c.Finds i) : i.WellFormed := by
  obtain ⟨scope, t, ts, o, n, ht, ha⟩ := h
  obtain ⟨cs, rfl, hr⟩ := attempt_reads ha
  obtain ⟨hb, hreq⟩ := hr.complete (Definition.begun_leading ht)
  refine ⟨⟨cs, rfl⟩, hb.ordered, hb.accepted, fun j s hs => ?_⟩
  rw [Instance.count_eq_countIn]
  exact hb.complete hreq j hs

theorem finds_of_firstMatch {scope : Scope} {t : Token} {ts : List Token} {i : Instance} {n : Nat}
    (h : c.firstMatch t ts scope = .ok (i, n)) :
    c.Finds i ∧ (i.op, i.definition) ∈ c.operators scope := by
  obtain ⟨o, ho, ha⟩ := firstMatch_ok h
  obtain ⟨hmem, hacc⟩ := mem_openedBy.mp ho
  obtain ⟨cs, rfl, -⟩ := attempt_reads ha
  exact ⟨⟨scope, t, ts, o, n, hacc, ha⟩, hmem⟩

theorem nested_of_attempt {scope : Scope} {t : Token} {ts : List Token}
    {o : OperatorId × Definition} {i j : Instance} {n : Nat} {k : Child}
    (ht : o.2.leading.accepts t.text = true) (ha : c.attempt t ts scope o = .ok (i, n))
    (hk : k ∈ i.children) (hj : .operator j ∈ k.operands) :
    ∃ region u us m, c.firstMatch u us (c.derive region scope) = .ok (j, m) := by
  obtain ⟨cs, rfl, hr⟩ := attempt_reads ha
  obtain rfl | hk := List.mem_cons.mp hk
  · cases hj
  · obtain ⟨m, hm⟩ := List.getElem?_of_mem hk
    obtain ⟨rest, -, hg, -⟩ := hr.getElem? (Definition.begun_leading ht) hm
    obtain ⟨l, hl⟩ := List.getElem?_of_mem hj
    obtain ⟨u, us, -, -, n', hf⟩ := hg.getElem? hl
    exact ⟨_, u, us, n', hf⟩

theorem Finds.nested {i j : Instance} {k : Child} (h : c.Finds i) (hk : k ∈ i.children)
    (hj : .operator j ∈ k.operands) : c.Finds j := by
  obtain ⟨scope, t, ts, o, n, ht, ha⟩ := h
  obtain ⟨region, u, us, m, hm⟩ := nested_of_attempt ht ha hk hj
  exact (finds_of_firstMatch hm).1

theorem Finds.within {i found : Instance} (hw : i.Within found) (h : c.Finds found) :
    c.Finds i := by
  induction hw with
  | self => exact h
  | nested hk hj _ ih => exact ih (h.nested hk hj)

theorem firstMatch_of_mem_flattenItems {scope : Scope} {ts : List Token} {skip index : Nat}
    {i : Instance} (h : .operator i ∈ (c.flattenItems scope ts skip index).value) :
    ∃ t us n, c.firstMatch t us scope = .ok (i, n) := by
  induction ts generalizing skip index with
  | nil => cases h
  | cons t ts ih =>
    cases skip with
    | succ skip => exact ih h
    | zero =>
      rw [flattenItems] at h
      cases hm : c.firstMatch t ts scope with
      | ok found =>
        rw [hm] at h
        obtain hi | h := List.mem_cons.mp h
        · obtain rfl := Operand.operator.inj hi
          exact ⟨t, ts, found.2, hm⟩
        · exact ih h
      | error es =>
        rw [hm] at h
        obtain hi | h := List.mem_cons.mp h
        · cases hi
        · exact ih h

theorem firstMatch_of_mem_flatten {tokens : List Token} {index : Nat} {scope : Scope} {i : Instance}
    (h : .operator i ∈ (c.flatten tokens index scope).value) :
    ∃ t us n, c.firstMatch t us scope = .ok (i, n) := by
  rw [flatten_eq_flattenAhead] at h
  exact firstMatch_of_mem_flattenItems h

/-- What `matchOperator` reads lies in the text, and is well formed at every depth. -/
theorem matchOperator_wellFormed {tokens : List Token} {index next : Nat}
    {o : OperatorId × Definition} {scope : Scope} {found : Instance}
    (h : c.matchOperator tokens index o scope = .ok (next, found)) :
    index < next ∧ next ≤ tokens.length ∧ found.op = o.1 ∧ found.definition = o.2 ∧
      ∀ i : Instance, i.Within found → i.WellFormed := by
  obtain ⟨t, ts, n, hd, ht, ha, rfl⟩ := c.matchOperator_ok tokens index h
  have hfound : c.Finds found := ⟨scope, t, ts, o, n, ht, ha⟩
  have hn := (attempt_spans ha).1
  have hlen := congrArg List.length hd
  rw [List.length_drop, List.length_cons] at hlen
  obtain ⟨cs, rfl, -⟩ := attempt_reads ha
  exact ⟨by omega, by omega, rfl, rfl, fun i hi => (hfound.within hi).wellFormed⟩

end Catalog

namespace Sample

def group : Definition where
  leading := .one "<" (by decide)
  rest := [⟨.one "|" (by decide), .many, none⟩, ⟨.one ">" (by decide), .once, none⟩]
  fixity := .closed

def quote : Definition where
  leading := .one "[" (by decide)
  rest := [⟨.one "]" (by decide), .once, some ⟨0⟩⟩]
  fixity := .closed

def catalog : Catalog := ⟨#[group, quote], #[.without ["group"]], #[]⟩

def scope : Scope := ⟨[("group", ⟨0⟩), ("quote", ⟨1⟩)], by decide⟩

def symbol (text : String) : Token := ⟨.symbol, text, ⟨0, 0⟩⟩

def tokens : List Token := ["<", "[", "<", "]", "|", "a", ">"].map symbol

def quoted : Instance where
  op := "quote"
  definition := quote
  leading := symbol "["
  children := [⟨0, symbol "[", []⟩, ⟨1, symbol "]", [.token (symbol "<")]⟩]

def found : Instance where
  op := "group"
  definition := group
  leading := symbol "<"
  children := [⟨0, symbol "<", []⟩, ⟨1, symbol "|", [.operator quoted]⟩,
    ⟨2, symbol ">", [.token (symbol "a")]⟩]

theorem matchOperator_tokens :
    catalog.matchOperator tokens 0 ("group", group) scope = .ok (7, found) := by
  rw [Catalog.matchOperator_eq_matchAhead]
  rfl

end Sample

theorem Catalog.found_wellFormed :
    Sample.catalog.matchOperator Sample.tokens 0 ("group", Sample.group) Sample.scope =
        .ok (7, Sample.found) ∧
      7 ≤ Sample.tokens.length ∧ ∀ i : Instance, i.Within Sample.found → i.WellFormed := by
  obtain ⟨-, hlen, -, -, hw⟩ := matchOperator_wellFormed Sample.matchOperator_tokens
  exact ⟨Sample.matchOperator_tokens, hlen, hw⟩

end Distfix
