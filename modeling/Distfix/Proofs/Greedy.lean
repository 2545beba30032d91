import Distfix.Proofs.Structure

namespace Distfix

/-- An operator that was read, the position where it begins, and the scope in which it was read. -/
structure Site where
  found : Instance
  start : Nat
  scope : Scope

namespace Site

variable (c : Catalog) (tokens : List Token) (s : Site)

/-- The first separator that is open while the group of child `n` is read. -/
def opened (n : Nat) : Nat := s.found.definition.opened (s.found.children.take n)

/-- The scope of the operands of child `n`. -/
def region (n : Nat) : Scope :=
  c.derive (s.found.definition.separators[s.opened n]?.bind (·.region)) s.scope

/-- Where operand `k` of child `n` begins, or its keyword if `k` is the number of its operands. -/
def position (n k : Nat) (child : Child) : Nat :=
  s.start + (Child.tokensOf (s.found.children.take n)).length
    + (Operand.tokensOf (child.operands.take k)).length

/-- The text is that of no separator that may close the group of child `n`. -/
def StaysOpen (n : Nat) (text : String) : Prop :=
  ClosesNothing s.found.definition.separators (Child.countIn · (s.found.children.take n))
    (s.opened n) text

/-- The text closes the group of child `n`, for the lowest separator that may do so. -/
def ClosedBy (n : Nat) (text : String) (index : Nat) : Prop :=
  Closes s.found.definition.separators (Child.countIn · (s.found.children.take n))
    (s.opened n) text index

/-- The operators that are read inside an operator, at any depth. -/
inductive Within : Site → Site → Prop
  | self {s : Site} : Within s s
  | nested {s s' : Site} {n k : Nat} {child : Child} {i : Instance}
      (hn : s.found.children[n]? = some child) (hk : child.operands[k]? = some (.operator i))
      (h : Within s' ⟨i, s.position n k child, s.region c n⟩) : Within s' s

end Site

namespace Catalog

variable (c : Catalog) (tokens : List Token)

/-- The first operator of the region that a fresh match reads at `p`, or the token `t` there if
none can be read. -/
def FirstAt (region : Scope) (p : Nat) (t : Token) : Operand → Prop
  | .token u => u = t ∧ ∀ o ∈ c.operators region, ∃ e, c.matchOperator tokens p o region = .error e
  | .operator i => ∃ earlier later, c.operators region = earlier ++ (i.op, i.definition) :: later ∧
      (∀ o ∈ earlier, ∃ e, c.matchOperator tokens p o region = .error e) ∧
      c.matchOperator tokens p (i.op, i.definition) region = .ok (p + i.tokens.length, i)

/-- No operand begins where a group could have ended, and each is the first that can be read. -/
structure Greedy (s : Site) : Prop where
  closer : ∀ n child, 0 < n → s.found.children[n]? = some child →
    tokens[s.position n child.operands.length child]? = some child.keyword ∧
      s.ClosedBy n child.keyword.text child.index
  operand : ∀ n k child o, 0 < n → s.found.children[n]? = some child → child.operands[k]? = some o →
    ∃ t, tokens[s.position n k child]? = some t ∧ s.StaysOpen n t.text ∧
      c.FirstAt tokens (s.region c n) (s.position n k child) t o

variable {c tokens}

theorem ReadAs.firstAt {region : Scope} {p : Nat} {t : Token} {ts : List Token} {o : Operand}
    (hd : tokens.drop p = t :: ts) (h : c.ReadAs region t ts o) :
    c.FirstAt tokens region p t o := by
  cases o with
  | token u =>
    obtain ⟨rfl, es, hm⟩ := h
    refine ⟨rfl, fun o ho => c.matchOperator_error tokens p hd fun ha => ?_⟩
    exact firstOk_error hm o (mem_openedBy.mpr ⟨ho, ha⟩)
  | operator i =>
    obtain ⟨n, hm⟩ := h
    obtain ⟨hn, ht⟩ := firstMatch_spans hm
    obtain ⟨before, o, after, hs, ha, hb⟩ := firstOk_ok hm
    -- the operators that do not begin with `t` go back to their places
    obtain ⟨skipped, rest, hall, rfl, hrest⟩ := List.filter_eq_append_iff.mp hs
    obtain ⟨more, later, rfl, hmore, ho, -⟩ := List.filter_eq_cons_iff.mp hrest
    obtain ⟨cs, rfl, -⟩ := attempt_reads ha
    refine ⟨skipped ++ more, later, by rw [hall, List.append_assoc], fun o' ho' => ?_, ?_⟩
    · refine c.matchOperator_error tokens p hd fun hacc => ?_
      obtain ho' | ho' := List.mem_append.mp ho'
      · exact hb o' (List.mem_filter.mpr ⟨ho', hacc⟩)
      · exact absurd hacc (hmore o' ho')
    · rw [c.matchOperator_of_attempt tokens p hd ho ha, ht, List.length_cons, List.length_take,
        Nat.min_eq_left hn, Nat.add_comm n, Nat.add_assoc]

theorem region_pendingAfter (d : Definition) (cs : List Child) :
    (d.pendingAfter cs).region = d.separators[d.opened cs]?.bind (·.region) := by
  rw [Pending.region, Definition.pendingAfter, List.head?_zipIdx, List.head?_drop]
  cases d.separators[d.opened cs]? <;> rfl

theorem matchOperator_reads {index next : Nat} {o : OperatorId × Definition} {scope : Scope}
    {found : Instance} (h : c.matchOperator tokens index o scope = .ok (next, found)) :
    ∃ t ts cs, tokens.drop index = t :: ts ∧ o.2.leading.accepts t.text = true ∧
      found = ⟨o.1, o.2, t, ⟨0, t, []⟩ :: cs⟩ ∧
      Reads c scope (o.2.pendingAfter [⟨0, t, []⟩]) ts cs := by
  obtain ⟨t, ts, n, hd, ht, ha, -⟩ := c.matchOperator_ok tokens index h
  obtain ⟨cs, hi, hr⟩ := attempt_reads ha
  exact ⟨t, ts, cs, hd, ht, hi, hr⟩

def Matched (c : Catalog) (tokens : List Token) (s : Site) : Prop :=
  ∃ next, c.matchOperator tokens s.start (s.found.op, s.found.definition) s.scope =
    .ok (next, s.found)

variable {s : Site} {n k : Nat} {child : Child}

theorem Matched.group (h : c.Matched tokens s) (hpos : 0 < n)
    (hn : s.found.children[n]? = some child) :
    ∃ rest, s.found.definition.Begun (s.found.children.take n) ∧
      Gathers c s.scope (s.found.definition.pendingAfter (s.found.children.take n))
        (tokens.drop (s.start + (Child.tokensOf (s.found.children.take n)).length))
        child.operands (child.keyword :: rest) ∧
      s.ClosedBy n child.keyword.text child.index := by
  obtain ⟨next, h⟩ := h
  obtain ⟨t, ts, cs, hd, ht, hi, hr⟩ := matchOperator_reads h
  obtain ⟨n, rfl⟩ := Nat.exists_eq_succ_of_ne_zero (Nat.pos_iff_ne_zero.mp hpos)
  have hc : s.found.children = ⟨0, t, []⟩ :: cs := by rw [hi]
  rw [hc, List.getElem?_cons_succ] at hn
  obtain ⟨rest, hb, hg, hk⟩ := hr.getElem? (Definition.begun_leading ht) hn
  refine ⟨rest, ?_⟩
  rw [Site.ClosedBy, Site.opened, hc, List.take_succ_cons]
  have hdrop : tokens.drop (s.start + (Child.tokensOf (⟨0, t, []⟩ :: cs.take n)).length) =
      ts.drop (Child.tokensOf (cs.take n)).length := by
    rw [← List.drop_drop, hd]
    rfl
  rw [hdrop]
  exact ⟨hb, hg, hk⟩

theorem drop_position (tokens : List Token) (s : Site) (n k : Nat) (child : Child) :
    tokens.drop (s.position n k child) =
      (tokens.drop (s.start + (Child.tokensOf (s.found.children.take n)).length)).drop
        (Operand.tokensOf (child.operands.take k)).length := by
  rw [Site.position, List.drop_drop]

theorem Matched.operand (h : c.Matched tokens s) (hpos : 0 < n)
    (hn : s.found.children[n]? = some child) {o : Operand} (hk : child.operands[k]? = some o) :
    ∃ t, tokens[s.position n k child]? = some t ∧ s.StaysOpen n t.text ∧
      c.FirstAt tokens (s.region c n) (s.position n k child) t o := by
  obtain ⟨rest, hb, hg, -⟩ := h.group hpos hn
  obtain ⟨t, ts, hd, hc, hread⟩ := hg.getElem? hk
  rw [← drop_position] at hd
  rw [region_pendingAfter] at hread
  exact ⟨t, (drop_eq_cons hd).1, hb.close_none hc, hread.firstAt hd⟩

theorem Matched.greedy (h : c.Matched tokens s) : c.Greedy tokens s := by
  refine ⟨fun n child hpos hn => ?_, fun n k child o hpos hn hk => h.operand hpos hn hk⟩
  obtain ⟨rest, -, hg, hk⟩ := h.group hpos hn
  refine ⟨?_, hk⟩
  have hd := drop_position tokens s n child.operands.length child
  rw [List.take_length, hg.tokens, List.drop_left] at hd
  exact (drop_eq_cons hd).1

theorem Matched.nested (h : c.Matched tokens s) (hn : s.found.children[n]? = some child)
    {i : Instance} (hk : child.operands[k]? = some (.operator i)) :
    c.Matched tokens ⟨i, s.position n k child, s.region c n⟩ := by
  have hpos : 0 < n := by
    refine Nat.pos_of_ne_zero fun h0 => ?_
    obtain ⟨next, h⟩ := h
    obtain ⟨t, ts, cs, -, -, hi, -⟩ := matchOperator_reads h
    rw [h0, hi] at hn
    obtain rfl := Option.some.inj hn
    simp at hk
  obtain ⟨t, -, -, hfirst⟩ := h.operand hpos hn hk
  obtain ⟨earlier, later, -, -, hm⟩ := hfirst
  exact ⟨_, hm⟩

theorem Matched.within {s s' : Site} (hw : s'.Within c s) (h : c.Matched tokens s) :
    c.Matched tokens s' := by
  induction hw with
  | self => exact h
  | nested hn hk _ ih => exact ih (h.nested hn hk)

/-- The matcher reads operands greedily, in the scope of their region and with closers first, at
every depth. -/
theorem matchOperator_greedy {index next : Nat} {o : OperatorId × Definition} {scope : Scope}
    {found : Instance} (h : c.matchOperator tokens index o scope = .ok (next, found)) (s : Site)
    (hs : s.Within c ⟨found, index, scope⟩) : c.Greedy tokens s := by
  obtain ⟨t, ts, cs, -, -, rfl, -⟩ := matchOperator_reads h
  have hm : c.Matched tokens ⟨⟨o.1, o.2, t, ⟨0, t, []⟩ :: cs⟩, index, scope⟩ := ⟨next, h⟩
  exact (hm.within hs).greedy

theorem quoted_greedy :
    Sample.catalog.matchOperator Sample.tokens 0 ("group", Sample.group) Sample.scope =
        .ok (7, Sample.found) ∧
      Site.Within Sample.catalog ⟨Sample.quoted, 1, Sample.scope⟩ ⟨Sample.found, 0, Sample.scope⟩ ∧
      Sample.catalog.Greedy Sample.tokens ⟨Sample.quoted, 1, Sample.scope⟩ := by
  have hw : Site.Within Sample.catalog ⟨Sample.quoted, 1, Sample.scope⟩
      ⟨Sample.found, 0, Sample.scope⟩ := .nested (n := 1) (k := 0) rfl rfl .self
  exact ⟨Sample.matchOperator_tokens, hw, matchOperator_greedy Sample.matchOperator_tokens _ hw⟩

end Catalog

end Distfix
