import Distfix.Proofs.Coverage
import Distfix.Proofs.Progress

namespace Distfix.Catalog

variable (c : Catalog) (scope : Scope)

/-- What an operand of a region is: an operator if one can be read, and else a token. -/
def ReadAs (region : Scope) (t : Token) (ts : List Token) : Operand → Prop
  | .token u => u = t ∧ ∃ es, c.firstMatch t ts region = .error es
  | .operator i => ∃ n, c.firstMatch t ts region = .ok (i, n)

/-- The operands of a group are read from a state that stays as it is. What is left begins with
the keyword that ends the group. -/
inductive Gathers (p : Pending) : List Token → List Operand → List Token → Prop
  | none {ts} : Gathers p ts [] ts
  | operand {t ts o os rest} (hc : p.close t.text = .none)
      (ho : c.ReadAs (c.derive p.region scope) t ts o)
      (h : Gathers p ((t :: ts).drop o.tokens.length) os rest) : Gathers p (t :: ts) (o :: os) rest

/-- The groups of an operator are read from a state, and nothing is required in the end. -/
inductive Reads : Pending → List Token → List Child → Prop
  | stop {p ts} (h : p.required = none) : Reads p ts []
  | group {p q ts os t rest index cs} (hg : Gathers c scope p ts os (t :: rest))
      (hc : p.close t.text = some (index, q)) (h : Reads q rest cs) :
      Reads p ts (⟨index, t, os⟩ :: cs)

variable {c scope}

theorem Reads.grow {p : Pending} {t : Token} {ts : List Token} {o : Operand} {b : Body}
    {width : Nat} (hc : p.close t.text = none) (ho : c.ReadAs (c.derive p.region scope) t ts o)
    (h : Reads c scope p ((t :: ts).drop o.tokens.length) b.children) :
    Reads c scope p (t :: ts) (b.grow o width).children := by
  obtain ⟨cs, n⟩ := b
  cases h with
  | stop hr => exact .stop hr
  | group hg hq hrest => exact .group (.operand hc ho hg) hq hrest

/-- The matcher follows the rules of `Reads`. -/
theorem reads_of_readBody {ts : List Token} {skip : Nat} {p : Pending} {b : Body}
    (h : c.readBody ts skip p scope = .ok b) : Reads c scope p (ts.drop skip) b.children := by
  induction ts generalizing skip p b with
  | nil =>
    obtain ⟨hr, rfl⟩ := readBody_nil_ok h
    rw [List.drop_nil]
    exact .stop hr
  | cons t ts ih =>
    cases skip with
    | succ skip => exact ih h
    | zero =>
      obtain ⟨hs, rfl⟩ | ⟨index, q, b', hc, hb, rfl⟩ | ⟨i, n, b', hc, hm, hb, rfl⟩ |
        ⟨es, b', hc, hm, hb, rfl⟩ := readBody_cons_ok h
      · apply Reads.stop
        rw [Pending.required, hs]
        rfl
      · exact .group .none hc (ih hb)
      · refine Reads.grow (o := .operator i) hc ⟨n, hm⟩ ?_
        rw [length_tokens_of_firstMatch hm]
        exact ih hb
      · exact Reads.grow (o := .token t) hc ⟨rfl, es, hm⟩ (ih hb)

theorem attempt_reads {o : OperatorId × Definition} {t : Token} {ts : List Token} {i : Instance}
    {n : Nat} (h : c.attempt t ts scope o = .ok (i, n)) :
    ∃ cs, i = ⟨o.1, o.2, t, ⟨0, t, []⟩ :: cs⟩ ∧
      Reads c scope (o.2.pendingAfter [⟨0, t, []⟩]) ts cs := by
  obtain ⟨b, hb, rfl, rfl⟩ := attempt_ok h
  refine ⟨b.children, rfl, ?_⟩
  rw [Definition.pendingAfter_leading]
  exact reads_of_readBody hb

theorem ReadAs.tokens {region : Scope} {t : Token} {ts : List Token} {o : Operand}
    (h : c.ReadAs region t ts o) :
    ∃ rest, o.tokens = t :: rest ∧ t :: ts = o.tokens ++ (t :: ts).drop o.tokens.length := by
  cases o with
  | token u =>
    obtain ⟨rfl, -⟩ := h
    exact ⟨[], rfl, rfl⟩
  | operator i =>
    obtain ⟨n, hm⟩ := h
    obtain ⟨hn, ht⟩ := firstMatch_spans hm
    refine ⟨ts.take n, ht, ?_⟩
    simp [Operand.tokens, ht, Nat.min_eq_left hn]

theorem Gathers.tokens {p : Pending} {ts rest : List Token} {os : List Operand}
    (h : Gathers c scope p ts os rest) : ts = Operand.tokensOf os ++ rest := by
  induction h with
  | none => rfl
  | operand hc ho h ih =>
    obtain ⟨-, -, hsplit⟩ := ho.tokens
    rw [hsplit, ih, Operand.tokensOf, List.append_assoc]

theorem Gathers.append {p : Pending} {ts mid rest : List Token} {os os' : List Operand}
    (h : Gathers c scope p ts os mid) (h' : Gathers c scope p mid os' rest) :
    Gathers c scope p ts (os ++ os') rest := by
  induction h with
  | none => exact h'
  | operand hc ho _ ih => exact .operand hc ho (ih h')

theorem gathers_singleton {p : Pending} {t : Token} {ts rest : List Token} {o : Operand}
    (hc : p.close t.text = .none) (ho : c.ReadAs (c.derive p.region scope) t ts o)
    (hrest : t :: ts = o.tokens ++ rest) : Gathers c scope p (t :: ts) [o] rest := by
  refine .operand hc ho ?_
  rw [hrest, List.drop_left]
  exact .none

theorem readBody_operand {p : Pending} {t : Token} {ts : List Token} {o : Operand}
    (hs : p.slots ≠ []) (hc : p.close t.text = none)
    (ho : c.ReadAs (c.derive p.region scope) t ts o) :
    c.readBody (t :: ts) 0 p scope =
      (c.readBody ((t :: ts).drop o.tokens.length) 0 p scope).grow o o.tokens.length := by
  rw [readBody_cons, if_neg fun h => hs (List.isEmpty_iff.mp h), hc]
  cases o with
  | token u =>
    obtain ⟨rfl, es, hm⟩ := ho
    rw [hm]
    rfl
  | operator i =>
    obtain ⟨n, hm⟩ := ho
    rw [hm, length_tokens_of_firstMatch hm, List.drop_succ_cons, ← readBody_drop]

theorem readBody_of_gathers {p q : Pending} {ts rest : List Token} {os : List Operand} {t : Token}
    {index : Nat} {b : Body} (h : Gathers c scope p ts os (t :: rest))
    (hc : p.close t.text = some (index, q)) (hb : c.readBody rest 0 q scope = .ok b) :
    c.readBody ts 0 p scope =
      .ok ⟨⟨index, t, os⟩ :: b.children, b.length + 1 + (Operand.tokensOf os).length⟩ := by
  have hs : p.slots ≠ [] := by
    intro hs
    rw [Pending.close, hs] at hc
    cases hc
  generalize hts : t :: rest = ending at h
  induction h with
  | none =>
    subst hts
    rw [readBody_cons, if_neg fun h => hs (List.isEmpty_iff.mp h), hc]
    dsimp only
    rw [hb]
    rfl
  | operand hnone ho _ ih =>
    rw [readBody_operand hs hnone ho, ih hts, Operand.tokensOf, List.length_append,
      Nat.add_comm (Operand.tokens _).length, ← Nat.add_assoc]
    rfl

theorem flattenItems_of_gathers {ts : List Token} {os : List Operand}
    (h : Gathers c scope ⟨[], 0⟩ ts os []) (ho : ∀ t, .token t ∈ os → c.openedBy scope t = [])
    (i : Nat) :
    (c.flattenItems scope ts 0 i).value = os ∧ (c.flattenItems scope ts 0 i).errors = [] := by
  generalize hend : ([] : List Token) = ending at h
  induction h generalizing i with
  | none =>
    subst hend
    exact ⟨rfl, rfl⟩
  | operand hclose hread hrest ih =>
    rename_i t ts o os rest
    have hread' : c.ReadAs scope t ts o := hread
    obtain ⟨hv, he⟩ := ih (fun t ht => ho t (List.mem_cons_of_mem _ ht)) (i + o.tokens.length) hend
    rw [flattenItems]
    cases o with
    | token u =>
      obtain ⟨rfl, -⟩ := hread'
      have hm : c.firstMatch u ts scope = .error [] := by
        rw [firstMatch, ho u (List.mem_cons_self ..)]
        rfl
      rw [hm]
      exact ⟨congrArg _ hv, he⟩
    | operator found =>
      obtain ⟨n, hm⟩ := hread'
      have hi : i + (n + 1) = i + 1 + n := by omega
      rw [length_tokens_of_firstMatch hm, List.drop_succ_cons, ← flattenItems_drop, hi] at hv he
      rw [hm]
      exact ⟨congrArg _ hv, he⟩

theorem Gathers.getElem? {p : Pending} {ts rest : List Token} {os : List Operand} {k : Nat}
    {o : Operand} (h : Gathers c scope p ts os rest) (hk : os[k]? = some o) :
    ∃ t ts', ts.drop (Operand.tokensOf (os.take k)).length = t :: ts' ∧ p.close t.text = .none ∧
      c.ReadAs (c.derive p.region scope) t ts' o := by
  induction h generalizing k with
  | none => simp at hk
  | operand hc ho h ih =>
    cases k with
    | zero =>
      obtain rfl := Option.some.inj hk
      exact ⟨_, _, rfl, hc, ho⟩
    | succ k =>
      obtain ⟨t, ts', hd, ht⟩ := ih hk
      refine ⟨t, ts', ?_, ht⟩
      rw [List.take_succ_cons, Operand.tokensOf, List.length_append, ← List.drop_drop, hd]

/-- A group that is read keeps the invariant, and the next one is read from the state after it. -/
theorem Reads.step {d : Definition} {before : List Child} {ts : List Token} {k : Child}
    {cs : List Child} (hb : d.Begun before)
    (h : Reads c scope (d.pendingAfter before) ts (k :: cs)) :
    ∃ rest, Gathers c scope (d.pendingAfter before) ts k.operands (k.keyword :: rest) ∧
      Closes d.separators (Child.countIn · before) (d.opened before) k.keyword.text k.index ∧
      d.Begun (before ++ [k]) ∧ Reads c scope (d.pendingAfter (before ++ [k])) rest cs := by
  cases h with
  | group hg hc hrest =>
    rename_i q os t rest index
    obtain ⟨hk, hq⟩ := hb.close_some hc
    obtain rfl := hq os t rfl
    exact ⟨rest, hg, hk, hb.append (k := ⟨index, t, os⟩) hk, hrest⟩

theorem Reads.getElem? {d : Definition} {before : List Child} {ts : List Token} {cs : List Child}
    {n : Nat} {child : Child} (hb : d.Begun before)
    (h : Reads c scope (d.pendingAfter before) ts cs) (hn : cs[n]? = some child) :
    ∃ rest, d.Begun (before ++ cs.take n) ∧
      Gathers c scope (d.pendingAfter (before ++ cs.take n))
        (ts.drop (Child.tokensOf (cs.take n)).length) child.operands (child.keyword :: rest) ∧
      Closes d.separators (Child.countIn · (before ++ cs.take n)) (d.opened (before ++ cs.take n))
        child.keyword.text child.index := by
  induction cs generalizing before ts n with
  | nil => simp at hn
  | cons k cs ih =>
    obtain ⟨rest, hg, hk, hb', hrest⟩ := h.step hb
    cases n with
    | zero =>
      obtain rfl := Option.some.inj hn
      refine ⟨rest, ?_⟩
      simp only [List.take_zero, List.append_nil]
      exact ⟨hb, hg, hk⟩
    | succ n =>
      have hcs : Child.tokensOf (k :: cs.take n) =
          (Operand.tokensOf k.operands ++ [k.keyword]) ++ Child.tokensOf (cs.take n) := by
        cases k
        rfl
      obtain ⟨rest', hb'', hg', hk'⟩ := ih hb' hrest hn
      rw [List.append_assoc, List.singleton_append] at hb'' hg' hk'
      refine ⟨rest', hb'', ?_, hk'⟩
      rw [List.take_succ_cons, hcs, List.length_append, ← List.drop_drop, hg.tokens]
      simpa using hg'

theorem Reads.complete {d : Definition} {before : List Child} {ts : List Token} {cs : List Child}
    (hb : d.Begun before) (h : Reads c scope (d.pendingAfter before) ts cs) :
    d.Begun (before ++ cs) ∧ (d.pendingAfter (before ++ cs)).required = none := by
  induction cs generalizing before ts with
  | nil =>
    cases h with
    | stop hr =>
      rw [List.append_nil]
      exact ⟨hb, hr⟩
  | cons k cs ih =>
    obtain ⟨rest, -, -, hb', hrest⟩ := h.step hb
    simpa using ih hb' hrest

end Distfix.Catalog
