import Distfix.Proofs.Greedy

namespace Distfix

namespace Pending

variable {index : Nat}

theorem mem_of_requiredIn {slots : List (Separator × Nat)} {count : Nat}
    (h : requiredIn slots count = some index) : ∃ s, (s, index) ∈ slots ∧ 0 < s.repeats.min := by
  induction slots generalizing count with
  | nil => cases h
  | cons slot slots ih =>
    rw [requiredIn] at h
    split at h
    · rename_i hcount
      obtain rfl := Option.some.inj h
      exact ⟨slot.1, List.mem_cons_self .., Nat.zero_lt_of_lt hcount⟩
    · obtain ⟨s, hs, hmin⟩ := ih h
      exact ⟨s, List.mem_cons_of_mem _ hs, hmin⟩

theorem mem_initial {d : Definition} {s : Separator} (h : (s, index) ∈ (initial d).slots) :
    0 < index ∧ d.separators[index]? = some s := by
  obtain ⟨hindex, hs⟩ := List.mk_mem_zipIdx_iff_le_and_getElem?_sub.mp h
  refine ⟨hindex, ?_⟩
  rw [Definition.separators, List.getElem?_cons, if_neg (Nat.ne_of_gt hindex)]
  exact hs

end Pending

namespace Catalog

variable {c : Catalog} {scope : Scope} {p : Pending} {t : Token} {ts : List Token} {e : Shortfall}

theorem readBody_cons_error (h : c.readBody (t :: ts) 0 p scope = .error e) :
    ∃ n q e', n ≤ ts.length ∧ q.slots ⊆ p.slots ∧ c.readBody ts n q scope = .error e' ∧
      e = e'.after (n + 1) := by
  rw [readBody_cons] at h
  split at h
  · cases h
  · cases hc : p.close t.text with
    | some closed =>
      rw [hc] at h
      obtain ⟨e', he, rfl⟩ := Reading.close_eq_error h
      exact ⟨0, closed.2, e', Nat.zero_le _, Pending.close_slots hc, he, rfl⟩
    | none =>
      rw [hc] at h
      cases hm : c.firstMatch t ts (c.derive p.region scope) with
      | ok found =>
        obtain ⟨e', he, rfl⟩ := Reading.grow_eq_error (by simpa only [hm] using h)
        exact ⟨found.2, p, e', (firstMatch_spans hm).1, List.Subset.refl _, he, rfl⟩
      | error es =>
        obtain ⟨e', he, rfl⟩ := Reading.grow_eq_error (by simpa only [hm] using h)
        exact ⟨0, p, e', Nat.zero_le _, List.Subset.refl _, he, rfl⟩

/-- A reading fails at the end of the input only, and for a separator that was open from the
beginning. -/
theorem readBody_error {skip : Nat} (hskip : skip ≤ ts.length)
    (h : c.readBody ts skip p scope = .error e) :
    e.length = ts.length - skip ∧ ∃ s, (s, e.separator) ∈ p.slots ∧ 0 < s.repeats.min := by
  induction ts generalizing skip p e with
  | nil =>
    obtain rfl : skip = 0 := Nat.le_zero.mp hskip
    rw [readBody] at h
    cases hr : p.required with
    | none => rw [hr] at h; cases h
    | some separator =>
      rw [hr] at h
      obtain rfl := Except.error.inj h
      exact ⟨rfl, Pending.mem_of_requiredIn hr⟩
  | cons t ts ih =>
    cases skip with
    | succ skip =>
      rw [List.length_cons, Nat.add_sub_add_right]
      exact ih (Nat.le_of_succ_le_succ hskip) h
    | zero =>
      obtain ⟨n, q, e', hn, hq, he, rfl⟩ := readBody_cons_error h
      obtain ⟨hlength, s, hs, hmin⟩ := ih hn he
      refine ⟨?_, s, hq hs, hmin⟩
      simp only [Shortfall.after, hlength, List.length_cons]
      omega

theorem attempt_error {o : OperatorId × Definition} (h : c.attempt t ts scope o = .error e) :
    e.length = ts.length ∧ 0 < e.separator ∧
      ∃ s, o.2.separators[e.separator]? = some s ∧ 0 < s.repeats.min := by
  unfold attempt at h
  cases hb : c.readBody ts 0 (.initial o.2) scope with
  | ok b => rw [hb] at h; cases h
  | error e' =>
    rw [hb] at h
    obtain rfl := Except.error.inj h
    obtain ⟨hlength, s, hs, hmin⟩ := readBody_error (Nat.zero_le _) hb
    obtain ⟨hpos, hsep⟩ := Pending.mem_initial hs
    exact ⟨hlength, hpos, s, hsep, hmin⟩

end Catalog

namespace Operand

/-- The tokens among some items of a text, each with its position. The first item begins at `i`. -/
def tokenPlaces : List Operand → Nat → List (Token × Nat)
  | [], _ => []
  | .token t :: os, i => (t, i) :: tokenPlaces os (i + 1)
  | .operator o :: os, i => tokenPlaces os (i + o.tokens.length)

end Operand

namespace Catalog

variable (c : Catalog) (tokens : List Token) (scope : Scope)

/-- The operators of a scope that begin at some tokens, each with the position where it begins. -/
def begun (places : List (Token × Nat)) : List (Nat × OperatorId × Definition) :=
  places.flatMap fun x => ((c.operators scope).filter (·.2.leading.accepts x.1.text)).map (x.2, ·)

/-- What is reported of an operator that begins at a position and is not finished. A match there
fails likewise. -/
inductive Unfinished : Nat × OperatorId × Definition → ParseError → Prop
  | mk {p : Nat} {o : OperatorId × Definition} {separator : Nat} {s : Separator}
    (fresh : c.matchOperator tokens p o scope =
      .error ⟨tokens.length, .unexpectedEnd o.1 separator⟩)
    (notLeading : 0 < separator) (separator_eq : o.2.separators[separator]? = some s)
    (required : 1 ≤ s.repeats.min) :
    Unfinished (p, o) ⟨tokens.length, .unexpectedEnd o.1 separator⟩

variable {c tokens scope} {i : Nat} {t : Token} {ts : List Token}

theorem Unfinished.fault_eq {x : Nat × OperatorId × Definition} {e : ParseError}
    (h : c.Unfinished tokens scope x e) :
    ∃ op separator, e.fault = .unexpectedEnd op separator := by
  cases h with
  | mk => exact ⟨_, _, rfl⟩

theorem unfinished_of_attempt {o : OperatorId × Definition} {e : Shortfall}
    (hd : tokens.drop i = t :: ts) (ho : o.2.leading.accepts t.text = true)
    (h : c.attempt t ts scope o = .error e) :
    c.Unfinished tokens scope (i, o) (.unfinished i (o, e)) := by
  obtain ⟨hlength, hpos, s, hs, hmin⟩ := attempt_error h
  have hindex : i + 1 + e.length = tokens.length := by
    have hlen := congrArg List.length hd
    rw [List.length_drop, List.length_cons] at hlen
    omega
  have herror : ParseError.unfinished i (o, e) =
      ⟨tokens.length, .unexpectedEnd o.1 e.separator⟩ := by
    rw [ParseError.unfinished, hindex]
  have hfresh : c.matchOperator tokens i o scope = .error (.unfinished i (o, e)) := by
    rw [matchOperator_of_accepts c tokens i hd ho, h, located]
  rw [herror] at hfresh ⊢
  exact .mk hfresh hpos hs hmin

theorem unfinished_of_firstMatch {es : List ((OperatorId × Definition) × Shortfall)}
    (hd : tokens.drop i = t :: ts) (h : c.firstMatch t ts scope = .error es) :
    List.Forall₂ (c.Unfinished tokens scope) ((c.openedBy scope t).map (i, ·))
      (es.map (.unfinished i)) := by
  have hopened : ∀ o ∈ c.openedBy scope t, o.2.leading.accepts t.text = true := fun o ho =>
    (mem_openedBy.mp ho).2
  have hall := (List.forall₂_and_left _ _).mpr ⟨hopened, firstOk_error_forall₂ h⟩
  rw [List.forall₂_map_left_iff, List.forall₂_map_right_iff]
  refine hall.imp ?_
  rintro o ⟨o', e⟩ ⟨ho, rfl, he⟩
  exact unfinished_of_attempt hd ho he

variable (c scope) in
theorem flattenItems_reports (skip : Nat) (hd : tokens.drop i = ts.drop skip) :
    let r := c.flattenItems scope ts skip i
    (∀ x ∈ Operand.tokenPlaces r.value i, tokens[x.2]? = some x.1) ∧
      List.Forall₂ (c.Unfinished tokens scope) (c.begun scope (Operand.tokenPlaces r.value i))
        r.errors := by
  induction ts generalizing skip i with
  | nil => exact ⟨nofun, .nil⟩
  | cons t ts ih =>
    cases skip with
    | succ skip => exact ih skip hd
    | zero =>
      have hrest (n : Nat) : tokens.drop (i + 1 + n) = ts.drop n := by
        rw [← List.drop_drop, (drop_eq_cons hd).2]
      rw [flattenItems]
      cases hm : c.firstMatch t ts scope with
      | ok found =>
        obtain ⟨found, n⟩ := found
        -- the next item begins behind all tokens of the operator
        have hplaces (os : List Operand) : Operand.tokenPlaces (.operator found :: os) i =
            Operand.tokenPlaces os (i + 1 + n) := by
          have hlength : found.tokens.length = n + 1 := length_tokens_of_firstMatch hm
          rw [Operand.tokenPlaces, hlength, Nat.add_right_comm, Nat.add_assoc]
        simp only [Outcome.emit, hplaces]
        exact ih n (hrest n)
      | error es =>
        obtain ⟨hplaces, herrors⟩ := ih 0 (hrest 0)
        refine ⟨List.forall_mem_cons.mpr ⟨(drop_eq_cons hd).1, hplaces⟩, ?_⟩
        exact List.rel_append (unfinished_of_firstMatch hd hm) herrors

/-- Flattening reports the operators that begin at the tokens among its items and are not finished,
each of them once and in order, and nothing else. -/
theorem flatten_reports_unfinished (c : Catalog) (tokens : List Token) (index : Nat)
    (scope : Scope) :
    let r := c.flatten tokens index scope
    let places := Operand.tokenPlaces r.value index
    (∀ x ∈ places, tokens[x.2]? = some x.1) ∧
      List.Forall₂ (c.Unfinished tokens scope) (c.begun scope places) r.errors ∧
      ∀ e ∈ r.errors, e.isMismatch = false ∧ ∀ op, e.fault ≠ .noProgress op := by
  rw [c.flatten_eq_flattenAhead tokens index scope]
  have hd : tokens.drop index = (tokens.drop index).drop 0 := rfl
  obtain ⟨hplaces, herrors⟩ := c.flattenItems_reports scope 0 hd
  refine ⟨hplaces, herrors, fun e he => ?_⟩
  obtain ⟨x, hx⟩ := exists_of_forall₂ herrors he
  obtain ⟨op, separator, hfault⟩ := hx.fault_eq
  rw [ParseError.isMismatch, hfault]
  refine ⟨rfl, fun op hop => ?_⟩
  cases hop

example : (Sample.catalog.flatten (["<", "[", "a"].map Sample.symbol) 0 Sample.scope).errors =
    [⟨3, .unexpectedEnd "group" 2⟩, ⟨3, .unexpectedEnd "quote" 1⟩] := by
  decide +kernel

end Catalog

end Distfix
