import Distfix.Proofs.StackMatching
import Distfix.Proofs.Structure

namespace Distfix

/-- A scope whose only operator with several keywords is one of brackets. Its closing separator
comes last and stands once, those before it may be left out, and no keyword is in doubt. -/
structure Catalog.Brackets (c : Catalog) (scope : Scope) (o : OperatorId × Definition)
    (middle : List Separator) (closing : Separator) : Prop where
  mem : o ∈ c.operators scope
  rest_eq : o.2.rest = middle ++ [closing]
  optional : ∀ s ∈ middle, s.repeats.min = 0
  once : closing.repeats = .once
  unscoped : ∀ s ∈ o.2.rest, s.region = none
  opens : ∀ text, o.2.leading.accepts text = true → ∀ s ∈ o.2.rest, s.accepts text = false
  closes : ∀ text, closing.accepts text = true → ∀ s ∈ middle, s.accepts text = false
  others : ∀ o' ∈ c.operators scope, o' ≠ o → o'.2.rest = [] ∧
    ∀ text, o.2.leading.accepts text = true → o'.2.leading.accepts text = false

namespace Pending

def Inside (middle : List Separator) (closing : Separator) (last : Nat) (p : Pending) : Prop :=
  ∃ ms, p.slots = ms ++ [(closing, last)] ∧ (∀ s ∈ ms, s.1 ∈ middle) ∧ (ms = [] → p.count = 0)

variable {middle : List Separator} {closing : Separator} {last : Nat} {text : String}

theorem closeIn_closing (hopt : ∀ s ∈ middle, s.repeats.min = 0) (honce : closing.repeats = .once)
    (hc : closing.accepts text = true) (hm : ∀ s ∈ middle, s.accepts text = false)
    {ms : List (Separator × Nat)} (hms : ∀ s ∈ ms, s.1 ∈ middle) {count : Nat}
    (h0 : ms = [] → count = 0) :
    closeIn text (ms ++ [(closing, last)]) count = some (last, ⟨[], 0⟩) := by
  induction ms generalizing count with
  | nil =>
    rw [h0 rfl, List.nil_append, closeIn, if_pos hc, advance, honce]
    rfl
  | cons s ms ih =>
    obtain ⟨hs, hms⟩ := List.forall_mem_cons.mp hms
    rw [List.cons_append, closeIn, hm _ hs, hopt _ hs, if_neg Bool.false_ne_true,
      if_neg (Nat.not_lt_zero _)]
    exact ih hms fun _ => rfl

theorem requiredIn_closing (hopt : ∀ s ∈ middle, s.repeats.min = 0)
    (honce : closing.repeats = .once) {ms : List (Separator × Nat)} (hms : ∀ s ∈ ms, s.1 ∈ middle)
    {count : Nat} (h0 : ms = [] → count = 0) :
    requiredIn (ms ++ [(closing, last)]) count = some last := by
  induction ms generalizing count with
  | nil =>
    rw [h0 rfl, List.nil_append, requiredIn, honce]
    rfl
  | cons s ms ih =>
    obtain ⟨hs, hms⟩ := List.forall_mem_cons.mp hms
    rw [List.cons_append, requiredIn, hopt _ hs, if_neg (Nat.not_lt_zero _)]
    exact ih hms fun _ => rfl

theorem closeIn_inside (hc : closing.accepts text = false) {ms : List (Separator × Nat)}
    (hms : ∀ s ∈ ms, s.1 ∈ middle) {count index : Nat} {q : Pending}
    (h : closeIn text (ms ++ [(closing, last)]) count = some (index, q)) :
    q.Inside middle closing last := by
  induction ms generalizing count with
  | nil =>
    rw [List.nil_append, closeIn, hc, if_neg Bool.false_ne_true] at h
    split at h <;> cases h
  | cons s ms ih =>
    obtain ⟨hs, hms'⟩ := List.forall_mem_cons.mp hms
    rw [List.cons_append, closeIn] at h
    split at h
    · obtain ⟨-, rfl⟩ := Prod.mk.inj (Option.some.inj h)
      rw [advance]
      split
      · exact ⟨ms, rfl, hms', fun _ => rfl⟩
      · exact ⟨s :: ms, rfl, hms, fun h => absurd h (List.cons_ne_nil _ _)⟩
    · split at h
      · cases h
      · exact ih hms' h

namespace Inside

variable {p q : Pending}

theorem slots_isEmpty (h : p.Inside middle closing last) : p.slots.isEmpty = false := by
  obtain ⟨ms, hp, -⟩ := h
  rw [hp]
  cases ms <;> rfl

theorem close_closing (h : p.Inside middle closing last) (hopt : ∀ s ∈ middle, s.repeats.min = 0)
    (honce : closing.repeats = .once) (hc : closing.accepts text = true)
    (hm : ∀ s ∈ middle, s.accepts text = false) : p.close text = some (last, ⟨[], 0⟩) := by
  obtain ⟨ms, hp, hms, h0⟩ := h
  rw [close, hp]
  exact closeIn_closing hopt honce hc hm hms h0

theorem close_other (h : p.Inside middle closing last) (hc : closing.accepts text = false)
    {index : Nat} (hq : p.close text = some (index, q)) : q.Inside middle closing last := by
  obtain ⟨ms, hp, hms, -⟩ := h
  rw [close, hp] at hq
  exact closeIn_inside hc hms hq

theorem close_none (h : p.Inside middle closing last) (hc : closing.accepts text = false)
    (hm : ∀ s ∈ middle, s.accepts text = false) : p.close text = none := by
  obtain ⟨ms, hp, hms, -⟩ := h
  refine close_eq_none fun s hs => ?_
  rw [hp, List.mem_append, List.mem_singleton] at hs
  obtain hs | rfl := hs
  · exact hm _ (hms s hs)
  · exact hc

theorem required_eq (h : p.Inside middle closing last) (hopt : ∀ s ∈ middle, s.repeats.min = 0)
    (honce : closing.repeats = .once) : p.required = some last := by
  obtain ⟨ms, hp, hms, h0⟩ := h
  rw [required, hp]
  exact requiredIn_closing hopt honce hms h0

theorem region_eq (h : p.Inside middle closing last)
    (hu : ∀ s ∈ middle ++ [closing], s.region = none) : p.region = none := by
  obtain ⟨ms, hp, hms, -⟩ := h
  rw [region, hp]
  cases ms with
  | nil => exact hu _ (by simp)
  | cons s ms => exact hu _ (List.mem_append_left _ (hms s (by simp)))

end Inside

end Pending

/-- What is read inside the brackets ends with the closing token that a stack gives them. If there
is none, the text ends while the separator `last` is required. -/
def Reading.MatchesStack (opens closes : String → Bool) (op : OperatorId) (last : Nat)
    (ts : List Token) : Reading → Prop
  | .ok b => Matching.Closed opens closes op ts b
  | .error e => e = ⟨last, ts.length⟩ ∧ Matching.Unclosed opens closes ts

namespace Reading.MatchesStack

variable {opens closes : String → Bool} {op : OperatorId} {last : Nat} {t : Token}
  {ts : List Token} {r : Reading}

theorem keyword (h : r.MatchesStack opens closes op last ts) (ho : opens t.text = false)
    (ht : closes t.text = false) (index : Nat) :
    (r.close index t).MatchesStack opens closes op last (t :: ts) := by
  cases r with
  | ok b => exact Matching.Closed.keyword h ho ht index
  | error e =>
    obtain ⟨rfl, hu⟩ := h
    exact ⟨rfl, hu.other ho ht⟩

theorem operand (h : r.MatchesStack opens closes op last ts) (ho : opens t.text = false)
    (ht : closes t.text = false) {x : Operand} (hx : x.tokens = [t])
    (hp : ∀ start, x.placesOf op start = []) :
    (r.grow x 1).MatchesStack opens closes op last (t :: ts) := by
  cases r with
  | ok b => exact Matching.Closed.operand h ho ht hx hp
  | error e =>
    obtain ⟨rfl, hu⟩ := h
    exact ⟨rfl, hu.other ho ht⟩

theorem nested {x : OperatorId × Definition} {b : Body} (hb : b.Covers ts)
    (hc : Matching.Closed opens closes x.1 ts b) (ho : opens t.text = true)
    (h : r.MatchesStack opens closes x.1 last (ts.drop b.length)) :
    (r.grow (.operator (.ofBody x t b)) (b.length + 1)).MatchesStack opens closes x.1 last
      (t :: ts) := by
  cases r with
  | ok b' => exact hc.nested hb ho h
  | error e =>
    obtain ⟨rfl, hu⟩ := h
    have hlen : (ts.drop b.length).length + (b.length + 1) = (t :: ts).length := by
      rw [List.length_drop, List.length_cons, ← Nat.add_assoc, Nat.sub_add_cancel hb.1]
    exact ⟨congrArg (Shortfall.mk last) hlen, hc.unclosed_nested hb ho hu⟩

theorem unopened (h : r.MatchesStack opens closes op last ts)
    (hu : Matching.Unclosed opens closes ts) (ho : opens t.text = true) (x : Operand) :
    (r.grow x 1).MatchesStack opens closes op last (t :: ts) := by
  cases r with
  | ok b => exact (Matching.Closed.not_unclosed h hu).elim
  | error e =>
    obtain ⟨rfl, -⟩ := h
    exact ⟨rfl, hu.opening ho⟩

end Reading.MatchesStack

/-- The operators with some id among the items are the pairs of a stack. What is left on the stack
at the end of the text, before which `stop` tokens stand, is reported there. -/
structure Outcome.MatchesStack (op : OperatorId) (last stop start : Nat) (m : Matching)
    (r : Outcome (List Operand)) : Prop where
  places_eq : Operand.placesIn op r.value start = m.pairs
  errors_eq : r.errors = m.unmatched.reverse.map fun _ => ⟨stop, .unexpectedEnd op last⟩

namespace Outcome.MatchesStack

variable {op : OperatorId} {last stop start : Nat} {m : Matching} {r : Outcome (List Operand)}

theorem emit {n : Nat} (h : r.MatchesStack op last stop (start + n) m) {x : Operand}
    (hx : x.tokens.length = n) :
    (r.emit x []).MatchesStack op last stop start (m.after (x.placesOf op start)) where
  places_eq := by
    subst hx
    exact congrArg (x.placesOf op start ++ ·) h.places_eq
  errors_eq := h.errors_eq

theorem emit_unclosed (h : r.MatchesStack op last stop (start + 1) m) (t : Token) :
    (r.emit (.token t) [⟨stop, .unexpectedEnd op last⟩]).MatchesStack op last stop start
      (m.above [start]) where
  places_eq := h.places_eq
  errors_eq := by
    simp [Outcome.emit, Matching.above, h.errors_eq]

end Outcome.MatchesStack

namespace Catalog.Brackets

variable {c : Catalog} {scope : Scope} {o : OperatorId × Definition} {middle : List Separator}
  {closing : Separator} (h : c.Brackets scope o middle closing)
include h

theorem inside_initial : (Pending.initial o.2).Inside middle closing (middle.length + 1) := by
  refine ⟨middle.zipIdx 1, ?_, fun s hs => List.fst_mem_of_mem_zipIdx hs, fun _ => rfl⟩
  rw [Pending.initial, h.rest_eq, List.zipIdx_append, Nat.add_comm]
  rfl

theorem derive_eq {p : Pending} {last : Nat} (hp : p.Inside middle closing last) :
    c.derive p.region scope = scope := by
  rw [hp.region_eq (h.rest_eq ▸ h.unscoped)]
  rfl

theorem closing_mem : closing ∈ o.2.rest := by
  rw [h.rest_eq]
  exact List.mem_append_right _ (List.mem_singleton_self closing)

theorem middle_mem {s : Separator} (hs : s ∈ middle) : s ∈ o.2.rest := by
  rw [h.rest_eq]
  exact List.mem_append_left _ hs

theorem openedBy_opening {t : Token} (ht : o.2.leading.accepts t.text = true) :
    c.openedBy scope t = [o] := by
  obtain ⟨before, after, hs⟩ := List.append_of_mem h.mem
  have hnodup : (before ++ o :: after).Nodup :=
    hs ▸ (scope.distinct.sublist (c.operators_sublist scope)).of_map _
  have hother : ∀ o' ∈ before ++ after, ¬ o'.2.leading.accepts t.text = true := by
    intro o' ho' hacc
    have hmem : o' ∈ c.operators scope := by
      rw [hs]
      exact (List.perm_middle (a := o)).mem_iff.mpr (List.mem_cons_of_mem _ ho')
    have hne : o' ≠ o := by
      rintro rfl
      exact (List.nodup_middle.mp hnodup).notMem ho'
    exact absurd ((h.others o' hmem hne).2 _ ht) (by simp [hacc])
  rw [openedBy, hs, List.filter_append, List.filter_cons, if_pos ht,
    List.filter_eq_nil_iff.mpr fun o' ho' => hother o' (List.mem_append_left _ ho'),
    List.filter_eq_nil_iff.mpr fun o' ho' => hother o' (List.mem_append_right _ ho')]
  rfl

theorem firstMatch_other {t : Token} (ht : o.2.leading.accepts t.text = false) (ts : List Token) :
    (∃ i : Instance, c.firstMatch t ts scope = .ok (i, 0) ∧ i.tokens = [t] ∧
        ∀ start, i.placesOf o.1 start = []) ∨ c.firstMatch t ts scope = .error [] := by
  cases hs : c.openedBy scope t with
  | nil => exact .inr (by rw [firstMatch, hs, firstOk])
  | cons o' rest =>
    obtain ⟨hmem, hacc⟩ := mem_openedBy.mp (hs ▸ List.mem_cons_self : o' ∈ c.openedBy scope t)
    have hne : o' ≠ o := by
      rintro rfl
      exact absurd (ht.symm.trans hacc) Bool.false_ne_true
    have hid : o'.1 ≠ o.1 := fun he => hne (c.operator_unique hmem h.mem he)
    have hm := firstMatch_of_rest_nil hs (h.others o' hmem hne).1 ts
    refine .inl ⟨.ofBody o' t .empty, hm, rfl, ?_⟩
    intro start
    simp [Instance.ofBody, Instance.placesOf, Child.placesOf, Operand.placesIn, Body.empty, hid]

theorem firstMatch_opening {t : Token} (ht : o.2.leading.accepts t.text = true) (ts : List Token) :
    c.firstMatch t ts scope =
      match c.readBody ts 0 (.initial o.2) scope with
      | .ok b => .ok (.ofBody o t b, b.length)
      | .error e => .error [(o, e)] := by
  rw [firstMatch, h.openedBy_opening ht, firstOk, firstOk, attempt]
  cases c.readBody ts 0 (.initial o.2) scope <;> rfl

theorem readBody_matchesStack (ts : List Token) (skip : Nat) {p : Pending}
    (hp : p.Inside middle closing (middle.length + 1)) :
    (c.readBody ts skip p scope).MatchesStack o.2.leading.accepts closing.accepts o.1
      (middle.length + 1) (ts.drop skip) := by
  -- the text of an opening token that is not closed is read again for the brackets around it
  induction ts generalizing skip p with
  | nil =>
    rw [readBody, hp.required_eq h.optional h.once, List.drop_nil]
    exact ⟨rfl, Matching.unclosed_nil⟩
  | cons t ts ih =>
    cases skip with
    | succ skip => exact ih skip hp
    | zero =>
      rw [readBody_cons, hp.slots_isEmpty, if_neg Bool.false_ne_true, h.derive_eq hp,
        List.drop_zero]
      cases ho : o.2.leading.accepts t.text with
      | true =>
        have hs := h.opens _ ho
        rw [hp.close_none (hs _ h.closing_mem) fun s hm => hs s (h.middle_mem hm),
          h.firstMatch_opening ho]
        have hinner := ih 0 h.inside_initial
        cases hb : c.readBody ts 0 (.initial o.2) scope with
        | ok b =>
          rw [hb] at hinner
          exact .nested (readBody_covers hb) hinner ho (ih b.length hp)
        | error e =>
          rw [hb] at hinner
          exact (ih 0 hp).unopened hinner.2 ho (.token t)
      | false =>
        cases hc : closing.accepts t.text with
        | true =>
          rw [hp.close_closing h.optional h.once hc (h.closes _ hc)]
          dsimp only
          rw [readBody_of_slots_nil rfl]
          exact Matching.closed_closing ho hc _
        | false =>
          cases hq : p.close t.text with
          | some closed => exact (ih 0 (hp.close_other hc hq)).keyword ho hc closed.1
          | none =>
            obtain ⟨i, hi, htokens, hplaces⟩ | he := h.firstMatch_other ho ts
            · rw [hi]
              exact (ih 0 hp).operand ho hc htokens hplaces
            · rw [he]
              exact (ih 0 hp).operand ho hc rfl fun _ => rfl

theorem flattenItems_matchesStack (ts : List Token) (skip i : Nat) :
    (c.flattenItems scope ts skip i).MatchesStack o.1 (middle.length + 1)
      (i + (ts.drop skip).length) i
      (.ofTokens o.2.leading.accepts closing.accepts (ts.drop skip) i []) := by
  induction ts generalizing skip i with
  | nil =>
    rw [List.drop_nil]
    exact ⟨rfl, rfl⟩
  | cons t ts ih =>
    cases skip with
    | succ skip => exact ih skip i
    | zero =>
      have hlen : i + (t :: ts).length = i + 1 + ts.length := by
        rw [List.length_cons, ← Nat.add_assoc, Nat.add_right_comm]
      rw [flattenItems, List.drop_zero, hlen]
      cases ho : o.2.leading.accepts t.text with
      | true =>
        have hinner := h.readBody_matchesStack ts 0 h.inside_initial
        rw [h.firstMatch_opening ho]
        cases hb : c.readBody ts 0 (.initial o.2) scope with
        | ok b =>
          rw [hb] at hinner
          have hclosed : Matching.Closed o.2.leading.accepts closing.accepts o.1 ts b := hinner
          have hcovers : b.Covers ts := readBody_covers hb
          have hnext : i + (b.length + 1) = i + 1 + b.length := by omega
          have hrest := ih b.length (i + 1 + b.length)
          rw [List.length_drop, Nat.add_assoc (i + 1), Nat.add_sub_cancel' hcovers.1,
            ← hnext] at hrest
          rw [hclosed.opening_eq hcovers ho]
          exact hnext ▸ hrest.emit (Matching.length_tokens_ofBody hcovers o t)
        | error e =>
          rw [hb] at hinner
          obtain ⟨rfl, hu⟩ := hinner
          have hstack : Matching.ofTokens o.2.leading.accepts closing.accepts ts (i + 1) [i] = _ :=
            hu (i + 1) [i]
          rw [Matching.ofTokens_opening ho, hstack]
          exact (ih 0 (i + 1)).emit_unclosed t
      | false =>
        have hstack : Matching.ofTokens o.2.leading.accepts closing.accepts (t :: ts) i [] =
            Matching.ofTokens o.2.leading.accepts closing.accepts ts (i + 1) [] := by
          cases hc : closing.accepts t.text with
          | true => exact Matching.ofTokens_unopened ho hc
          | false => exact Matching.ofTokens_other ho hc
        have hrest := ih 0 (i + 1)
        rw [hstack]
        obtain ⟨x, hx, htokens, hplaces⟩ | he := h.firstMatch_other ho ts
        · have hx' := hrest.emit (x := .operator x) (congrArg List.length htokens)
          rw [Operand.placesOf, hplaces] at hx'
          rw [hx]
          exact hx'
        · rw [he]
          exact hrest.emit (x := .token t) rfl

end Catalog.Brackets

/-- Brackets are found where a stack finds them, at all depths, and each opening token that is left
on the stack is reported at the end of the text. -/
theorem Catalog.flatten_brackets {c : Catalog} {scope : Scope} {o : OperatorId × Definition}
    {middle : List Separator} {closing : Separator} (h : c.Brackets scope o middle closing)
    (tokens : List Token) :
    let m := Matching.ofTokens o.2.leading.accepts closing.accepts tokens 0 []
    Operand.placesIn o.1 (c.flatten tokens 0 scope).value 0 = m.pairs ∧
      (c.flatten tokens 0 scope).errors =
        m.unmatched.reverse.map fun _ =>
          ⟨tokens.length, .unexpectedEnd o.1 (middle.length + 1)⟩ := by
  have hm := h.flattenItems_matchesStack tokens 0 0
  rw [flatten_eq_flattenAhead, flattenAhead, List.drop_zero]
  rw [List.drop_zero, Nat.zero_add] at hm
  exact ⟨hm.places_eq, hm.errors_eq⟩

namespace Sample

theorem bar_ne_empty : "|" ≠ "" := by decide

def bar : Definition := ⟨.one "|" bar_ne_empty, [], .between 1 2, false⟩

def bracketCatalog : Catalog := ⟨#[group, bar], #[], #[]⟩

def bracketScope : Scope := ⟨[("group", ⟨0⟩), ("bar", ⟨1⟩)], by decide⟩

theorem brackets : bracketCatalog.Brackets bracketScope ("group", group)
    [⟨.one "|" (by decide), .many, none⟩] ⟨.one ">" (by decide), .once, none⟩ where
  mem := List.mem_cons_self
  rest_eq := rfl
  optional := by decide
  once := rfl
  unscoped := by decide
  opens text ht := by
    obtain rfl := List.mem_singleton.mp ((Spellings.accepts_iff _ _).mp ht)
    decide
  closes text ht := by
    obtain rfl := List.mem_singleton.mp ((Spellings.accepts_iff _ _).mp ht)
    decide
  others := by
    intro o' ho' hne
    obtain rfl : o' = ("bar", bar) := by
      revert o'
      decide
    refine ⟨rfl, fun text ht => ?_⟩
    obtain rfl := List.mem_singleton.mp ((Spellings.accepts_iff _ _).mp ht)
    decide

end Sample

theorem Catalog.flatten_brackets_unbalanced :
    let tokens := ["|", "<", "|", "<", "|", ">", "<", "|"].map Sample.symbol
    Sample.bracketCatalog.Brackets Sample.bracketScope ("group", Sample.group)
        [⟨.one "|" (by decide), .many, none⟩] ⟨.one ">" (by decide), .once, none⟩ ∧
      Operand.placesIn "group"
          (Sample.bracketCatalog.flatten tokens 0 Sample.bracketScope).value 0 = [(3, 5)] ∧
      (Sample.bracketCatalog.flatten tokens 0 Sample.bracketScope).errors =
        [⟨8, .unexpectedEnd "group" 2⟩, ⟨8, .unexpectedEnd "group" 2⟩] :=
  ⟨Sample.brackets, flatten_brackets Sample.brackets _⟩

end Distfix
