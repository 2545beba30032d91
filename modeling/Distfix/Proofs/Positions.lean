import Distfix.Proofs.Reading
import Distfix.Proofs.Remembering

namespace Distfix

theorem Catalog.length_of_children_nil {c : Catalog} {ts : List Token} {skip : Nat} {p : Pending}
    {scope : Scope} {b : Body} (h : c.readBody ts skip p scope = .ok b) (hb : b.children = []) :
    b.length = 0 := by
  rw [readBody_drop] at h
  cases hd : ts.drop skip with
  | nil =>
    rw [hd] at h
    rw [(readBody_nil_ok h).2]
    rfl
  | cons t ts =>
    rw [hd] at h
    have hgrow {b' : Body} {operand : Operand} {width : Nat}
        (hg : (b'.grow operand width).children = []) :
        (b'.grow operand width).length = 0 := by
      unfold Body.grow at hg ⊢
      split at hg
      · rfl
      · cases hg
    obtain ⟨-, rfl⟩ | ⟨_, _, _, -, -, rfl⟩ | ⟨_, _, _, -, -, -, rfl⟩ | ⟨_, _, -, -, -, rfl⟩ :=
      readBody_cons_ok h
    · rfl
    · cases hb
    · exact hgrow hb
    · exact hgrow hb

namespace Gathered

variable {o : OperatorId × Definition} {leading : Token} {g : Gathered} {cursor : Nat}

/-- What becomes of the groups so far when the tokens from `cursor` on are read as `r` says. -/
def finish (g : Gathered) (o : OperatorId × Definition) (leading : Token) (cursor : Nat) :
    Reading → Except ParseError Found
  | .error e => .error ⟨cursor + e.length, .unexpectedEnd o.1 e.separator⟩
  | .ok ⟨[], _⟩ => .ok (g.start, g.toInstance o leading)
  | .ok ⟨child :: children, length⟩ =>
    .ok (cursor + length, ⟨o.1, o.2, leading, g.children.toList ++
      { child with operands := g.operands.toList ++ child.operands } :: children⟩)

theorem finish_close {r : Reading} (hr : ∀ b, r = .ok b → b.children = [] → b.length = 0)
    (index : Nat) (pending : Pending) (t : Token) :
    (g.close index pending t (cursor + 1)).finish o leading (cursor + 1) r =
      g.finish o leading cursor (r.close index t) := by
  match r with
  | .error e => simp only [finish, Reading.close, Nat.add_assoc, Nat.add_comm 1]
  | .ok ⟨[], length⟩ =>
    obtain rfl : length = 0 := hr _ rfl rfl
    simp [finish, Reading.close, Body.close, close, toInstance]
  | .ok ⟨⟨_, _, _⟩ :: _, length⟩ =>
    simp [finish, Reading.close, Body.close, close, Nat.add_assoc, Nat.add_comm 1]

theorem finish_push {r : Reading} (operand : Operand) (width : Nat) :
    (g.push operand).finish o leading (cursor + width) r =
      g.finish o leading cursor (r.grow operand width) := by
  match r with
  | .error e => simp only [finish, Reading.grow, Nat.add_assoc, Nat.add_comm width]
  | .ok ⟨[], length⟩ => rfl
  | .ok ⟨child :: children, length⟩ =>
    simp [finish, Reading.grow, Body.grow, push, Nat.add_assoc, Nat.add_comm width]

end Gathered

namespace Catalog

variable {c : Catalog}

def located (index : Nat) (o : OperatorId × Definition) :
    Except Shortfall (Instance × Nat) → Except ParseError Found
  | .ok (i, n) => .ok (index + 1 + n, i)
  | .error e => .error (.unfinished index (o, e))

theorem finish_initial {o : OperatorId × Definition} {t : Token} {index : Nat} {ts : List Token}
    {scope : Scope} :
    (Gathered.initial o.2 t (index + 1)).finish o t (index + 1)
        (c.readBody ts 0 (.initial o.2) scope) =
      located index o (c.attempt t ts scope o) := by
  rw [attempt]
  cases hr : c.readBody ts 0 (.initial o.2) scope with
  | error e => rfl
  | ok b =>
    obtain ⟨children, length⟩ := b
    cases children with
    | nil =>
      obtain rfl : length = 0 := length_of_children_nil hr rfl
      rfl
    | cons child children =>
      cases child
      rfl

/-- A search at `index` finds what is found in the tokens ahead, or fails for the same reasons and
some mismatches. -/
def FoundAt (index : Nat) (r : Except (List ParseError) Found) :
    Except (List ((OperatorId × Definition) × Shortfall)) (Instance × Nat) → Prop
  | .ok (i, n) => r = .ok (index + 1 + n, i)
  | .error failures => ∃ es, r = .error es ∧
      es.filter (!·.isMismatch) = failures.map (.unfinished index)

section

variable {index : Nat} {r : Except (List ParseError) Found} {o : OperatorId × Definition}
  {os : List (OperatorId × Definition)}
  {g : OperatorId × Definition → Except Shortfall (Instance × Nat)}

theorem FoundAt.mismatch
    {x : Except (List ((OperatorId × Definition) × Shortfall)) (Instance × Nat)}
    (h : FoundAt index r x) (op : OperatorId) :
    FoundAt index (r.mapError (⟨index, .leadingMismatch op⟩ :: ·)) x := by
  cases x with
  | ok found =>
    obtain rfl := h
    rfl
  | error failures =>
    obtain ⟨es, rfl, hfilter⟩ := h
    exact ⟨_, rfl, hfilter⟩

theorem FoundAt.unfinished (h : FoundAt index r (firstOk g os)) {e : Shortfall}
    (ho : g o = .error e) :
    FoundAt index (r.mapError (.unfinished index (o, e) :: ·)) (firstOk g (o :: os)) := by
  rw [firstOk, ho]
  cases hrest : firstOk g os with
  | ok found =>
    rw [hrest] at h
    obtain rfl := h
    rfl
  | error failures =>
    rw [hrest] at h
    obtain ⟨es, rfl, hfilter⟩ := h
    exact ⟨_, rfl, congrArg (ParseError.unfinished index (o, e) :: ·) hfilter⟩

theorem run_tryEach {f : OperatorId × Definition → Id (Except ParseError Found)}
    {p : OperatorId × Definition → Bool}
    (hf : ∀ o, (f o).run =
      if p o then located index o (g o) else .error ⟨index, .leadingMismatch o.1⟩) :
    FoundAt index (Matcher.tryEach f os).run (firstOk g (os.filter p)) := by
  induction os with
  | nil => exact ⟨[], rfl, rfl⟩
  | cons o os ih =>
    rw [Matcher.tryEach_cons_run, hf, List.filter_cons]
    cases p o with
    | false => exact ih.mismatch o.1
    | true =>
      cases ho : g o with
      | ok found =>
        simp only [if_true, firstOk, ho]
        rfl
      | error e => exact ih.unfinished ho

end

/-- Reads one operator at `index` of the tokens ahead. -/
def matchAhead (c : Catalog) (tokens : List Token) (index : Nat) (o : OperatorId × Definition)
    (scope : Scope) : Except ParseError Found :=
  match tokens.drop index with
  | [] => .error ⟨index, .leadingMismatch o.1⟩
  | t :: ts =>
    if o.2.leading.accepts t.text then located index o (c.attempt t ts scope o)
    else .error ⟨index, .leadingMismatch o.1⟩

section

variable {tokens : Array Token} {cursor index : Nat} {scope : Scope}

theorem drop_of_lt (h : cursor < tokens.size) :
    tokens.toList.drop cursor = tokens[cursor] :: tokens.toList.drop (cursor + 1) :=
  List.drop_eq_getElem_cons (by simpa using h)

theorem drop_of_not_lt (h : ¬ cursor < tokens.size) : tokens.toList.drop cursor = [] :=
  List.drop_eq_nil_of_le (by simpa using h)

theorem matchAhead_of_lt (h : index < tokens.size) (o : OperatorId × Definition) :
    c.matchAhead tokens.toList index o scope =
      if o.2.leading.accepts tokens[index].text then
        located index o (c.attempt tokens[index] (tokens.toList.drop (index + 1)) scope o)
      else .error ⟨index, .leadingMismatch o.1⟩ := by
  rw [matchAhead, drop_of_lt h]

theorem attemptAfresh_of_groups (h : index < tokens.size) (o : OperatorId × Definition)
    (hread : c.groupsAfresh tokens o tokens[index] scope (.initial o.2 tokens[index] (index + 1))
        (index + 1) =
      (Gathered.initial o.2 tokens[index] (index + 1)).finish o tokens[index] (index + 1)
        (c.readBody (tokens.toList.drop (index + 1)) 0 (.initial o.2) scope)) :
    c.attemptAfresh tokens index scope o = c.matchAhead tokens.toList index o scope := by
  rw [finish_initial] at hread
  rw [matchAhead_of_lt h, attemptAfresh, Matcher.matchIn, Matcher.openAt,
    Array.getElem?_eq_getElem h]
  dsimp only
  split
  · exact hread
  · rfl

theorem firstAfresh_of_attempts (h : index < tokens.size)
    (hattempt : ∀ o, c.attemptAfresh tokens index scope o =
      c.matchAhead tokens.toList index o scope) :
    FoundAt index (c.firstAfresh tokens index scope)
      (c.firstMatch tokens[index] (tokens.toList.drop (index + 1)) scope) :=
  run_tryEach fun o => (hattempt o).trans (matchAhead_of_lt h o)

theorem run_readGroups_of_ok {o : OperatorId × Definition} {leading : Token} {g : Gathered}
    (hs : ¬ g.pending.slots.isEmpty = true) (h : cursor < tokens.size)
    (hc : g.pending.close tokens[cursor].text = none) {next : Nat} {i : Instance}
    (hm : c.firstAfresh tokens cursor (c.derive g.pending.region scope) = .ok (next, i))
    (hnext : ¬ next ≤ cursor) :
    (Matcher.readGroups c c.searchAfresh tokens o leading scope g cursor).run =
      c.groupsAfresh tokens o leading scope (g.push (.operator i)) next := by
  have hpure : Matcher.firstMatch c c.searchAfresh tokens cursor (c.derive g.pending.region scope) =
    pure (.ok (next, i)) := hm
  rw [Matcher.readGroups_of_open hs h hc, hpure, pure_bind]
  dsimp only
  rw [if_neg hnext]
  rfl

theorem run_readGroups_of_error {o : OperatorId × Definition} {leading : Token} {g : Gathered}
    (hs : ¬ g.pending.slots.isEmpty = true) (h : cursor < tokens.size)
    (hc : g.pending.close tokens[cursor].text = none) {es : List ParseError}
    (hm : c.firstAfresh tokens cursor (c.derive g.pending.region scope) = .error es) :
    (Matcher.readGroups c c.searchAfresh tokens o leading scope g cursor).run =
      c.groupsAfresh tokens o leading scope (g.push (.token tokens[cursor])) (cursor + 1) := by
  have hpure : Matcher.firstMatch c c.searchAfresh tokens cursor (c.derive g.pending.region scope) =
    pure (.error es) := hm
  rw [Matcher.readGroups_of_open hs h hc, hpure, pure_bind]
  rfl

/-- The groups of an operator are those that are read of the tokens ahead. -/
theorem groupsAfresh_eq (o : OperatorId × Definition) (leading : Token) (scope : Scope)
    (g : Gathered) (cursor : Nat) (hg : g.pending.slots.isEmpty = true → g.start = cursor) :
    c.groupsAfresh tokens o leading scope g cursor =
      g.finish o leading cursor (c.readBody (tokens.toList.drop cursor) 0 g.pending scope) := by
  unfold groupsAfresh
  -- with no separator open no operand waits for a keyword, and so the two stop at the same place
  induction o, leading, scope, g, cursor using Matcher.readGroups.induct c tokens with
  | case1 o leading scope g cursor hs =>
    rw [Matcher.readGroups_of_isEmpty hs, readBody_of_slots_nil (List.isEmpty_iff.mp hs), ← hg hs]
    rfl
  | case2 o leading scope g cursor hs h t i pending hc ih =>
    rw [Matcher.readGroups_of_close hs h hc, drop_of_lt h, readBody_cons, if_neg hs, hc]
    dsimp only
    rw [← Gathered.finish_close fun b => length_of_children_nil]
    exact ih fun _ => rfl
  | case3 o leading scope g cursor hs h t hc region ihnested ihnext ihtoken =>
    have hfirst := firstAfresh_of_attempts h fun o =>
      attemptAfresh_of_groups h o (ihnested o t fun _ => rfl)
    rw [drop_of_lt h, readBody_cons, if_neg hs, hc]
    dsimp only
    cases hm : c.firstMatch tokens[cursor] (tokens.toList.drop (cursor + 1)) region with
    | ok found =>
      obtain ⟨i, n⟩ := found
      have hwidth : cursor + 1 + n = cursor + (n + 1) := by omega
      have hnext : ¬ cursor + (n + 1) ≤ cursor := by omega
      rw [hm, FoundAt, hwidth] at hfirst
      rw [run_readGroups_of_ok hs h hc hfirst hnext]
      dsimp only
      rw [readBody_drop, List.drop_drop, hwidth, ← Gathered.finish_push]
      exact ihnext _ i hnext fun he => absurd he hs
    | error failures =>
      rw [hm] at hfirst
      obtain ⟨es, hes, -⟩ := hfirst
      rw [run_readGroups_of_error hs h hc hes]
      dsimp only
      rw [← Gathered.finish_push]
      exact ihtoken fun he => absurd he hs
  | case4 o leading scope g cursor hs h separator hr =>
    rw [Matcher.readGroups_of_end hs h, drop_of_not_lt h, readBody, hr]
    rfl
  | case5 o leading scope g cursor hs h hr =>
    rw [Matcher.readGroups_of_end hs h, drop_of_not_lt h, readBody, hr]
    rfl

theorem attemptAfresh_eq (h : index < tokens.size) (o : OperatorId × Definition) :
    c.attemptAfresh tokens index scope o = c.matchAhead tokens.toList index o scope :=
  attemptAfresh_of_groups h o (groupsAfresh_eq o tokens[index] scope _ _ fun _ => rfl)

variable (c scope) in
theorem firstAfresh_eq (h : index < tokens.size) :
    FoundAt index (c.firstAfresh tokens index scope)
      (c.firstMatch tokens[index] (tokens.toList.drop (index + 1)) scope) :=
  firstAfresh_of_attempts h fun o => attemptAfresh_eq h o

end

variable (c) (tokens : List Token) (index : Nat)

def flattenAhead (scope : Scope) : Outcome (List Operand) :=
  c.flattenItems scope (tokens.drop index) 0 index

theorem matchOperator_eq_matchAhead (o : OperatorId × Definition) (scope : Scope) :
    c.matchOperator tokens index o scope = c.matchAhead tokens index o scope := by
  rw [matchOperator_eq_matchAfresh, matchAfresh]
  by_cases h : index < tokens.toArray.size
  · exact attemptAfresh_eq h o
  · have hd : tokens.drop index = [] := drop_of_not_lt h
    have hnone : tokens.toArray[index]? = none := Array.getElem?_eq_none (Nat.le_of_not_lt h)
    rw [matchAhead, hd, attemptAfresh, Matcher.matchIn, Matcher.openAt, hnone]
    rfl

theorem matchOperator_ok {o : OperatorId × Definition} {scope : Scope} {next : Nat} {i : Instance}
    (h : c.matchOperator tokens index o scope = .ok (next, i)) :
    ∃ t ts n, tokens.drop index = t :: ts ∧ o.2.leading.accepts t.text = true ∧
      c.attempt t ts scope o = .ok (i, n) ∧ next = index + 1 + n := by
  rw [matchOperator_eq_matchAhead, matchAhead] at h
  cases hd : tokens.drop index with
  | nil => simp [hd] at h
  | cons t ts =>
    simp only [hd] at h
    split at h
    · rename_i ha
      cases hr : c.attempt t ts scope o with
      | error e => simp [hr, located] at h
      | ok found =>
        simp only [hr, located, Except.ok.injEq, Prod.mk.injEq] at h
        obtain ⟨rfl, rfl⟩ := h
        exact ⟨t, ts, found.2, rfl, ha, hr, rfl⟩
    · cases h

section

variable {t : Token} {ts : List Token} (hd : tokens.drop index = t :: ts)
  {o : OperatorId × Definition} {scope : Scope}
include hd

theorem matchOperator_of_accepts (ho : o.2.leading.accepts t.text = true) :
    c.matchOperator tokens index o scope = located index o (c.attempt t ts scope o) := by
  rw [matchOperator_eq_matchAhead, matchAhead]
  simp [hd, ho]

theorem matchOperator_of_attempt (ho : o.2.leading.accepts t.text = true) {i : Instance} {n : Nat}
    (h : c.attempt t ts scope o = .ok (i, n)) :
    c.matchOperator tokens index o scope = .ok (index + 1 + n, i) := by
  rw [matchOperator_of_accepts c tokens index hd ho, h, located]

theorem matchOperator_error
    (h : o.2.leading.accepts t.text = true → ∃ e, c.attempt t ts scope o = .error e) :
    ∃ e, c.matchOperator tokens index o scope = .error e := by
  by_cases ho : o.2.leading.accepts t.text = true
  · obtain ⟨e, he⟩ := h ho
    rw [matchOperator_of_accepts c tokens index hd ho, he, located]
    exact ⟨_, rfl⟩
  · rw [matchOperator_eq_matchAhead, matchAhead]
    simp [hd, ho]

end

theorem flattenFrom_eq_flattenItems (tokens : Array Token) (scope : Scope) (cursor : Nat)
    (s : Unit) :
    Matcher.flattenFrom (fun cursor s => (c.firstAfresh tokens cursor scope, s))
        (fun cursor _ => c.endsBehind_firstAfresh tokens cursor scope) tokens cursor s =
      c.flattenItems scope (tokens.toList.drop cursor) 0 cursor := by
  induction cursor, s using Matcher.flattenFrom.induct
      (fun cursor s => (c.firstAfresh tokens cursor scope, s))
      (fun cursor _ => c.endsBehind_firstAfresh tokens cursor scope) tokens with
  | case1 cursor s h next i s' hrun ih =>
    have hm := (Prod.mk.inj hrun).1
    have hfirst := c.firstAfresh_eq scope h
    rw [Matcher.flattenFrom_of_ok h hrun, drop_of_lt h, flattenItems]
    cases hahead : c.firstMatch tokens[cursor] (tokens.toList.drop (cursor + 1)) scope with
    | ok found =>
      rw [hahead] at hfirst
      obtain ⟨rfl, rfl⟩ := Prod.mk.inj (Except.ok.inj (hfirst.symm.trans hm))
      dsimp only
      rw [flattenItems_drop _ _ _ found.2, List.drop_drop, ih]
    | error failures =>
      rw [hahead] at hfirst
      obtain ⟨es, hes, -⟩ := hfirst
      cases hes.symm.trans hm
  | case2 cursor s h es s' hrun ih =>
    have hm := (Prod.mk.inj hrun).1
    have hfirst := c.firstAfresh_eq scope h
    rw [Matcher.flattenFrom_of_error h hrun, drop_of_lt h, flattenItems]
    cases hahead : c.firstMatch tokens[cursor] (tokens.toList.drop (cursor + 1)) scope with
    | ok found =>
      rw [hahead] at hfirst
      cases hfirst.symm.trans hm
    | error failures =>
      rw [hahead] at hfirst
      obtain ⟨es', hes, hfilter⟩ := hfirst
      obtain rfl := Except.error.inj (hes.symm.trans hm)
      dsimp only
      rw [ih, hfilter]
  | case3 cursor s h =>
    rw [Matcher.flattenFrom_of_end h, drop_of_not_lt h, flattenItems]

theorem flatten_eq_flattenAhead (scope : Scope) :
    c.flatten tokens index scope = c.flattenAhead tokens index scope := by
  rw [flatten_eq_flattenAfresh]
  exact c.flattenFrom_eq_flattenItems tokens.toArray scope index ()

end Catalog

end Distfix
