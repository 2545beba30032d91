import Distfix.Matching.Match

namespace Distfix

namespace Memo

open Matcher

variable (c : Catalog) (tokens : Array Token)

/-- Looks for the operators of the scope in their order, and remembers those that fail. -/
def search : Search (StateM Memo) := fun index scope attempt => do
  let number ← intern scope
  tryEach (fun o => remember index number o.1 (attempt o)) (c.operators scope)

def firstMatch (index : Nat) (scope : Scope) : StateM Memo (Except (List ParseError) Found) :=
  Matcher.firstMatch c (search c) tokens index scope

/-- Whatever the memo, the computation answers as `P` says. -/
def Ensures {α : Type} (x : StateM Memo α) (P : α → Prop) : Prop := ∀ m, P (x m).1

variable {c tokens} {α β ε : Type} {P : α → Prop} {Q : β → Prop} {index : Nat}

theorem Ensures.pure {a : α} (h : P a) : Ensures (Pure.pure a) P := fun _ => h

theorem Ensures.bind {x : StateM Memo α} {f : α → StateM Memo β} (hx : Ensures x P)
    (hf : ∀ a, P a → Ensures (f a) Q) : Ensures (x >>= f) Q := fun m => hf _ (hx m) (x m).2

theorem Ensures.next {x : StateM Memo α} {f : α → StateM Memo β} (hf : ∀ a, Ensures (f a) Q) :
    Ensures (x >>= f) Q := fun m => hf _ (x m).2

theorem ensures_remember {number : Nat} {op : OperatorId}
    {x : StateM Memo (Except ParseError Found)} (h : Ensures x (EndsBehind index)) :
    Ensures (remember index number op x) (EndsBehind index) := by
  intro m
  have hx := h m
  unfold remember
  split
  · exact endsBehind_error _ _
  · split
    · rename_i hrun
      rwa [hrun] at hx
    · exact endsBehind_error _ _

theorem ensures_tryEach {f : α → StateM Memo (Except ε Found)}
    (h : ∀ a, Ensures (f a) (EndsBehind index)) (as : List α) :
    Ensures (tryEach f as) (EndsBehind index) := by
  induction as with
  | nil => exact .pure (endsBehind_error _ _)
  | cons a as ih =>
    refine (h a).bind fun r hr => ?_
    cases r with
    | ok found => exact .pure fun next i hfound => hr next i (by rw [Except.ok.inj hfound])
    | error e =>
      refine ih.bind fun rest hrest => .pure fun next i hfound => ?_
      cases rest with
      | ok found => exact hrest next i hfound
      | error es => cases hfound

theorem ensures_openAt {i : Nat} {o : OperatorId × Definition}
    {read : Token → StateM Memo (Except ParseError Found)}
    (h : ∀ t, Ensures (read t) (EndsBehind index)) :
    Ensures (openAt tokens i o read) (EndsBehind index) := by
  unfold openAt
  split
  · split
    · exact h _
    · exact .pure (endsBehind_error _ _)
  · exact .pure (endsBehind_error _ _)

theorem ensures_readGroups {o : OperatorId × Definition} {leading : Token} {scope : Scope}
    {g : Gathered} {cursor : Nat} (hstart : index < g.start) (hcursor : index < cursor) :
    Ensures (readGroups c (search c) tokens o leading scope g cursor) (EndsBehind index) := by
  induction o, leading, scope, g, cursor using readGroups.induct c tokens with
  | case1 o leading scope g cursor hs =>
    rw [readGroups_of_isEmpty hs]
    exact .pure (endsBehind_ok hcursor)
  | case2 o leading scope g cursor hs h t i pending hc ih =>
    rw [readGroups_of_close hs h hc]
    exact ih (Nat.lt_succ_of_lt hcursor) (Nat.lt_succ_of_lt hcursor)
  | case3 o leading scope g cursor hs h t hc region _ ihnext ihtoken =>
    rw [readGroups_of_open hs h hc]
    refine .next fun r => ?_
    cases r with
    | error es => exact ihtoken hstart (Nat.lt_succ_of_lt hcursor)
    | ok found =>
      dsimp only
      split
      · exact .pure (endsBehind_error _ _)
      · rename_i hnext
        exact ihnext found.1 found.2 hnext hstart (Nat.lt_trans hcursor (Nat.lt_of_not_le hnext))
  | case4 o leading scope g cursor hs h separator hr =>
    rw [readGroups_of_end hs h, hr]
    exact .pure (endsBehind_error _ _)
  | case5 o leading scope g cursor hs h hr =>
    rw [readGroups_of_end hs h, hr]
    exact .pure (endsBehind_ok hstart)

theorem ensures_firstMatch (index : Nat) (scope : Scope) :
    Ensures (firstMatch c tokens index scope) (EndsBehind index) := by
  refine .next fun number => ensures_tryEach (fun o => ensures_remember ?_) _
  exact ensures_openAt fun t => ensures_readGroups (Nat.lt_succ_self _) (Nat.lt_succ_self _)

end Memo

end Distfix
