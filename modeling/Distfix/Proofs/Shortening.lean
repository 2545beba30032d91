import Distfix.Proofs.Powers

namespace Distfix

namespace SyntaxTree

/-- The expression, its left operand, the left operand of that, and so on. -/
def leftSpine : SyntaxTree → List SyntaxTree
  | leaf item => [leaf item]
  | before item rhs => [before item rhs]
  | after item lhs => after item lhs :: lhs.leftSpine
  | between item lhs rhs => between item lhs rhs :: lhs.leftSpine

variable {t u v : SyntaxTree}

theorem mem_leftSpine_self (t : SyntaxTree) : t ∈ t.leftSpine := by
  cases t <;> exact List.mem_cons_self

theorem mem_leftSpine_of_lhs? (h : u.lhs? = some t) : t ∈ u.leftSpine := by
  cases u with
  | leaf item | before item rhs => cases h
  | after item lhs | between item lhs rhs =>
    obtain rfl := Option.some.inj h
    exact List.mem_cons_of_mem _ lhs.mem_leftSpine_self

theorem mem_leftSpine_trans (h : t ∈ u.leftSpine) (hu : u ∈ v.leftSpine) : t ∈ v.leftSpine := by
  induction v with
  | leaf item | before item rhs ih =>
    obtain rfl := List.mem_singleton.mp hu
    exact h
  | after item lhs ih | between item lhs rhs ih ihr =>
    obtain rfl | hu := List.mem_cons.mp hu
    · exact h
    · exact List.mem_cons_of_mem _ (ih hu)

def CutFrom (min min' : Nat) (t u : SyntaxTree) : Prop :=
  u.lhs? = some t ∧ ∃ left, u.item.fixity.left? = some left ∧ min < left ∧ left ≤ min'

end SyntaxTree

namespace Resolution

open SyntaxTree

/-- The resolution is the beginning of the other one, up to the first operator that is above `min`,
but not above `min'`. -/
structure BeginningOf (min min' : Nat) (r r' : Resolution) : Prop where
  length_le : r.length ≤ r'.length
  errors_prefix : r.errors <+: r'.errors
  cut : r = r' ∨ ∃ u ∈ r'.tree.leftSpine, r.tree.CutFrom min min' u

namespace BeginningOf

variable {min min' : Nat} {r r' : Resolution}

theorem refl (min min' : Nat) (r : Resolution) : r.BeginningOf min min' r :=
  ⟨Nat.le_refl _, List.prefix_rfl, .inl rfl⟩

theorem tree_mem (h : r.BeginningOf min min' r') : r.tree ∈ r'.tree.leftSpine := by
  obtain rfl | ⟨u, hu, hlhs, -⟩ := h.cut
  · exact r.tree.mem_leftSpine_self
  · exact mem_leftSpine_trans (mem_leftSpine_of_lhs? hlhs) hu

theorem further (h : r.BeginningOf min min' r') : r.further.BeginningOf min min' r'.further :=
  ⟨Nat.succ_le_succ h.length_le, h.errors_prefix, h.cut.imp_left (congrArg _)⟩

theorem after (h : r.BeginningOf min min' r') (errors : List ParseError) :
    (r.after errors).BeginningOf min min' (r'.after errors) :=
  ⟨h.length_le, (List.prefix_append_right_inj errors).mpr h.errors_prefix,
    h.cut.imp_left (congrArg (Resolution.after · errors))⟩

theorem skipped (h : r.BeginningOf min min' r') :
    (if r.length = 0 then r else r.further).BeginningOf min min'
      (if r'.length = 0 then r' else r'.further) := by
  have hle := h.length_le
  split <;> split
  · exact h
  · rename_i hr hr'
    have hne : r ≠ r' := by
      rintro rfl
      exact hr' hr
    exact ⟨Nat.le_succ_of_le hle, h.errors_prefix, .inr (h.cut.resolve_left hne)⟩
  · omega
  · exact h.further

/-- An operator that is not above the smaller minimum is not above the larger one, so that the
shorter resolution stops first, with the left operand of the operator. -/
theorem guarded {lhs u : SyntaxTree} {left : Nat} (h : r.BeginningOf min min' r')
    (hmin : min ≤ min') (hu : u ∈ r'.tree.leftSpine) (hlhs : u.lhs? = some lhs)
    (hleft : u.item.fixity.left? = some left) :
    (if left ≤ min' then ⟨lhs, 0, []⟩ else r).BeginningOf min min'
      (if left ≤ min then ⟨lhs, 0, []⟩ else r') := by
  by_cases hl : left ≤ min
  · rw [if_pos hl, if_pos (Nat.le_trans hl hmin)]
    exact .refl _ _ _
  · rw [if_neg hl]
    split
    · rename_i hl'
      have hcut : lhs.CutFrom min min' u := ⟨hlhs, left, hleft, Nat.lt_of_not_le hl, hl'⟩
      exact ⟨Nat.zero_le _, List.nil_prefix, .inr ⟨u, hu, hcut⟩⟩
    · exact h

end BeginningOf

variable (ends : Nat) {min min' : Nat}

theorem mem_leftSpine_extension (lhs : SyntaxTree) (items : List Operand) (skip i min : Nat)
    (stop : Bool) : lhs ∈ (extension ends lhs items skip i min stop).tree.leftSpine := by
  induction items generalizing lhs skip i stop with
  | nil =>
    rw [extension]
    exact lhs.mem_leftSpine_self
  | cons o items ih =>
    cases skip with
    | succ skip =>
      rw [extension]
      exact ih lhs skip (i + 1) stop
    | zero =>
      cases o with
      | token t =>
        rw [extension]
        split
        · dsimp only
          split <;> exact ih lhs 0 (i + 1) stop
        · exact lhs.mem_leftSpine_self
      | operator o =>
        rw [extension]
        cases o.definition.fixity with
        | closed | before right => exact lhs.mem_leftSpine_self
        | after left =>
          dsimp only
          split
          · exact lhs.mem_leftSpine_self
          · exact mem_leftSpine_trans (mem_leftSpine_of_lhs? rfl) (ih _ 0 (i + 1) stop)
        | between left right =>
          dsimp only
          split
          · exact lhs.mem_leftSpine_self
          · exact mem_leftSpine_trans (mem_leftSpine_of_lhs? rfl) (ih _ _ (i + 1) _)

/-- The minimum decides only where an expression ends. How it is extended up to there does not
depend on it, since right operands have minima of their own. -/
theorem extension_beginningOf (hmin : min ≤ min') (lhs : SyntaxTree) (items : List Operand)
    (skip i : Nat) (stop : Bool) :
    (extension ends lhs items skip i min' stop).BeginningOf min min'
      (extension ends lhs items skip i min stop) := by
  induction items generalizing lhs skip i stop with
  | nil =>
    rw [extension, extension]
    exact .refl _ _ _
  | cons o items ih =>
    cases skip with
    | succ skip =>
      rw [extension, extension]
      exact (ih lhs skip (i + 1) stop).further
    | zero =>
      cases o with
      | token t =>
        rw [extension, extension]
        split
        · exact (ih lhs 0 (i + 1) stop).skipped
        · exact .refl _ _ _
      | operator o =>
        have hspine (u skip stop) := mem_leftSpine_extension ends u items skip (i + 1) min stop
        rw [extension, extension]
        cases hf : o.definition.fixity with
        | closed | before right => exact .refl _ _ _
        | after left =>
          have hu := hspine (.after (.operator o) lhs) 0 stop
          refine (ih _ 0 (i + 1) stop).further.guarded hmin hu rfl ?_
          simp [SyntaxTree.item, Operand.fixity, hf, Fixity.left?]
        | between left right =>
          have hu (rhs) := hspine (.between (.operator o) lhs rhs)
          refine ((ih _ _ (i + 1) _).after _).further.guarded hmin (hu _ _ _) rfl ?_
          simp [SyntaxTree.item, Operand.fixity, hf, Fixity.left?]

theorem expression_beginningOf (hmin : min ≤ min') (items : List Operand) (i : Nat)
    (stop : Bool) :
    (expression ends items i min' stop).BeginningOf min min'
      (expression ends items i min stop) := by
  induction items generalizing i with
  | nil =>
    rw [expression, expression]
    exact .refl _ _ _
  | cons o items ih =>
    cases o with
    | token t =>
      rw [expression, expression]
      split
      · exact (ih (i + 1)).further
      · exact (extension_beginningOf ends hmin _ items 0 (i + 1) stop).further
    | operator o =>
      -- the head is read before the minimum is looked at
      rw [expression, expression]
      cases o.definition.fixity with
      | closed => exact (extension_beginningOf ends hmin _ items 0 (i + 1) stop).further
      | after left =>
        exact ((extension_beginningOf ends hmin _ items 0 (i + 1) stop).after _).further
      | before right | between left right =>
        exact ((extension_beginningOf ends hmin _ items _ (i + 1) _).after _).further

end Resolution

/-- Raising the minimum only cuts an expression short. It ends at an operand on the left spine, with
the faults met so far, and it does so only before an operator between the two minima. -/
theorem resolve_cut_short {min min' : Nat} (hmin : min ≤ min') (items : List Operand) (index : Nat)
    (keepNewline : Bool) :
    let short := resolve items index min' keepNewline
    let long := resolve items index min keepNewline
    short.value ∈ long.value.leftSpine ∧ short.next ≤ long.next ∧ short.errors <+: long.errors ∧
      (short = long ∨ ∃ u ∈ long.value.leftSpine, short.value.CutFrom min min' u) := by
  have h := Resolution.expression_beginningOf (endOffset items) hmin (items.drop index) index
    keepNewline
  refine ⟨h.tree_mem, Nat.add_le_add_left h.length_le index, h.errors_prefix, h.cut.imp_left ?_⟩
  intro heq
  rw [resolve, resolve, heq]

/-- A sum without its first operand, and an assignment of it without its second one. -/
def Sample.incomplete : List Operand :=
  [plus, letter "x", percent, .operator assign, .token ⟨.newline, "\n", ⟨0, 0⟩⟩]

theorem resolve_cut_short_incomplete :
    let short := resolve Sample.incomplete 0 9 false
    let long := resolve Sample.incomplete 0 0 false
    0 ≤ 9 ∧ short.value.render = "(+ _ (% x))" ∧ long.value.render = "(= (+ _ (% x)) _)" ∧
      short.next = 3 ∧ long.next = 5 ∧ short.errors = [⟨0, .invalidLeadingOperator "+"⟩] ∧
      long.errors = [⟨0, .invalidLeadingOperator "+"⟩, ⟨5, .valueExpected⟩] ∧
      short.value ∈ long.value.leftSpine ∧ short.next ≤ long.next ∧ short.errors <+: long.errors ∧
      (short = long ∨ ∃ u ∈ long.value.leftSpine, short.value.CutFrom 0 9 u) := by
  intro short long
  have hmin : 0 ≤ 9 := by decide
  exact ⟨hmin, by decide, by decide, rfl, rfl, rfl, rfl, resolve_cut_short hmin _ 0 false⟩

end Distfix
