import Distfix.Resolution

namespace Distfix

/-- The items that are not blank. -/
def Operand.solid (items : List Operand) : List Operand := items.filter (!·.isBlank)

/-- The items that are not placeholders. -/
def Operand.present (items : List Operand) : List Operand := items.filter (!·.isSynthetic)

namespace Operand

theorem solid_append (xs ys : List Operand) : solid (xs ++ ys) = solid xs ++ solid ys :=
  List.filter_append ..

theorem solid_cons (o : Operand) (os : List Operand) :
    solid (o :: os) = if o.isBlank then solid os else o :: solid os := by
  cases h : o.isBlank <;> simp [solid, h]

theorem present_append (xs ys : List Operand) : present (xs ++ ys) = present xs ++ present ys :=
  List.filter_append ..

theorem present_cons {o : Operand} (h : o.isSynthetic = false) (os : List Operand) :
    present (o :: os) = o :: present os := by
  simp [present, h]

theorem present_missing (offset : Nat) : present (SyntaxTree.missing offset).items = [] := by
  simp [present, SyntaxTree.missing, SyntaxTree.items, isSynthetic, Token.isSynthetic_missing]

theorem isSkipped_false (o : Operand) : o.isSkipped false = o.isBlank := by
  cases o <;> simp [isSkipped, isBlank, Token.isBlank]

theorem isBlank_of_isSkipped {o : Operand} {stop : Bool} (h : o.isSkipped stop = true) :
    o.isBlank = true := by
  cases o with
  | operator i => cases h
  | token t =>
    simp only [isSkipped, isBlank, Token.isBlank, Bool.or_eq_true, Bool.and_eq_true] at h ⊢
    exact h.imp_right And.left

end Operand

namespace Resolution

open Operand

/-- The tree is made of `pre` and of the items that it takes, without the blank ones. -/
structure Uses (r : Resolution) (pre items : List Operand) : Prop where
  bound : r.length ≤ items.length
  items_eq : present r.tree.items = pre ++ solid (items.take r.length)

theorem Uses.further {r : Resolution} {pre items : List Operand} {o : Operand}
    (h : r.Uses (pre ++ solid [o]) items) : r.further.Uses pre (o :: items) := by
  refine ⟨Nat.succ_le_succ h.bound, h.items_eq.trans ?_⟩
  rw [List.append_assoc, ← solid_append]
  rfl

theorem Uses.after {r : Resolution} {pre items : List Operand} (h : r.Uses pre items)
    (errors : List ParseError) : (r.after errors).Uses pre items :=
  ⟨h.bound, h.items_eq⟩

variable (ends : Nat)

def ExpressionUses (items : List Operand) : Prop :=
  ∀ i min stop, (expression ends items i min stop).Uses [] items

def ExtensionUses (items : List Operand) : Prop :=
  ∀ lhs skip i min stop pre, skip ≤ items.length →
    present lhs.items = pre ++ solid (items.take skip) →
    (extension ends lhs items skip i min stop).Uses pre items

variable {ends} {items : List Operand}

theorem ExtensionUses.further_after (h : ExtensionUses ends items) {lhs : SyntaxTree} {o : Operand}
    {skip i min : Nat} {stop : Bool} {pre : List Operand} (hs : skip ≤ items.length)
    (hl : present lhs.items = pre ++ solid (o :: items.take skip)) (errors : List ParseError) :
    (((extension ends lhs items skip i min stop).after errors).further).Uses pre (o :: items) := by
  apply Uses.further
  apply Uses.after
  apply h lhs skip i min stop _ hs
  rw [hl, List.append_assoc, ← solid_append]
  rfl

theorem ExtensionUses.further (h : ExtensionUses ends items) {lhs : SyntaxTree} {o : Operand}
    {skip i min : Nat} {stop : Bool} {pre : List Operand} (hs : skip ≤ items.length)
    (hl : present lhs.items = pre ++ solid (o :: items.take skip)) :
    ((extension ends lhs items skip i min stop).further).Uses pre (o :: items) :=
  h.further_after hs hl []

theorem present_operator (i : Instance) (os : List Operand) :
    present (.operator i :: os) = .operator i :: present os := rfl

theorem expressionUses_operator (he : ExpressionUses ends items) (hx : ExtensionUses ends items)
    (o : Instance) : ExpressionUses ends (.operator o :: items) := by
  intro i min stop
  rw [expression]
  cases o.definition.fixity with
  | closed => exact hx.further (Nat.zero_le _) rfl
  | after left =>
    refine hx.further_after (Nat.zero_le _) ?_ _
    rw [SyntaxTree.items, present_append, present_missing]
    rfl
  | before right =>
    dsimp only
    obtain ⟨hb, hi⟩ := he (i + 1) right (stop || o.definition.keepsNewline)
    refine hx.further_after hb ?_ _
    rw [SyntaxTree.items, present_operator, hi]
    rfl
  | between left right =>
    dsimp only
    obtain ⟨hb, hi⟩ := he (i + 1) right (stop || o.definition.keepsNewline)
    refine hx.further_after hb ?_ _
    rw [SyntaxTree.items, present_append, present_missing, present_operator, hi]
    rfl

theorem extensionUses_operator (he : ExpressionUses ends items) (hx : ExtensionUses ends items)
    (o : Instance) : ExtensionUses ends (.operator o :: items) := by
  intro lhs skip i min stop pre hs hl
  cases skip with
  | succ skip =>
    rw [extension]
    exact hx.further (Nat.le_of_succ_le_succ hs) hl
  | zero =>
    rw [List.take_zero] at hl
    have hend : Uses ⟨lhs, 0, []⟩ pre (.operator o :: items) := ⟨Nat.zero_le _, hl⟩
    rw [extension]
    cases o.definition.fixity with
    | closed => exact hend
    | before right => exact hend
    | after left =>
      dsimp only
      split
      · exact hend
      · apply hx.further (Nat.zero_le _)
        rw [SyntaxTree.items, present_append, hl, List.append_assoc]
        rfl
    | between left right =>
      dsimp only
      split
      · exact hend
      · obtain ⟨hb, hi⟩ := he (i + 1) right (stop || o.definition.keepsNewline)
        refine hx.further_after hb ?_ _
        rw [SyntaxTree.items, present_append, hl, present_operator, hi, List.append_assoc]
        rfl

theorem expressionUses_token (he : ExpressionUses ends items) (hx : ExtensionUses ends items)
    {t : Token} (ht : (Operand.token t).isSynthetic = false) :
    ExpressionUses ends (.token t :: items) := by
  intro i min stop
  rw [expression]
  cases hb : t.isBlank with
  | true =>
    apply Uses.further
    rw [solid_cons, Operand.isBlank, hb]
    exact he (i + 1) min stop
  | false =>
    apply hx.further (Nat.zero_le _)
    rw [SyntaxTree.items, present_cons ht, List.take_zero, solid_cons, Operand.isBlank, hb]
    rfl

theorem extensionUses_token (hx : ExtensionUses ends items) (t : Token) :
    ExtensionUses ends (.token t :: items) := by
  intro lhs skip i min stop pre hs hl
  cases skip with
  | succ skip =>
    rw [extension]
    exact hx.further (Nat.le_of_succ_le_succ hs) hl
  | zero =>
    rw [extension]
    split
    · rename_i hskip
      have hr := hx lhs 0 (i + 1) min stop pre (Nat.zero_le _) hl
      dsimp only
      split
      · rename_i hz
        have hi := hr.items_eq
        rw [hz] at hi
        refine ⟨Nat.le_trans (Nat.le_of_eq hz) (Nat.zero_le _), ?_⟩
        rw [hz]
        exact hi
      · apply Uses.further
        rw [solid_cons, isBlank_of_isSkipped hskip]
        simpa [solid] using hr
    · exact ⟨Nat.zero_le _, hl⟩

/-- An expression uses each of the items that it takes once and in order, but for the blank ones. -/
theorem expression_uses (ends : Nat) (hs : ∀ o ∈ items, o.isSynthetic = false) :
    ExpressionUses ends items := by
  suffices ExpressionUses ends items ∧ ExtensionUses ends items from this.1
  induction items with
  | nil =>
    refine ⟨fun i min stop => ⟨Nat.zero_le _, present_missing ends⟩, ?_⟩
    intro lhs skip i min stop pre h hl
    obtain rfl : skip = 0 := Nat.le_zero.mp h
    exact ⟨Nat.zero_le _, hl⟩
  | cons o items ih =>
    obtain ⟨he, hx⟩ := ih fun o' ho' => hs o' (by simp [ho'])
    cases o with
    | token t => exact ⟨expressionUses_token he hx (hs _ (by simp)), extensionUses_token hx t⟩
    | operator i => exact ⟨expressionUses_operator he hx i, extensionUses_operator he hx i⟩

theorem expression_length_pos (ends : Nat) (o : Operand) (items : List Operand) (i min : Nat)
    (stop : Bool) : 0 < (expression ends (o :: items) i min stop).length := by
  cases o with
  | token t =>
    rw [expression]
    split <;> exact Nat.succ_pos _
  | operator o =>
    rw [expression]
    cases o.definition.fixity <;> exact Nat.succ_pos _

theorem program_uses (ends : Nat) (hs : ∀ o ∈ items, o.isSynthetic = false) (skip i : Nat)
    (hskip : skip ≤ items.length) :
    (program ends items skip i).next = i + (items.length - skip) ∧
      (program ends items skip i).value.flatMap (present ·.items) = solid (items.drop skip) := by
  induction items generalizing skip i with
  | nil => simp [program, solid, Nat.le_zero.mp hskip]
  | cons o items ih =>
    have hrest : ∀ o' ∈ items, o'.isSynthetic = false := fun o' ho' => hs o' (by simp [ho'])
    cases skip with
    | succ skip => simpa [program] using ih hrest skip i (Nat.le_of_succ_le_succ hskip)
    | zero =>
      rw [program, List.drop_zero, List.length_cons]
      by_cases hb : o.isBlank = true
      · obtain ⟨hn, hv⟩ := ih hrest 0 (i + 1) (Nat.zero_le _)
        rw [if_pos hb, hn, hv, solid_cons, if_pos hb]
        exact ⟨by omega, rfl⟩
      · rw [if_neg hb]
        obtain ⟨hl, hi⟩ := expression_uses ends hs i 0 false
        have hpos := expression_length_pos ends o items i 0 false
        dsimp only
        generalize expression ends (o :: items) i 0 false = r at hl hi hpos ⊢
        rw [List.length_cons] at hl
        obtain ⟨hn, hv⟩ := ih hrest (r.length - 1) (i + r.length) (by omega)
        refine ⟨by omega, ?_⟩
        have hdrop : (o :: items).drop r.length = items.drop (r.length - 1) := by
          obtain ⟨n, hn⟩ := Nat.exists_eq_succ_of_ne_zero (Nat.ne_of_gt hpos)
          rw [hn]
          rfl
        rw [List.flatMap_cons, hv, hi, List.nil_append, ← hdrop, ← solid_append,
          List.take_append_drop]

end Resolution

variable {items : List Operand}

theorem resolveAll_uses (hs : ∀ o ∈ items, o.isSynthetic = false) :
    (resolveAll items).next = items.length ∧
      Operand.present ((resolveAll items).value.flatMap SyntaxTree.items) =
        Operand.solid items := by
  obtain ⟨hnext, hvalue⟩ := Resolution.program_uses (endOffset items) hs 0 0 (Nat.zero_le _)
  refine ⟨hnext.trans (Nat.zero_add _), ?_⟩
  rw [Operand.present, List.filter_flatMap]
  exact hvalue

/-- Resolution uses every item that is not blank once and in order. An expression takes the items
up to where it ends, and at least one if there is one. -/
theorem resolution_uses_items (hs : ∀ o ∈ items, o.isSynthetic = false) :
    ((resolveAll items).next = items.length ∧
      Operand.present ((resolveAll items).value.flatMap SyntaxTree.items) = Operand.solid items) ∧
    ∀ index min stop,
      let r := resolve items index min stop
      index ≤ r.next ∧ r.next ≤ max index items.length ∧ (index < items.length → index < r.next) ∧
        Operand.present r.value.items = Operand.solid ((items.take r.next).drop index) := by
  refine ⟨resolveAll_uses hs, fun index min stop => ?_⟩
  have hrest : ∀ o ∈ items.drop index, o.isSynthetic = false := fun o ho =>
    hs o (List.mem_of_mem_drop ho)
  obtain ⟨hbound, hitems⟩ := Resolution.expression_uses (endOffset items) hrest index min stop
  rw [List.length_drop] at hbound
  refine ⟨Nat.le_add_right _ _, ?_, fun hindex => ?_, ?_⟩
  · dsimp only [resolve]
    omega
  · have hpos := Resolution.expression_length_pos (endOffset items) items[index]
      (items.drop (index + 1)) index min stop
    rw [← List.drop_eq_getElem_cons] at hpos
    exact Nat.lt_add_of_pos_right hpos
  · rw [List.drop_take, resolve, Nat.add_sub_cancel_left]
    exact hitems

namespace Sample

def assign : Instance where
  op := "="
  definition := {
    leading := .one (String.singleton '=') String.singleton_ne_empty
    rest := []
    fixity := .between 2 1
    keepsNewline := true }
  leading := ⟨.symbol, "=", ⟨0, 0⟩⟩
  children := [⟨0, ⟨.symbol, "=", ⟨0, 0⟩⟩, []⟩]

def assignments : List Operand :=
  [.token ⟨.ident, "a", ⟨0, 0⟩⟩, .token ⟨.whitespace, " ", ⟨0, 0⟩⟩, .operator assign,
    .token ⟨.ident, "b", ⟨0, 0⟩⟩, .token ⟨.newline, "\n", ⟨0, 0⟩⟩, .operator assign,
    .token ⟨.ident, "c", ⟨0, 0⟩⟩]

end Sample

theorem assignments_used :
    (∀ o ∈ Sample.assignments, o.isSynthetic = false) ∧
      (resolveAll Sample.assignments).value.length = 2 ∧
      Operand.present ((resolveAll Sample.assignments).value.flatMap SyntaxTree.items) =
        Operand.solid Sample.assignments ∧
      (resolve Sample.assignments 0 0 false).next = 4 ∧
      Operand.present (resolve Sample.assignments 0 0 false).value.items =
        Operand.solid (Sample.assignments.take 4) := by
  have hs : ∀ o ∈ Sample.assignments, o.isSynthetic = false := by decide
  have huses := resolution_uses_items hs
  exact ⟨hs, rfl, huses.1.2, rfl, (huses.2 0 0 false).2.2.2⟩

end Distfix
