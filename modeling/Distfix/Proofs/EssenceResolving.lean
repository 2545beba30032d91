import Distfix.Proofs.Essence
import Distfix.Proofs.Phrase

namespace Distfix

/-- An expression and what is left of it without layout. Its items have a property, and a
placeholder may lie anywhere. -/
inductive SyntaxTree.Essence (lines : Bool) (P : Operand → Prop) : SyntaxTree → SyntaxTree → Prop
  | missing (a b : Nat) : Essence lines P (.missing a) (.missing b)
  | leaf {o} (h : P o) : Essence lines P (.leaf o) (.leaf (o.essence lines))
  | before {o rhs rhs'} (h : P o) (hr : Essence lines P rhs rhs') :
    Essence lines P (.before o rhs) (.before (o.essence lines) rhs')
  | after {o lhs lhs'} (h : P o) (hl : Essence lines P lhs lhs') :
    Essence lines P (.after o lhs) (.after (o.essence lines) lhs')
  | between {o lhs lhs' rhs rhs'} (h : P o) (hl : Essence lines P lhs lhs')
      (hr : Essence lines P rhs rhs') :
    Essence lines P (.between o lhs rhs) (.between (o.essence lines) lhs' rhs')

theorem SyntaxTree.Essence.render_eq {lines : Bool} {c : Catalog} {t t' : SyntaxTree}
    (h : Essence lines (fun o => ∀ i, o = .operator i → c.Finds i) t t') :
    t'.render = t.render := by
  induction h with
  | missing a b => rfl
  | leaf h => exact Operand.render_essence lines _ h
  | before h _ ihr => rw [render, render, Operand.render_essence lines _ h, ihr]
  | after h _ ihl => rw [render, render, Operand.render_essence lines _ h, ihl]
  | between h _ _ ihl ihr => rw [render, render, Operand.render_essence lines _ h, ihl, ihr]

namespace SyntaxTree.Essence

variable {lines : Bool} {P : Operand → Prop} {t lhs rhs : SyntaxTree} {item : Operand}

theorem of_leaf (h : t.Essence lines P (.leaf item)) (hs : item.isSynthetic = false) :
    ∃ o, t = .leaf o ∧ P o ∧ o.essence lines = item := by
  cases h with
  | missing a b => exact absurd (Token.isSynthetic_missing b) (by simp [← hs, Operand.isSynthetic])
  | leaf h => exact ⟨_, rfl, h, rfl⟩

theorem of_between (h : t.Essence lines P (.between item lhs rhs)) :
    ∃ o lhs' rhs', t = .between o lhs' rhs' ∧ o.essence lines = item ∧
      lhs'.Essence lines P lhs ∧ rhs'.Essence lines P rhs := by
  cases h with
  | between _ hl hr => exact ⟨_, _, _, rfl, rfl, hl, hr⟩

end SyntaxTree.Essence

theorem Operand.keepsNewline_essence (o : Operand) (lines : Bool) :
    (o.essence lines).keepsNewline = o.keepsNewline := by
  cases o with
  | token t => rfl
  | operator i => exact congrArg Definition.keepsNewline i.definition_essence

theorem Operand.isSkipped_of_lines {o : Operand} {lines stop : Bool}
    (hs : stop = true → lines = true) (h : o.isSkipped lines = true) : o.isSkipped stop = true := by
  cases o with
  | operator i => cases h
  | token t =>
    simp only [isSkipped, Bool.or_eq_true, Bool.and_eq_true] at h ⊢
    obtain h | ⟨hk, hl⟩ := h
    · exact .inl h
    refine .inr ⟨hk, ?_⟩
    cases stop with
    | false => rfl
    | true => simp [hs rfl] at hl

namespace Resolution

open Operand

structure Essence (lines : Bool) (P : Operand → Prop) (items : List Operand) (r r' : Resolution) :
    Prop where
  bound : r.length ≤ items.length
  tree : r.tree.Essence lines P r'.tree
  faults_eq : r'.errors.map ParseError.fault = r.errors.map ParseError.fault
  length_eq : r'.length = (essences lines (items.take r.length)).length

namespace Essence

variable {lines : Bool} {P : Operand → Prop} {items : List Operand} {r r' : Resolution}
  {o : Operand}

theorem further (h : Essence lines P items r r') (ho : o.isSkipped lines = false) :
    Essence lines P (o :: items) r.further r'.further where
  bound := Nat.succ_le_succ h.bound
  tree := h.tree
  faults_eq := h.faults_eq
  length_eq := by
    rw [Resolution.further, Resolution.further, h.length_eq, List.take_succ_cons,
      essences_cons_kept ho]
    rfl

theorem further_skipped (h : Essence lines P items r r') (ho : o.isSkipped lines = true) :
    Essence lines P (o :: items) r.further r' where
  bound := Nat.succ_le_succ h.bound
  tree := h.tree
  faults_eq := h.faults_eq
  length_eq := by
    rw [Resolution.further, h.length_eq, List.take_succ_cons, essences_cons_skipped ho]

theorem after (h : Essence lines P items r r') {errors errors' : List ParseError}
    (he : errors'.map ParseError.fault = errors.map ParseError.fault) :
    Essence lines P items (r.after errors) (r'.after errors') where
  bound := h.bound
  tree := h.tree
  faults_eq := by
    rw [Resolution.after, Resolution.after, List.map_append, List.map_append, he, h.faults_eq]
  length_eq := h.length_eq

theorem of_length_eq_zero (h : Essence lines P items r r') (hr : r.length = 0)
    {items' : List Operand} : Essence lines P items' r r' where
  bound := Nat.le_trans (Nat.le_of_eq hr) (Nat.zero_le _)
  tree := h.tree
  faults_eq := h.faults_eq
  length_eq := by rw [h.length_eq, hr, List.take_zero, List.take_zero]

theorem done {lhs lhs' : SyntaxTree} (h : lhs.Essence lines P lhs') :
    Essence lines P items ⟨lhs, 0, []⟩ ⟨lhs', 0, []⟩ :=
  ⟨Nat.zero_le _, h, rfl, rfl⟩

end Essence

variable (lines : Bool) (P : Operand → Prop) (ends ends' : Nat)

def ExpressionEssence (items : List Operand) : Prop :=
  ∀ i i' min stop, (stop = true → lines = true) →
    Essence lines P items (expression ends items i min stop)
      (expression ends' (essences lines items) i' min stop)

/-- What layout does to `extension`, where the first `skip` items are in the tree already. If they
are none, layout alone is never taken. -/
def ExtensionEssence (items : List Operand) : Prop :=
  ∀ lhs lhs' skip i i' min stop, lhs.Essence lines P lhs' → skip ≤ items.length →
    (stop = true → lines = true) →
    let r := extension ends lhs items skip i min stop
    let r' := extension ends' lhs' (essences lines items)
      (essences lines (items.take skip)).length i' min stop
    Essence lines P items r r' ∧ (skip = 0 → r'.length = 0 → r.length = 0)

variable {lines P ends ends'} {items : List Operand}

theorem expressionEssence_token {t : Token} (he : ExpressionEssence lines P ends ends' items)
    (hx : ExtensionEssence lines P ends ends' items) (hP : P (.token t)) :
    ExpressionEssence lines P ends ends' (.token t :: items) := by
  intro i i' min stop hs
  rw [expression]
  cases hskip : (Operand.token t).isSkipped lines with
  | true =>
    have hb : t.isBlank = true := isBlank_of_isSkipped hskip
    rw [if_pos hb, essences_cons_skipped hskip]
    exact (he (i + 1) i' min stop hs).further_skipped hskip
  | false =>
    have hb : t.unplaced.isBlank = t.isBlank := rfl
    rw [essences_cons_kept hskip, Operand.essence, expression, hb]
    split
    · exact (he (i + 1) (i' + 1) min stop hs).further hskip
    · exact (hx _ _ 0 (i + 1) (i' + 1) min stop (.leaf hP) (Nat.zero_le _) hs).1.further hskip

theorem expressionEssence_operator {o : Instance} (he : ExpressionEssence lines P ends ends' items)
    (hx : ExtensionEssence lines P ends ends' items) (hP : P (.operator o))
    (hk : o.definition.keepsNewline = true → lines = true) :
    ExpressionEssence lines P ends ends' (.operator o :: items) := by
  intro i i' min stop hs
  have hs' : (stop || o.definition.keepsNewline) = true → lines = true := fun h =>
    (Bool.or_eq_true_iff.mp h).elim hs hk
  have hmissing : SyntaxTree.Essence lines P (.missing o.span.start)
      (.missing (o.essence lines).span.start) := .missing _ _
  rw [essences_cons_kept rfl, Operand.essence, expression, expression, o.definition_essence,
    o.op_essence]
  cases o.definition.fixity with
  | closed =>
    exact (hx _ _ 0 (i + 1) (i' + 1) min stop (.leaf hP) (Nat.zero_le _) hs).1.further rfl
  | after left =>
    have hext := (hx _ _ 0 (i + 1) (i' + 1) min stop (.after hP hmissing) (Nat.zero_le _) hs).1
    exact Essence.further (o := .operator o) (hext.after rfl) rfl
  | before right =>
    have hr := he (i + 1) (i' + 1) right _ hs'
    have hext := (hx _ _ _ (i + 1) (i' + 1) min _ (.before hP hr.tree) hr.bound hs').1
    rw [← hr.length_eq] at hext
    exact (hext.after hr.faults_eq).further rfl
  | between left right =>
    have hr := he (i + 1) (i' + 1) right _ hs'
    have hext := (hx _ _ _ (i + 1) (i' + 1) min _ (.between hP hmissing hr.tree) hr.bound hs').1
    rw [← hr.length_eq] at hext
    refine (hext.after ?_).further rfl
    rw [List.map_cons, List.map_cons, hr.faults_eq]

theorem extensionEssence_token {t : Token} (hx : ExtensionEssence lines P ends ends' items) :
    ExtensionEssence lines P ends ends' (.token t :: items) := by
  intro lhs lhs' skip i i' min stop hl hskip hs
  cases skip with
  | succ skip =>
    refine ⟨?_, fun h => absurd h (Nat.succ_ne_zero skip)⟩
    have hle := Nat.le_of_succ_le_succ hskip
    rw [extension, List.take_succ_cons]
    cases hk : (Operand.token t).isSkipped lines with
    | true =>
      rw [essences_cons_skipped hk, essences_cons_skipped hk]
      exact (hx lhs lhs' skip (i + 1) i' min stop hl hle hs).1.further_skipped hk
    | false =>
      rw [essences_cons_kept hk, essences_cons_kept hk, List.length_cons, Operand.essence,
        extension]
      exact (hx lhs lhs' skip (i + 1) (i' + 1) min stop hl hle hs).1.further hk
  | zero =>
    rw [extension]
    cases hk : (Operand.token t).isSkipped lines with
    | true =>
      obtain ⟨hr, hz⟩ := hx lhs lhs' 0 (i + 1) i' min stop hl (Nat.zero_le _) hs
      rw [if_pos (isSkipped_of_lines hs hk), essences_cons_skipped hk]
      dsimp only
      split
      · rename_i h
        exact ⟨hr.of_length_eq_zero h, fun _ _ => h⟩
      · rename_i h
        exact ⟨hr.further_skipped hk, fun h0 h' => absurd (hz h0 h') h⟩
    | false =>
      obtain ⟨hr, hz⟩ := hx lhs lhs' 0 (i + 1) (i' + 1) min stop hl (Nat.zero_le _) hs
      have hsame : (Operand.token t.unplaced).isSkipped stop = (Operand.token t).isSkipped stop :=
        rfl
      rw [List.take_zero, essences, List.length_nil] at hr hz
      rw [List.take_zero, essences_cons_kept hk, Operand.essence, essences, List.length_nil]
      dsimp only
      rw [extension, hsame]
      split
      · dsimp only
        generalize extension ends lhs items 0 (i + 1) min stop = r,
          extension ends' lhs' (essences lines items) 0 (i' + 1) min stop = r' at hr hz ⊢
        by_cases h : r.length = 0
        · have h' : r'.length = 0 := by
            rw [hr.length_eq, h, List.take_zero, essences, List.length_nil]
          rw [if_pos h, if_pos h']
          exact ⟨hr.of_length_eq_zero h, fun _ _ => h⟩
        · rw [if_neg h, if_neg fun h' => h (hz rfl h')]
          exact ⟨hr.further hk, fun _ h => absurd h (Nat.succ_ne_zero _)⟩
      · exact ⟨.done hl, fun _ _ => rfl⟩

theorem extensionEssence_operator {o : Instance} (he : ExpressionEssence lines P ends ends' items)
    (hx : ExtensionEssence lines P ends ends' items) (hP : P (.operator o))
    (hk : o.definition.keepsNewline = true → lines = true) :
    ExtensionEssence lines P ends ends' (.operator o :: items) := by
  intro lhs lhs' skip i i' min stop hl hskip hs
  have hs' : (stop || o.definition.keepsNewline) = true → lines = true := fun h =>
    (Bool.or_eq_true_iff.mp h).elim hs hk
  cases skip with
  | succ skip =>
    refine ⟨?_, fun h => absurd h (Nat.succ_ne_zero skip)⟩
    rw [extension, List.take_succ_cons, essences_cons_kept rfl, essences_cons_kept rfl,
      List.length_cons, Operand.essence, extension]
    exact (hx lhs lhs' skip (i + 1) (i' + 1) min stop hl (Nat.le_of_succ_le_succ hskip)
      hs).1.further rfl
  | zero =>
    have hend : Essence lines P (.operator o :: items) ⟨lhs, 0, []⟩ ⟨lhs', 0, []⟩ := .done hl
    rw [List.take_zero, essences_cons_kept rfl, Operand.essence, essences, List.length_nil]
    dsimp only
    rw [extension, extension, o.definition_essence]
    cases o.definition.fixity with
    | closed => exact ⟨hend, fun _ _ => rfl⟩
    | before right => exact ⟨hend, fun _ _ => rfl⟩
    | after left =>
      dsimp only
      split
      · exact ⟨hend, fun _ _ => rfl⟩
      · have hext := (hx _ _ 0 (i + 1) (i' + 1) min stop (.after hP hl) (Nat.zero_le _) hs).1
        exact ⟨hext.further rfl, fun _ h => absurd h (Nat.succ_ne_zero _)⟩
    | between left right =>
      dsimp only
      split
      · exact ⟨hend, fun _ _ => rfl⟩
      · have hr := he (i + 1) (i' + 1) right _ hs'
        have hext := (hx _ _ _ (i + 1) (i' + 1) min _ (.between hP hl hr.tree) hr.bound hs').1
        rw [← hr.length_eq] at hext
        exact ⟨(hext.after hr.faults_eq).further rfl,
          fun _ h => absurd h (Nat.succ_ne_zero _)⟩

/-- The resolver sees no layout but the newlines that end an expression. -/
theorem expression_essence (ends ends' : Nat) (hP : ∀ o ∈ items, P o)
    (hk : ∀ o ∈ items, o.keepsNewline = true → lines = true) :
    ExpressionEssence lines P ends ends' items := by
  suffices ExpressionEssence lines P ends ends' items ∧ ExtensionEssence lines P ends ends' items
    from this.1
  induction items with
  | nil =>
    refine ⟨fun i i' min stop _ => ⟨Nat.zero_le _, .missing _ _, rfl, rfl⟩, ?_⟩
    intro lhs lhs' skip i i' min stop hl hskip _
    obtain rfl : skip = 0 := Nat.le_zero.mp hskip
    exact ⟨.done hl, fun _ _ => rfl⟩
  | cons o items ih =>
    obtain ⟨hPo, hP⟩ := List.forall_mem_cons.mp hP
    obtain ⟨hko, hk⟩ := List.forall_mem_cons.mp hk
    obtain ⟨he, hx⟩ := ih hP hk
    cases o with
    | token t => exact ⟨expressionEssence_token he hx hPo, extensionEssence_token hx⟩
    | operator o =>
      exact ⟨expressionEssence_operator he hx hPo hko, extensionEssence_operator he hx hPo hko⟩

structure SameProgram (lines : Bool) (P : Operand → Prop) (r r' : Outcome (List SyntaxTree)) :
    Prop where
  trees : List.Forall₂ (SyntaxTree.Essence lines P) r.value r'.value
  faults_eq : r'.errors.map ParseError.fault = r.errors.map ParseError.fault

theorem program_essence (ends ends' : Nat) (hP : ∀ o ∈ items, P o)
    (hk : ∀ o ∈ items, o.keepsNewline = true → lines = true) (skip i i' : Nat)
    (hskip : skip ≤ items.length) :
    SameProgram lines P (program ends items skip i)
      (program ends' (essences lines items) (essences lines (items.take skip)).length i') := by
  induction items generalizing skip i i' with
  | nil =>
    obtain rfl : skip = 0 := Nat.le_zero.mp hskip
    exact ⟨.nil, rfl⟩
  | cons o items ih =>
    obtain ⟨-, hPs⟩ := List.forall_mem_cons.mp hP
    obtain ⟨-, hks⟩ := List.forall_mem_cons.mp hk
    cases skip with
    | succ skip =>
      have hle := Nat.le_of_succ_le_succ hskip
      rw [program, List.take_succ_cons]
      cases ho : o.isSkipped lines with
      | true =>
        rw [essences_cons_skipped ho, essences_cons_skipped ho]
        exact ih hPs hks skip i i' hle
      | false =>
        rw [essences_cons_kept ho, essences_cons_kept ho, List.length_cons, program]
        exact ih hPs hks skip i i' hle
    | zero =>
      rw [program, List.take_zero, essences, List.length_nil]
      cases ho : o.isSkipped lines with
      | true =>
        rw [if_pos (isBlank_of_isSkipped ho), essences_cons_skipped ho]
        exact ih hPs hks 0 (i + 1) i' (Nat.zero_le _)
      | false =>
        have hr := expression_essence ends ends' hP hk i i' 0 false
          fun h => absurd h Bool.false_ne_true
        rw [essences_cons_kept ho] at hr ⊢
        rw [program, isBlank_essence]
        split
        · exact ih hPs hks 0 (i + 1) (i' + 1) (Nat.zero_le _)
        · have hpos := expression_length_pos ends o items i 0 false
          dsimp only
          generalize expression ends (o :: items) i 0 false = r,
            expression ends' (o.essence lines :: essences lines items) i' 0 false = r' at hr hpos ⊢
          obtain ⟨n, hn⟩ := Nat.exists_eq_succ_of_ne_zero (Nat.ne_of_gt hpos)
          have hbound := hr.bound
          have hlen := hr.length_eq
          rw [hn, List.take_succ_cons, essences_cons_kept ho, List.length_cons] at hlen
          rw [hn, List.length_cons] at hbound
          have hrest := ih hPs hks n (i + r.length) (i' + r'.length) (Nat.le_of_succ_le_succ hbound)
          rw [hn, hlen, Nat.succ_sub_one, Nat.add_sub_cancel, ← hlen, ← hn]
          refine ⟨.cons hr.tree hrest.trees, ?_⟩
          rw [List.map_append, List.map_append, hr.faults_eq, hrest.faults_eq]

end Resolution

theorem resolveAll_essence {lines : Bool} {P : Operand → Prop} {items : List Operand}
    (hP : ∀ o ∈ items, P o) (hk : ∀ o ∈ items, o.keepsNewline = true → lines = true) :
    Resolution.SameProgram lines P (resolveAll items)
      (resolveAll (Operand.essences lines items)) :=
  Resolution.program_essence (endOffset items) _ hP hk 0 0 0 (Nat.zero_le _)

end Distfix
