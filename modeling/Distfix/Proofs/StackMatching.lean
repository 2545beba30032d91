import Distfix.Proofs.Coverage

namespace Distfix

/-- The pairs of opening and closing tokens, in the order of the closing ones, and the opening
tokens that are left on the stack, the last one first. -/
structure Matching where
  pairs : List (Nat × Nat)
  unmatched : List Nat

namespace Matching

def after (m : Matching) (pairs : List (Nat × Nat)) : Matching := ⟨pairs ++ m.pairs, m.unmatched⟩

def above (m : Matching) (stack : List Nat) : Matching := ⟨m.pairs, m.unmatched ++ stack⟩

/-- Matching with a stack: a closing token belongs to the last opening token that is still open,
if there is one. The first token has number `i`. -/
def ofTokens (opens closes : String → Bool) : List Token → Nat → List Nat → Matching
  | [], _, stack => ⟨[], stack⟩
  | t :: ts, i, stack =>
    if opens t.text then ofTokens opens closes ts (i + 1) (i :: stack)
    else if closes t.text then
      match stack with
      | [] => ofTokens opens closes ts (i + 1) []
      | j :: stack => (ofTokens opens closes ts (i + 1) stack).after [(j, i)]
    else ofTokens opens closes ts (i + 1) stack

theorem after_after (m : Matching) (xs ys : List (Nat × Nat)) :
    (m.after ys).after xs = m.after (xs ++ ys) := by
  simp [after]

theorem above_above (m : Matching) (xs ys : List Nat) :
    (m.above xs).above ys = m.above (xs ++ ys) := by
  simp [above]

theorem after_above (m : Matching) (pairs : List (Nat × Nat)) (stack : List Nat) :
    (m.above stack).after pairs = (m.after pairs).above stack := rfl

variable {opens closes : String → Bool} {t : Token} {ts : List Token} {i : Nat} {stack : List Nat}

theorem ofTokens_opening (ht : opens t.text = true) :
    ofTokens opens closes (t :: ts) i stack = ofTokens opens closes ts (i + 1) (i :: stack) := by
  cases stack <;> simp [ofTokens, ht]

theorem ofTokens_closing (ho : opens t.text = false) (ht : closes t.text = true) (j : Nat) :
    ofTokens opens closes (t :: ts) i (j :: stack) =
      (ofTokens opens closes ts (i + 1) stack).after [(j, i)] := by
  simp [ofTokens, ho, ht]

theorem ofTokens_unopened (ho : opens t.text = false) (ht : closes t.text = true) :
    ofTokens opens closes (t :: ts) i [] = ofTokens opens closes ts (i + 1) [] := by
  simp [ofTokens, ho, ht]

theorem ofTokens_other (ho : opens t.text = false) (ht : closes t.text = false) :
    ofTokens opens closes (t :: ts) i stack = ofTokens opens closes ts (i + 1) stack := by
  cases stack <;> simp [ofTokens, ho, ht]

theorem mem_unmatched {x : Nat} (h : x ∈ (ofTokens opens closes ts i stack).unmatched) :
    x ∈ stack ∨ i ≤ x := by
  induction ts generalizing i stack with
  | nil => exact .inl h
  | cons t ts ih =>
    cases ho : opens t.text with
    | true =>
      rw [ofTokens_opening ho] at h
      obtain h | h := ih h
      · obtain rfl | h := List.mem_cons.mp h
        · exact .inr (Nat.le_refl _)
        · exact .inl h
      · exact .inr (Nat.le_of_succ_le h)
    | false =>
      cases hc : closes t.text with
      | true =>
        cases stack with
        | nil =>
          rw [ofTokens_unopened ho hc] at h
          exact (ih h).imp_right Nat.le_of_succ_le
        | cons j stack =>
          rw [ofTokens_closing ho hc] at h
          exact (ih h).imp (List.mem_cons_of_mem _) Nat.le_of_succ_le
      | false =>
        rw [ofTokens_other ho hc] at h
        exact (ih h).imp_right Nat.le_of_succ_le

end Matching

mutual

/-- The numbers of the first and the last token of each operator with some id, at any depth, in the
order of the last tokens. The operand begins with token `start`. -/
def Operand.placesOf (op : OperatorId) : Operand → Nat → List (Nat × Nat)
  | .token _, _ => []
  | .operator i, start => i.placesOf op start

def Instance.placesOf (op : OperatorId) : Instance → Nat → List (Nat × Nat)
  | ⟨id, _, _, children⟩, start =>
    Child.placesOf op children start ++
      if id = op then [(start, start + (Child.tokensOf children).length - 1)] else []

def Child.placesOf (op : OperatorId) : List Child → Nat → List (Nat × Nat)
  | [], _ => []
  | ⟨_, _, operands⟩ :: cs, start =>
    Operand.placesIn op operands start ++
      Child.placesOf op cs (start + (Operand.tokensOf operands).length + 1)

def Operand.placesIn (op : OperatorId) : List Operand → Nat → List (Nat × Nat)
  | [], _ => []
  | o :: os, start => o.placesOf op start ++ Operand.placesIn op os (start + o.tokens.length)

end

namespace Matching

variable (opens closes : String → Bool) (op : OperatorId)

structure Closed (ts : List Token) (b : Body) : Prop where
  nonempty : b.children ≠ []
  matching : ∀ i j stack, ofTokens opens closes ts i (j :: stack) =
    (ofTokens opens closes (ts.drop b.length) (i + b.length) stack).after
      (Child.placesOf op b.children i ++ [(j, i + b.length - 1)])

def Unclosed (ts : List Token) : Prop :=
  ∀ i stack, ofTokens opens closes ts i stack = (ofTokens opens closes ts i []).above stack

variable {opens closes op} {t : Token} {ts : List Token} {b : Body} {o : Operand}

theorem Closed.not_unclosed (hc : Closed opens closes op ts b) (hu : Unclosed opens closes ts) :
    False := by
  -- the opening token 0 before a text that begins with token 1
  have h := congrArg Matching.unmatched ((hc.matching 1 0 []).symm.trans (hu 1 [0]))
  have hmem : 0 ∈ ((ofTokens opens closes ts 1 []).above [0]).unmatched :=
    List.mem_append_right _ (List.mem_singleton_self 0)
  rw [← h] at hmem
  obtain hm | hm := mem_unmatched hmem
  · cases hm
  · omega

theorem placesOf_grow (h : b.children ≠ []) (o : Operand) (width start : Nat) :
    Child.placesOf op (b.grow o width).children start =
      o.placesOf op start ++ Child.placesOf op b.children (start + o.tokens.length) := by
  obtain ⟨cs, n⟩ := b
  cases cs with
  | nil => exact absurd rfl h
  | cons k cs =>
    obtain ⟨index, keyword, operands⟩ := k
    have hstart : start + (Operand.tokensOf (o :: operands)).length + 1 =
        start + o.tokens.length + (Operand.tokensOf operands).length + 1 := by
      rw [Operand.tokensOf, List.length_append]
      omega
    rw [Body.grow, Child.placesOf, Child.placesOf, Operand.placesIn, hstart, List.append_assoc]

theorem grow_nonempty (h : b.children ≠ []) (o : Operand) (width : Nat) :
    (b.grow o width).children ≠ [] ∧ (b.grow o width).length = b.length + width := by
  obtain ⟨cs, n⟩ := b
  cases cs with
  | nil => exact absurd rfl h
  | cons k cs => exact ⟨List.cons_ne_nil _ _, rfl⟩

theorem closed_closing (ho : opens t.text = false) (ht : closes t.text = true) (last : Nat) :
    Closed opens closes op (t :: ts) (Body.empty.close last t) where
  nonempty := List.cons_ne_nil _ _
  matching _ j _ := ofTokens_closing ho ht j

theorem Closed.keyword (h : Closed opens closes op ts b) (ho : opens t.text = false)
    (ht : closes t.text = false) (index : Nat) :
    Closed opens closes op (t :: ts) (b.close index t) where
  nonempty := List.cons_ne_nil _ _
  matching i j stack := by
    have hi : i + (b.length + 1) = i + 1 + b.length := by omega
    rw [ofTokens_other ho ht, h.matching]
    simp [Body.close, Child.placesOf, Operand.placesIn, Operand.tokensOf, hi]

theorem Closed.operand (h : Closed opens closes op ts b) (ho : opens t.text = false)
    (ht : closes t.text = false) (hx : o.tokens = [t]) (hp : ∀ start, o.placesOf op start = []) :
    Closed opens closes op (t :: ts) (b.grow o 1) := by
  obtain ⟨hne, hlen⟩ := grow_nonempty h.nonempty o 1
  refine ⟨hne, fun i j stack => ?_⟩
  have hi : i + (b.length + 1) = i + 1 + b.length := by omega
  rw [ofTokens_other ho ht, h.matching, placesOf_grow h.nonempty, hp, hx, hlen, hi]
  rfl

theorem length_tokens (hb : b.Covers ts) : b.tokens.length = b.length := by
  rw [hb.2, List.length_take, Nat.min_eq_left hb.1]

theorem length_tokens_ofBody (hb : b.Covers ts) (x : OperatorId × Definition) (t : Token) :
    (Operand.operator (.ofBody x t b)).tokens.length = b.length + 1 :=
  congrArg Nat.succ (length_tokens hb)

theorem placesOf_ofBody {x : OperatorId × Definition} (hb : b.Covers ts) (start : Nat) :
    (Instance.ofBody x t b).placesOf x.1 start =
      Child.placesOf x.1 b.children (start + 1) ++ [(start, start + b.length)] := by
  have hlen : (Child.tokensOf b.children).length = b.length := length_tokens hb
  simp [Instance.ofBody, Instance.placesOf, Child.placesOf, Operand.placesIn, Child.tokensOf,
    Child.tokens, Operand.tokensOf, hlen]

section

variable {x : OperatorId × Definition} (h : Closed opens closes x.1 ts b) (hb : b.Covers ts)
  (ho : opens t.text = true)
include h hb ho

theorem Closed.opening_eq (i : Nat) (stack : List Nat) :
    ofTokens opens closes (t :: ts) i stack =
      (ofTokens opens closes (ts.drop b.length) (i + (b.length + 1)) stack).after
        ((Instance.ofBody x t b).placesOf x.1 i) := by
  have hi : i + (b.length + 1) = i + 1 + b.length := by omega
  have hlast : i + 1 + b.length - 1 = i + b.length := by omega
  rw [ofTokens_opening ho, h.matching, placesOf_ofBody hb, hi, hlast]

theorem Closed.nested {b' : Body} (h' : Closed opens closes x.1 (ts.drop b.length) b') :
    Closed opens closes x.1 (t :: ts) (b'.grow (.operator (.ofBody x t b)) (b.length + 1)) := by
  obtain ⟨hne, hlen⟩ := grow_nonempty h'.nonempty (.operator (.ofBody x t b)) (b.length + 1)
  refine ⟨hne, fun i j stack => ?_⟩
  have hdrop : (t :: ts).drop (b'.length + (b.length + 1)) = (ts.drop b.length).drop b'.length := by
    rw [List.drop_drop, ← Nat.add_assoc, List.drop_succ_cons, Nat.add_comm]
  have hi : i + (b'.length + (b.length + 1)) = i + (b.length + 1) + b'.length := by omega
  rw [h.opening_eq hb ho, h'.matching, after_after, placesOf_grow h'.nonempty,
    length_tokens_ofBody hb, hlen, hdrop, hi, List.append_assoc]
  rfl

theorem Closed.unclosed_nested (hu : Unclosed opens closes (ts.drop b.length)) :
    Unclosed opens closes (t :: ts) := by
  intro i stack
  rw [h.opening_eq hb ho, h.opening_eq hb ho, hu, after_above]

end

theorem unclosed_nil : Unclosed opens closes [] := fun _ _ => rfl

theorem Unclosed.other (h : Unclosed opens closes ts) (ho : opens t.text = false)
    (ht : closes t.text = false) : Unclosed opens closes (t :: ts) := by
  intro i stack
  rw [ofTokens_other ho ht, ofTokens_other ho ht, h]

theorem Unclosed.opening (h : Unclosed opens closes ts) (ho : opens t.text = true) :
    Unclosed opens closes (t :: ts) := by
  intro i stack
  rw [ofTokens_opening ho, ofTokens_opening ho, h, h (i + 1) [i], above_above]
  rfl

end Matching

end Distfix
