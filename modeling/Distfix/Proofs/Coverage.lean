import Distfix.Flattening
import Distfix.Proofs.Reading

namespace Distfix

namespace Body

def tokens (b : Body) : List Token := Child.tokensOf b.children

theorem tokens_grow (b : Body) (operand : Operand) (width : Nat) :
    (b.grow operand width).tokens = if b.children = [] then [] else operand.tokens ++ b.tokens := by
  obtain ⟨cs, n⟩ := b
  cases cs with
  | nil => rfl
  | cons child cs =>
    obtain ⟨index, keyword, operands⟩ := child
    simp [grow, tokens, Child.tokensOf, Child.tokens, Operand.tokensOf]

theorem length_grow (b : Body) (operand : Operand) (width : Nat) :
    (b.grow operand width).length = if b.children = [] then 0 else b.length + width := by
  obtain ⟨cs, n⟩ := b
  cases cs <;> rfl

def Covers (b : Body) (ts : List Token) : Prop := b.length ≤ ts.length ∧ b.tokens = ts.take b.length

theorem covers_empty (ts : List Token) : Body.empty.Covers ts := ⟨Nat.zero_le _, rfl⟩

theorem Covers.close {b : Body} {ts : List Token} (h : b.Covers ts) (index : Nat) (t : Token) :
    (b.close index t).Covers (t :: ts) :=
  ⟨Nat.succ_le_succ h.1, congrArg (t :: ·) h.2⟩

theorem Covers.grow {b : Body} {ts : List Token} {operand : Operand} {width : Nat}
    (hw : width ≤ ts.length) (ho : operand.tokens = ts.take width)
    (h : b.Covers (ts.drop width)) : (b.grow operand width).Covers ts := by
  obtain ⟨hl, ht⟩ := h
  rw [List.length_drop] at hl
  unfold Covers
  rw [length_grow, tokens_grow]
  split
  · exact ⟨Nat.zero_le _, rfl⟩
  · refine ⟨by omega, ?_⟩
    rw [ho, ht, Nat.add_comm, List.take_add]

end Body

theorem Instance.tokens_ofBody (o : OperatorId × Definition) (t : Token) (b : Body) :
    (Instance.ofBody o t b).tokens = t :: b.tokens := rfl

namespace Catalog

variable {c : Catalog} {scope : Scope} {t : Token} {ts : List Token}

def Spans (i : Instance) (n : Nat) (t : Token) (ts : List Token) : Prop :=
  n ≤ ts.length ∧ i.tokens = t :: ts.take n

theorem spans_of_covers {b : Body} (h : b.Covers ts) (o : OperatorId × Definition) :
    Spans (.ofBody o t b) b.length t ts :=
  ⟨h.1, by rw [Instance.tokens_ofBody, h.2]⟩

theorem readBody_covers {skip : Nat} {p : Pending} {b : Body}
    (h : c.readBody ts skip p scope = .ok b) : b.Covers (ts.drop skip) := by
  induction ts generalizing skip p scope b with
  | nil =>
    obtain ⟨-, rfl⟩ := readBody_nil_ok h
    exact Body.covers_empty _
  | cons t ts ih =>
    cases skip with
    | succ skip => exact ih h
    | zero =>
      obtain ⟨-, rfl⟩ | ⟨index, q, b', -, hb, rfl⟩ | ⟨i, n, b', -, hm, hb, rfl⟩ |
        ⟨es, b', -, -, hb, rfl⟩ := readBody_cons_ok h
      · exact Body.covers_empty _
      · exact (ih hb).close index t
      · obtain ⟨o, -, ho⟩ := firstMatch_ok hm
        obtain ⟨inner, hi, rfl, rfl⟩ := attempt_ok ho
        obtain ⟨hl, ht⟩ := spans_of_covers (t := t) (ih hi) o
        exact Body.Covers.grow (Nat.succ_le_succ hl) ht (ih hb)
      · exact Body.Covers.grow (Nat.succ_le_succ (Nat.zero_le _)) rfl (ih hb)

theorem attempt_spans {o : OperatorId × Definition} {i : Instance} {n : Nat}
    (h : c.attempt t ts scope o = .ok (i, n)) : Spans i n t ts := by
  obtain ⟨b, hb, rfl, rfl⟩ := attempt_ok h
  exact spans_of_covers (readBody_covers hb) o

theorem firstMatch_spans {i : Instance} {n : Nat} (h : c.firstMatch t ts scope = .ok (i, n)) :
    Spans i n t ts := by
  obtain ⟨o, -, ho⟩ := firstMatch_ok h
  exact attempt_spans ho

theorem length_tokens_of_firstMatch {i : Instance} {n : Nat}
    (h : c.firstMatch t ts scope = .ok (i, n)) : (Operand.operator i).tokens.length = n + 1 := by
  obtain ⟨hn, ht⟩ := firstMatch_spans h
  rw [Operand.tokens, ht, List.length_cons, List.length_take, Nat.min_eq_left hn]

theorem flattenItems_covers (c : Catalog) (scope : Scope) (ts : List Token) (skip i : Nat)
    (h : skip ≤ ts.length) :
    (c.flattenItems scope ts skip i).next = i + (ts.length - skip) ∧
      Operand.tokensOf (c.flattenItems scope ts skip i).value = ts.drop skip := by
  induction ts generalizing skip i with
  | nil =>
    obtain rfl : skip = 0 := Nat.le_zero.mp h
    exact ⟨rfl, rfl⟩
  | cons t ts ih =>
    cases skip with
    | succ skip => simpa [flattenItems] using ih skip i (Nat.le_of_succ_le_succ h)
    | zero =>
      rw [flattenItems]
      cases hm : c.firstMatch t ts scope with
      | ok found =>
        obtain ⟨found, n⟩ := found
        obtain ⟨hn, ht⟩ := firstMatch_spans hm
        obtain ⟨hnext, htokens⟩ := ih n (i + 1 + n) hn
        refine ⟨?_, ?_⟩
        · simp only [Outcome.emit, hnext, List.length_cons]
          omega
        · simp [Outcome.emit, Operand.tokensOf, Operand.tokens, htokens, ht]
      | error es =>
        obtain ⟨hnext, htokens⟩ := ih 0 (i + 1) (Nat.zero_le _)
        refine ⟨?_, ?_⟩
        · simp only [Outcome.emit, hnext, List.length_cons]
          omega
        · simp [Outcome.emit, Operand.tokensOf, Operand.tokens, htokens]

end Catalog

end Distfix
