import Distfix.Calculator.Grammar
import Distfix.Calculator.Value
import Distfix.Proofs.Ahead
import Distfix.Text.Decimal
import Mathlib.Data.Nat.Digits.Defs

namespace Distfix.Calculator

structure Numeral where
  chars : List Char
  nonempty : chars ≠ []
  digits : ∀ c ∈ chars, c.isDigit = true

def digit (c : Char) : Nat := c.toNat - '0'.toNat

def Numeral.value (n : Numeral) : Nat := Nat.ofDigits 10 (n.chars.reverse.map digit)

theorem decimal_eq {cs : List Char} (h : ∀ c ∈ cs, c.isDigit = true) (value : Nat) :
    Text.decimal value cs =
      some (Nat.ofDigits 10 (cs.reverse.map digit) + 10 ^ cs.length * value) := by
  induction cs generalizing value with
  | nil => simp [Text.decimal]
  | cons c cs ih =>
    obtain ⟨hc, hcs⟩ := List.forall_mem_cons.mp h
    have hne : c ≠ '_' := by
      rintro rfl
      exact absurd hc (by decide)
    have hlen : (cs.reverse.map digit).length = cs.length := by simp
    rw [Text.decimal, if_neg hne, if_pos hc, ih hcs, List.reverse_cons, List.map_append,
      Nat.ofDigits_append, hlen, List.length_cons, pow_succ, List.map_singleton,
      Nat.ofDigits_singleton]
    change some (_ + _ * (10 * value + digit c)) = _
    congr 1
    ring

/-- A number in base ten is read as its value. -/
def ParsesNumerals (parse : String → Option Nat) : Prop :=
  ∀ n : Numeral, parse (String.ofList n.chars) = some n.value

theorem parsesNumerals_parseDecimal : ParsesNumerals Text.parseDecimal := by
  rintro ⟨chars, hne, hd⟩
  have hvalue := decimal_eq hd 0
  rw [Nat.mul_zero, Nat.add_zero] at hvalue
  cases chars with
  | nil => exact absurd rfl hne
  | cons c cs =>
    have hc : c.isDigit = true := hd c (List.mem_cons_self ..)
    have hplus : c ≠ '+' := by
      rintro rfl
      exact absurd hc (by decide)
    have hline : c ≠ '_' := by
      rintro rfl
      exact absurd hc (by decide)
    simp [Text.parseDecimal, hplus, hline, hvalue, Numeral.value]

theorem ParsesNumerals.toNat? {parse : String → Option Nat} (hp : ParsesNumerals parse)
    (n : Numeral) {t : Token} (hk : t.kind = .number) (ht : t.text = String.ofList n.chars) :
    t.toNat? parse = some n.value := by
  rw [Token.toNat?, if_pos hk, ht, hp]

mutual

inductive Expression where
  | term (t : Term)
  | plus (e : Expression) (t : Term)

inductive Term where
  | factor (f : Factor)
  | times (t : Term) (f : Factor)

inductive Factor where
  | number (n : Numeral)
  | group (e : Expression)

end

mutual

def Expression.value : Expression → Nat
  | .term t => t.value
  | .plus e t => e.value + t.value

def Term.value : Term → Nat
  | .factor f => f.value
  | .times t f => t.value * f.value

def Factor.value : Factor → Nat
  | .number n => n.value
  | .group e => e.value

end

inductive Lexeme where
  | number (n : Numeral)
  | plus
  | times
  | opening
  | closing

namespace Lexeme

def kind : Lexeme → TokenKind
  | number _ => .number
  | plus | times | opening | closing => .symbol

def chars : Lexeme → List Char
  | number n => n.chars
  | plus => ['+']
  | times => ['*']
  | opening => ['(']
  | closing => [')']

def shown (x : Lexeme) : TokenKind × String := (x.kind, String.ofList x.chars)

def token (x : Lexeme) : Token := ⟨x.kind, String.ofList x.chars, ⟨0, 0⟩⟩

end Lexeme

mutual

def Expression.lexemes : Expression → List Lexeme
  | .term t => t.lexemes
  | .plus e t => e.lexemes ++ .plus :: t.lexemes

def Term.lexemes : Term → List Lexeme
  | .factor f => f.lexemes
  | .times t f => t.lexemes ++ .times :: f.lexemes

def Factor.lexemes : Factor → List Lexeme
  | .number n => [.number n]
  | .group e => .opening :: (e.lexemes ++ [.closing])

end

def Expression.tokens (e : Expression) : List Token := e.lexemes.map Lexeme.token

theorem group_mem : group ∈ operators := List.mem_cons_self ..

theorem plus_mem : plus ∈ operators := by simp [operators]

theorem times_mem : times ∈ operators := by simp [operators]

def plusItem : Operand := .operator (.ofBody plus Lexeme.plus.token .empty)

def timesItem : Operand := .operator (.ofBody times Lexeme.times.token .empty)

def groupBody (operands : List Operand) : Body :=
  ⟨[⟨2, Lexeme.closing.token, operands⟩], 1 + (Operand.tokensOf operands).length⟩

mutual

def Expression.items : Expression → List Operand
  | .term t => t.items
  | .plus e t => e.items ++ plusItem :: t.items

def Term.items : Term → List Operand
  | .factor f => [f.item]
  | .times t f => t.items ++ [timesItem, f.item]

def Factor.item : Factor → Operand
  | .number n => .token (Lexeme.number n).token
  | .group e => .operator (.ofBody group Lexeme.opening.token (groupBody e.items))

end

def Term.tree : Term → SyntaxTree
  | .factor f => .leaf f.item
  | .times t f => .between timesItem t.tree (.leaf f.item)

def Expression.tree : Expression → SyntaxTree
  | .term t => t.tree
  | .plus e t => .between plusItem e.tree t.tree

theorem operators_scope : catalog.operators scope = operators := rfl

end Distfix.Calculator
