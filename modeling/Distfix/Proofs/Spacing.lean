import Distfix.Proofs.Arithmetic
import Distfix.Proofs.Relexing

namespace Distfix

theorem Unicode.mem_of_inRanges {ranges : List (Nat × Nat)} {n : Nat}
    (h : inRanges ranges n = true) :
    n ∈ ranges.flatMap fun r => List.range' r.1 (r.2 + 1 - r.1) := by
  induction ranges with
  | nil => cases h
  | cons r ranges ih =>
    obtain ⟨low, high⟩ := r
    rw [inRanges] at h
    split at h
    · cases h
    · rename_i hlow
      rw [List.flatMap_cons, List.mem_append]
      obtain hhigh | h := Bool.or_eq_true_iff.mp h
      · rw [decide_eq_true_eq] at hhigh
        exact .inl (List.mem_range'_1.mpr (by omega))
      · exact .inr (ih h)

/-- The characters of arithmetic are of the classes that they have in the Unicode standard. -/
structure CharClasses.SplitsArithmetic (classes : CharClasses) : Prop where
  space : classes.space ' ' = true
  graphic : ∀ c : Char, '!' ≤ c → c ≤ '~' → classes.space c = false
  digit : ∀ c : Char, c.isDigit = true → classes.alphabetic c = false ∧ classes.mark c = false
  sign : ∀ c ∈ ['+', '*'], classes.alphabetic c = false ∧ classes.mark c = true
  parenthesis : ∀ c ∈ ['(', ')'], classes.alphabetic c = false
  blank : ∀ c, classes.space c = true ∨ c = '\n' → classes.mark c = false

theorem Unicode.forall_of_range {P : Char → Prop} {low count : Nat}
    (h : ∀ n ∈ List.range' low count, P (Char.ofNat n)) {c : Char} (hlow : low ≤ c.toNat)
    (hhigh : c.toNat < low + count) : P c := by
  rw [← Char.ofNat_toNat c]
  exact h _ (List.mem_range'_1.mpr ⟨hlow, hhigh⟩)

theorem CharClasses.unicode_splitsArithmetic : CharClasses.unicode.SplitsArithmetic where
  space := by decide
  graphic c hlow hhigh := by
    have hall : ∀ n ∈ List.range' 33 94, unicode.space (Char.ofNat n) = false := by decide
    exact Unicode.forall_of_range (P := fun c => unicode.space c = false) hall hlow
      (Nat.lt_succ_of_le hhigh)
  digit c hc := by
    have hall : ∀ n ∈ List.range' 48 10, unicode.alphabetic (Char.ofNat n) = false ∧
        unicode.mark (Char.ofNat n) = false := by decide
    obtain ⟨hlow, hhigh⟩ := Char.isDigit_iff_toNat.mp hc
    exact Unicode.forall_of_range
      (P := fun c => unicode.alphabetic c = false ∧ unicode.mark c = false) hall hlow
      (Nat.lt_succ_of_le hhigh)
  sign c hc := by
    obtain rfl | rfl := List.mem_pair.mp hc <;> decide
  parenthesis c hc := by
    obtain rfl | rfl := List.mem_pair.mp hc <;> decide
  blank c hc := by
    have hall : ∀ n ∈ Unicode.space.flatMap fun r => List.range' r.1 (r.2 + 1 - r.1),
        Unicode.inRanges Unicode.mark n = false := by decide +kernel
    obtain hspace | rfl := hc
    · exact hall _ (Unicode.mem_of_inRanges hspace)
    · decide

namespace Lexer

/-- Texts that stand in a source in order, with nothing but blanks before, between and after
them. -/
inductive Spaced (classes : CharClasses) : List (List Char) → List Char → Prop
  | nil : Spaced classes [] []
  | blank {c texts cs} (hc : isBlank classes c = true ∨ c = '\n') (h : Spaced classes texts cs) :
    Spaced classes texts (c :: cs)
  | text {text texts cs} (h : Spaced classes texts cs) :
    Spaced classes (text :: texts) (text ++ cs)

variable {classes : CharClasses} (hc : classes.SplitsArithmetic)
include hc

theorem isBlank_not_graphic {c : Char} (hlow : '!' ≤ c) (hhigh : c ≤ '~') :
    isBlank classes c = false := by
  rw [isBlank, hc.graphic c hlow hhigh, Bool.and_false]

theorem isBlank_digit {c : Char} (h : c.isDigit = true) : isBlank classes c = false := by
  obtain ⟨hlow, hhigh⟩ := Char.isDigit_iff_toNat.mp h
  exact isBlank_not_graphic hc (Nat.le_trans (by decide) hlow) (Nat.le_trans hhigh (by decide))

theorem classOf_digit {c : Char} (h : c.isDigit = true) : classOf classes c = .digits := by
  have hnewline : c ≠ '\n' := by
    rintro rfl
    cases h
  have hline : c ≠ '_' := by
    rintro rfl
    cases h
  simp [classOf, isBlank_digit hc h, hnewline, isHead, (hc.digit c h).1, hline, h]

theorem isOperator_digit {c : Char} (h : c.isDigit = true) : isOperator classes c = false := by
  rw [isOperator, (hc.digit c h).2, Bool.and_false]

theorem classOf_sign {c : Char} (h : c ∈ ['+', '*']) : classOf classes c = .operator := by
  have hgraphic : '!' ≤ c ∧ c ≤ '~' := by
    obtain rfl | rfl := List.mem_pair.mp h <;> decide
  have hblank := isBlank_not_graphic hc hgraphic.1 hgraphic.2
  obtain ⟨halphabetic, hmark⟩ := hc.sign c h
  obtain rfl | rfl := List.mem_pair.mp h <;>
    simp [classOf, hblank, isHead, halphabetic, isOperator, hmark, isDelimiter]

theorem classOf_parenthesis {c : Char} (h : c ∈ ['(', ')']) : classOf classes c = .delimiter := by
  have hgraphic : '!' ≤ c ∧ c ≤ '~' := by
    obtain rfl | rfl := List.mem_pair.mp h <;> decide
  have hblank := isBlank_not_graphic hc hgraphic.1 hgraphic.2
  have halphabetic := hc.parenthesis c h
  obtain rfl | rfl := List.mem_pair.mp h <;>
    simp [classOf, hblank, isHead, halphabetic, isDelimiter]

omit hc in
theorem space_of_isBlank {c : Char} (h : isBlank classes c = true ∨ c = '\n') :
    classes.space c = true ∨ c = '\n' :=
  h.imp_left fun hb => (Bool.and_eq_true_iff.mp hb).2

theorem isDigit_blank {c : Char} (h : isBlank classes c = true ∨ c = '\n') :
    c.isDigit = false := by
  rw [Bool.eq_false_iff]
  intro hd
  obtain hb | rfl := h
  · exact Bool.false_ne_true ((isBlank_digit hc hd).symm.trans hb)
  · cases hd

theorem isOperator_blank {c : Char} (h : isBlank classes c = true ∨ c = '\n') :
    isOperator classes c = false := by
  rw [isOperator, hc.blank c (space_of_isBlank h), Bool.and_false]

end Lexer

namespace Calculator

open Lexer

namespace Lexeme

def continues (classes : CharClasses) : Lexeme → Char → Bool
  | number _, c => c.isDigit
  | plus, c | times, c => isOperator classes c
  | opening, _ | closing, _ => false

theorem munch_chars {classes : CharClasses} (hc : classes.SplitsArithmetic) (x : Lexeme) {c : Char}
    {w cs : List Char} (hx : x.chars = c :: w)
    (hcs : ∀ y ∈ cs.head?, x.continues classes y = false) :
    munch classes c (w ++ cs) = .ok (x.kind, w.length) := by
  cases x with
  | number n =>
    have hd := n.digits
    have hn : n.chars = c :: w := hx
    rw [hn] at hd
    obtain ⟨hdigit, hw⟩ := List.forall_mem_cons.mp hd
    rw [munch, classOf_digit hc hdigit]
    dsimp only
    rw [run_of_all hw hcs]
    rfl
  | plus | times =>
    obtain ⟨rfl, rfl⟩ := List.cons.inj hx
    have hrun : run (isOperator classes) cs = 0 := run_of_all (List.forall_mem_nil _) hcs
    rw [munch, classOf_sign hc (by decide)]
    simp only [List.nil_append, hrun]
    rfl
  | opening | closing =>
    obtain ⟨rfl, rfl⟩ := List.cons.inj hx
    rw [munch, classOf_parenthesis hc (by decide)]
    rfl

def beginsOperand : Lexeme → Bool
  | number _ | opening => true
  | plus | times | closing => false

def endsOperand : Lexeme → Bool
  | number _ | closing => true
  | plus | times | opening => false

def alternate : Bool → List Lexeme → Bool
  | operand, [] => !operand
  | operand, x :: xs => x.beginsOperand == operand && alternate (!x.endsOperand) xs

theorem chars_ne_nil (x : Lexeme) : x.chars ≠ [] := by
  cases x with
  | number n => exact n.nonempty
  | plus | times | opening | closing => exact List.cons_ne_nil _ _

section

variable {classes : CharClasses} (hc : classes.SplitsArithmetic)
include hc

theorem continues_blank (x : Lexeme) {c : Char} (h : isBlank classes c = true ∨ c = '\n') :
    x.continues classes c = false := by
  cases x with
  | number n => exact isDigit_blank hc h
  | plus | times => exact isOperator_blank hc h
  | opening | closing => rfl

theorem continues_next {x y : Lexeme} (h : y.beginsOperand = !x.endsOperand) {c : Char}
    (hy : c ∈ y.chars.head?) : x.continues classes c = false := by
  cases x with
  | number n =>
    cases y with
    | number m => cases h
    | opening => cases h
    | plus | times | closing =>
      obtain rfl := Option.mem_some.mp hy
      rfl
  | plus | times =>
    cases y with
    | number m => exact isOperator_digit hc (m.digits c (List.mem_of_mem_head? hy))
    | opening =>
      obtain rfl := Option.mem_some.mp hy
      rfl
    | plus | times | closing => cases h
  | opening | closing => rfl

theorem continues_spaced {x : Lexeme} {xs : List Lexeme} {cs : List Char}
    (h : Spaced classes (xs.map chars) cs) (ha : alternate (!x.endsOperand) xs = true) :
    ∀ y ∈ cs.head?, x.continues classes y = false := by
  generalize ht : xs.map chars = texts at h
  cases h with
  | nil => exact nofun
  | blank hb h =>
    intro y hy
    obtain rfl := Option.mem_some.mp hy
    exact x.continues_blank hc hb
  | text h =>
    obtain ⟨z, zs, rfl, rfl, -⟩ := List.map_eq_cons_iff.mp ht
    intro y hy
    rw [List.head?_append_of_ne_nil _ z.chars_ne_nil] at hy
    obtain ⟨hz, -⟩ := Bool.and_eq_true_iff.mp ha
    exact continues_next hc (beq_iff_eq.mp hz) hy

theorem shows_of_spaced {xs : List Lexeme} {cs : List Char} {operand : Bool}
    (h : Spaced classes (xs.map chars) cs) (ha : alternate operand xs = true) :
    Shows classes cs (xs.map shown) := by
  generalize ht : xs.map chars = texts at h
  induction h generalizing xs operand with
  | nil =>
    rw [List.map_eq_nil_iff.mp ht]
    exact shows_nil classes
  | blank hb _ ih => exact (ih ha ht).cons_blank hb
  | text h ih =>
    obtain ⟨x, xs, rfl, rfl, rfl⟩ := List.map_eq_cons_iff.mp ht
    obtain ⟨-, ha⟩ := Bool.and_eq_true_iff.mp ha
    obtain ⟨c, w, hx⟩ := List.exists_cons_of_ne_nil x.chars_ne_nil
    have hm := x.munch_chars hc hx (continues_spaced hc h ha)
    rw [List.map_cons, shown, hx]
    refine (ih ha rfl).cons_lexeme hm ?_
    cases x <;> exact ⟨nofun, nofun⟩

end

end Lexeme

mutual

theorem Expression.alternate_lexemes (e : Expression) (rest : List Lexeme) :
    Lexeme.alternate true (e.lexemes ++ rest) = Lexeme.alternate false rest := by
  cases e with
  | term t => exact t.alternate_lexemes rest
  | plus e t =>
    rw [Expression.lexemes, List.append_assoc, e.alternate_lexemes]
    exact t.alternate_lexemes rest

theorem Term.alternate_lexemes (t : Term) (rest : List Lexeme) :
    Lexeme.alternate true (t.lexemes ++ rest) = Lexeme.alternate false rest := by
  cases t with
  | factor f => exact f.alternate_lexemes rest
  | times t f =>
    rw [Term.lexemes, List.append_assoc, t.alternate_lexemes]
    exact f.alternate_lexemes rest

theorem Factor.alternate_lexemes (f : Factor) (rest : List Lexeme) :
    Lexeme.alternate true (f.lexemes ++ rest) = Lexeme.alternate false rest := by
  cases f with
  | number n => rfl
  | group e =>
    rw [Factor.lexemes, List.cons_append, List.append_assoc]
    exact e.alternate_lexemes _

end

theorem Expression.shows {classes : CharClasses} (hc : classes.SplitsArithmetic) (e : Expression)
    {cs : List Char} (h : Spaced classes (e.lexemes.map Lexeme.chars) cs) :
    Shows classes cs (e.lexemes.map Lexeme.shown) := by
  have ha := e.alternate_lexemes []
  rw [List.append_nil] at ha
  exact Lexeme.shows_of_spaced hc h ha

end Calculator

end Distfix
