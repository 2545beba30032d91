namespace Distfix

inductive TokenKind where
  | ident
  | number
  | str
  | whitespace
  | newline
  | placeholder
  | symbol
deriving DecidableEq

def TokenKind.label : TokenKind → String
  | ident => "Ident"
  | number => "Number"
  | str => "Str"
  | whitespace => "Whitespace"
  | newline => "Newline"
  | placeholder => "Placeholder"
  | symbol => "Symbol"

structure Span where
  start : Nat
  stop : Nat
deriving DecidableEq

structure Token where
  kind : TokenKind
  text : String
  span : Span
deriving DecidableEq

namespace Token

def missing (offset : Nat) : Token := ⟨.placeholder, "", ⟨offset, offset⟩⟩

def isBlank (t : Token) : Bool := t.kind == .whitespace || t.kind == .newline

/-- No source text gives a placeholder without text. -/
def isSynthetic (t : Token) : Bool := t.kind == .placeholder && t.text.isEmpty

def render (t : Token) : String := if t.isSynthetic then "_" else t.text

def toNat? (parse : String → Option Nat) (t : Token) : Option Nat :=
  if t.kind = .number then parse t.text else none

theorem isSynthetic_missing (offset : Nat) : (missing offset).isSynthetic = true := by
  simp [isSynthetic, missing]

end Token

end Distfix
