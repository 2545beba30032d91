import Distfix.Lexer.CharClasses
import Distfix.Token

namespace Distfix

/-- Where the input ends inside a string literal: right after its opening quote, after the
backslash of an escape, or elsewhere. -/
inductive OpenString where
  | atStart
  | inEscape
  | inBody
deriving DecidableEq

namespace Lexer

structure Stop where
  read : Nat
  fault : OpenString

def Stop.after (n : Nat) (s : Stop) : Stop := { s with read := n + s.read }

def isDelimiter (c : Char) : Bool := "()[]{},;".toList.contains c

variable (classes : CharClasses)

def isBlank (c : Char) : Bool := c ≠ '\n' && classes.space c

def isHead (c : Char) : Bool := classes.alphabetic c || c = '_'

def isTail (c : Char) : Bool := classes.alphanumeric c || c = '_'

def isOperator (c : Char) : Bool := !isDelimiter c && c ≠ '"' && c ≠ '_' && classes.mark c

def run (p : Char → Bool) (cs : List Char) : Nat := (cs.takeWhile p).length

def further (n : Nat) : Except Stop Nat → Except Stop Nat
  | .ok m => .ok (n + m)
  | .error s => .error (s.after n)

def stringLength : List Char → Except Stop Nat
  | [] => .error ⟨0, .inBody⟩
  | ['\\'] => .error ⟨1, .inEscape⟩
  | '\\' :: _ :: cs => further 2 (stringLength cs)
  | c :: cs => if c = '"' then .ok 1 else further 1 (stringLength cs)

def stringRest (cs : List Char) : Except Stop Nat :=
  if cs.isEmpty then .error ⟨0, .atStart⟩ else stringLength cs

inductive Class where
  | blank
  | newline
  | word
  | digits
  | string
  | delimiter
  | operator
  | stray
deriving DecidableEq

def classOf (c : Char) : Class :=
  if isBlank classes c then .blank
  else if c = '\n' then .newline
  else if isHead classes c then .word
  else if c.isDigit then .digits
  else if c = '"' then .string
  else if isDelimiter c then .delimiter
  else if isOperator classes c then .operator
  else .stray

/-- The kind of the token that begins with `c`, and how many of the characters after `c` belong
to it: as many as the class of `c` allows. -/
def munch (c : Char) (cs : List Char) : Except Stop (TokenKind × Nat) :=
  match classOf classes c with
  | .blank => .ok (.whitespace, run (isBlank classes) cs)
  | .newline => .ok (.newline, 0)
  | .word =>
    let n := run (isTail classes) cs
    .ok (if c = '_' && n = 0 then .placeholder else .ident, n)
  | .digits => .ok (.number, run Char.isDigit cs)
  | .string => (stringRest cs).map fun n => (.str, n)
  | .delimiter => .ok (.symbol, 0)
  | .operator => .ok (.symbol, run (isOperator classes) cs)
  | .stray => .ok (.symbol, 0)

end Lexer

end Distfix
