import Distfix.Lexer.Munch

namespace Distfix

/-- A string literal that the input leaves open, and the position up to which it was read. -/
structure LexError where
  line : Nat
  column : Nat
  fault : OpenString
deriving DecidableEq

namespace LexError

def expected : OpenString → String
  | .atStart => "Expected `\\`\n"
  | .inEscape => ""
  | .inBody => "Expected `\\` or `\"`\n"

def message (e : LexError) : String :=
  "Parse error at line: " ++ toString e.line ++ ", column: " ++ toString e.column
    ++ "\nUnexpected `end of input`\n" ++ expected e.fault

end LexError

namespace Lexer

/-- The tokens of a text whose first `skip` characters belong to the token before, and whose
first new token begins at the given byte offset. -/
def scan (classes : CharClasses) : List Char → Nat → Nat → Except Stop (List Token)
  | [], _, _ => .ok []
  | _ :: cs, skip + 1, offset => (scan classes cs skip offset).mapError (·.after 1)
  | c :: cs, 0, offset => do
    let (kind, n) ← (munch classes c cs).mapError (·.after 1)
    let text := String.ofList (c :: cs.take n)
    let stop := offset + text.utf8ByteSize
    return ⟨kind, text, ⟨offset, stop⟩⟩ :: (← (scan classes cs n stop).mapError (·.after 1))

def endPosition : List Char → Nat × Nat → Nat × Nat
  | [], position => position
  | c :: cs, (line, column) =>
      endPosition cs (if c = '\n' then (line + 1, 1) else (line, column + 1))

end Lexer

def lexWith (classes : CharClasses) (source : String) : Except LexError (List Token) :=
  (Lexer.scan classes source.toList 0 0).mapError fun stop =>
    let (line, column) := Lexer.endPosition (source.toList.take stop.read) (1, 1)
    ⟨line, column, stop.fault⟩

def lex (source : String) : Except LexError (List Token) := lexWith .unicode source

end Distfix
