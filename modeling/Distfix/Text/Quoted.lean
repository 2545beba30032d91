import Distfix.Unicode.Extender
import Distfix.Unicode.Ignorable
import Distfix.Unicode.Ranges
import Distfix.Unicode.Unprintable

namespace Distfix.Text

/-- A character that would not be seen, or that would join the one before it. -/
def isHidden (c : Char) : Bool :=
  Unicode.inRanges Unicode.unprintable c.toNat
    || Unicode.inRanges Unicode.ignorable c.toNat
    || Unicode.inRanges Unicode.extender c.toNat

def codePoint (c : Char) : String :=
  "\\u\x7b" ++ String.ofList (Nat.toDigits 16 c.toNat) ++ "\x7d"

def quotedChar (c : Char) : String :=
  if c = '"' then "\\\""
  else if c = '\\' then "\\\\"
  else if c = '\n' then "\\n"
  else if c = '\r' then "\\r"
  else if c = '\t' then "\\t"
  else if c.toNat = 0 then "\\0"
  else if isHidden c then codePoint c
  else c.toString

/-- A text in double quotes. Hidden characters are written by their code points. -/
def quoted (s : String) : String := "\"" ++ String.join (s.toList.map quotedChar) ++ "\""

end Distfix.Text
