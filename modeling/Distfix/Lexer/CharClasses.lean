import Distfix.Unicode.Alphabetic
import Distfix.Unicode.Mark
import Distfix.Unicode.Number
import Distfix.Unicode.Ranges
import Distfix.Unicode.Space

namespace Distfix

structure CharClasses where
  space : Char → Bool
  alphabetic : Char → Bool
  alphanumeric : Char → Bool
  mark : Char → Bool

/-- The classes of the Unicode standard. A mark is a punctuation character or a symbol. -/
def CharClasses.unicode : CharClasses where
  space c := Unicode.inRanges Unicode.space c.toNat
  alphabetic c := Unicode.inRanges Unicode.alphabetic c.toNat
  alphanumeric c :=
    Unicode.inRanges Unicode.alphabetic c.toNat || Unicode.inRanges Unicode.number c.toNat
  mark c := Unicode.inRanges Unicode.mark c.toNat

end Distfix
