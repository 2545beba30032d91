import Distfix.Repeats
import Distfix.Spellings

namespace Distfix

/-- The name of a scope generator in a catalog. Generators have no other equality. -/
structure GeneratorRef where
  index : Nat
deriving DecidableEq

/-- One place of an operator where a keyword stands. The region, if there is one, changes the
scope for the operands that come before the keyword. -/
structure Separator where
  spellings : Spellings
  repeats : Repeats
  region : Option GeneratorRef := none
deriving DecidableEq

namespace Separator

def ofList (texts : List String) (repeats : Repeats) : Except GrammarError Separator := do
  let spellings ← Spellings.ofList texts
  return ⟨spellings, repeats, none⟩

def withRegion (s : Separator) (region : GeneratorRef) : Separator :=
  { s with region := some region }

def accepts (s : Separator) (text : String) : Bool := s.spellings.accepts text

def render (s : Separator) : String := "(" ++ s.spellings.render ++ "; " ++ s.repeats.render ++ ")"

end Separator

end Distfix
