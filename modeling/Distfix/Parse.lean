import Distfix.Flattening
import Distfix.Lexer.Scan
import Distfix.Resolution

namespace Distfix.Catalog

variable (c : Catalog)

def parse (tokens : List Token) (scope : Scope) : Outcome (List SyntaxTree) :=
  let flat := c.flatten tokens 0 scope
  let trees := resolveAll flat.value
  ⟨flat.next, trees.value, flat.errors ++ trees.errors⟩

def parseSource (classes : CharClasses) (source : String) (scope : Scope) :
    Except LexError (Outcome (List SyntaxTree)) :=
  (lexWith classes source).map (c.parse · scope)

end Distfix.Catalog
