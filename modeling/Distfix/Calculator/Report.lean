import Distfix.Calculator.Grammar
import Distfix.Calculator.Value
import Distfix.Parse
import Distfix.Text.Decimal
import Distfix.Text.Quoted

namespace Distfix.Calculator

def tokenLine (token : Token) (index : Nat) : String :=
  toString index ++ ": " ++ token.kind.label ++ " " ++ Text.quoted token.text ++ "\n"

def treeLine (tree : SyntaxTree) : String :=
  match value Text.parseDecimal tree with
  | some n => tree.render ++ " = " ++ toString n ++ "\n"
  | none => tree.render ++ "\n"

def errorLine (e : ParseError) : String := "error: " ++ e.render ++ "\n"

/-- The operators, the tokens that are not blank, the expressions with their values, and the
faults. -/
def report (source : String) : String :=
  catalog.render scope ++
    match lex source with
    | .error e => e.message ++ "\n"
    | .ok tokens =>
      let result := catalog.parse tokens scope
      String.join ((tokens.zipIdx.filter (!·.1.isBlank)).map fun t => tokenLine t.1 t.2)
        ++ String.join (result.value.map treeLine)
        ++ String.join (result.errors.map errorLine)

end Distfix.Calculator
