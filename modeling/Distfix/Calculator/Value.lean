import Distfix.Resolution

namespace Distfix.Calculator

def treeValue (leaf : Operand → Option Nat) : SyntaxTree → Option Nat
  | .leaf item => leaf item
  | .between (.operator i) lhs rhs =>
    if i.op = "plus" then do some ((← treeValue leaf lhs) + (← treeValue leaf rhs))
    else if i.op = "times" then do some ((← treeValue leaf lhs) * (← treeValue leaf rhs))
    else none
  | _ => none

/- In all that follows `parse` reads the digits of a number. -/
variable (parse : String → Option Nat)

/-- The value of a number, or of a group around one expression, with groups nested at most
`depth` times. -/
def operandValue : Nat → Operand → Option Nat
  | _, .token t => t.toNat? parse
  | 0, .operator _ => none
  | depth + 1, .operator i =>
    if i.op = "group" ∧ i.count 1 = 0 then
      match i.separator 2 with
      | [] => none
      | close :: _ =>
        match (resolveAll close.operands).value with
        | [tree] => treeValue (operandValue depth) tree
        | _ => none
    else none

def value (tree : SyntaxTree) : Option Nat :=
  treeValue (fun o => operandValue parse o.depth o) tree

end Distfix.Calculator
