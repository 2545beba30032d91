import Distfix.Operand

namespace Distfix

/-- An expression. Its item is the operator that stands before, after or between its operands,
or a leaf. -/
inductive SyntaxTree where
  | leaf (item : Operand)
  | before (item : Operand) (rhs : SyntaxTree)
  | after (item : Operand) (lhs : SyntaxTree)
  | between (item : Operand) (lhs rhs : SyntaxTree)

namespace SyntaxTree

def missing (offset : Nat) : SyntaxTree := leaf (.token (.missing offset))

def item : SyntaxTree → Operand
  | leaf item | before item _ | after item _ | between item _ _ => item

def lhs? : SyntaxTree → Option SyntaxTree
  | leaf _ | before _ _ => none
  | after _ lhs | between _ lhs _ => some lhs

def rhs? : SyntaxTree → Option SyntaxTree
  | leaf _ | after _ _ => none
  | before _ rhs | between _ _ rhs => some rhs

def ofParts (item : Operand) : Option SyntaxTree → Option SyntaxTree → SyntaxTree
  | none, none => leaf item
  | none, some rhs => before item rhs
  | some lhs, none => after item lhs
  | some lhs, some rhs => between item lhs rhs

def isLeaf : SyntaxTree → Bool
  | leaf _ => true
  | _ => false

def items : SyntaxTree → List Operand
  | leaf item => [item]
  | before item rhs => item :: rhs.items
  | after item lhs => lhs.items ++ [item]
  | between item lhs rhs => lhs.items ++ item :: rhs.items

def tokens (t : SyntaxTree) : List Token := t.items.flatMap Operand.tokens

def hasPlaceholder (t : SyntaxTree) : Bool := t.items.any Operand.isSynthetic

/-- The item comes first, its operands follow, and parentheses enclose all of it. -/
def render : SyntaxTree → String
  | leaf item => item.render
  | before item rhs => "(" ++ item.render ++ " " ++ rhs.render ++ ")"
  | after item lhs => "(" ++ item.render ++ " " ++ lhs.render ++ ")"
  | between item lhs rhs => "(" ++ item.render ++ " " ++ lhs.render ++ " " ++ rhs.render ++ ")"

end SyntaxTree

end Distfix
