import Distfix.GrammarError

namespace Distfix

inductive Fault where
  | leadingMismatch (op : OperatorId)
  | unexpectedEnd (op : OperatorId) (separator : Nat)
  | noProgress (op : OperatorId)
  | valueExpected
  | invalidLeadingOperator (op : OperatorId)
deriving DecidableEq

/-- A fault and where it is: at a token when operators are read, at an item when expressions
are. -/
structure ParseError where
  index : Nat
  fault : Fault
deriving DecidableEq

def Fault.message : Fault → String
  | leadingMismatch op => s!"`{op}` does not start here"
  | unexpectedEnd op separator =>
    s!"unexpected end of input while separator {separator} of `{op}` was still required"
  | noProgress op => s!"`{op}` matched without consuming input"
  | valueExpected => "end of stream, value expected"
  | invalidLeadingOperator op => s!"`{op}` needs a left operand"

namespace ParseError

/-- The operator did not begin, so nothing was read. -/
def isMismatch (e : ParseError) : Bool :=
  match e.fault with
  | .leadingMismatch _ => true
  | _ => false

def render (e : ParseError) : String := e.fault.message ++ " (at " ++ toString e.index ++ ")"

end ParseError

structure Outcome (α : Type) where
  next : Nat
  value : α
  errors : List ParseError

def Outcome.isOk {α : Type} (o : Outcome α) : Bool := o.errors.isEmpty

end Distfix
