namespace Distfix

/-- The name of a scope of the table. With `inherit` its operators are added to the enclosing
scope, which they replace otherwise. -/
structure ScopeReference where
  name : String
  inherit : Bool := false
deriving DecidableEq

structure SeparatorEntry where
  tokens : List String
  min : UInt64
  max : Option UInt64
  scope : Option ScopeReference := none
deriving DecidableEq

structure OperatorEntry where
  id : String
  separators : List SeparatorEntry
  left : Option UInt32
  right : Option UInt32
  keepsNewline : Bool := false
deriving DecidableEq

structure ScopeEntry where
  name : String
  operators : List OperatorEntry
deriving DecidableEq

/-- A grammar as plain data: named scopes that may name one another, and the one to begin with. -/
structure Table where
  top : String
  scopes : List ScopeEntry
deriving DecidableEq

def OperatorEntry.references (o : OperatorEntry) : List ScopeReference :=
  o.separators.filterMap (·.scope)

end Distfix
