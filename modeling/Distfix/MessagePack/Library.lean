namespace Distfix.MessagePack

/-- What becomes of a field that is not there: a fault, a value if the fields are selected by key,
or a value in any case. -/
inductive Missing (α : Type) where
  | fault
  | byKey (value : α)
  | always (value : α)

inductive Fields (Format : Type → Type) : Type → Type 1 where
  | make {α : Type} (a : α) : Fields Format α
  | field {α β : Type} (before : Fields Format (α → β)) (name : String) (format : Format α)
    (missing : Missing α) : Fields Format β

namespace Fields

variable {Format : Type → Type}

def required {α β : Type} (before : Fields Format (α → β)) (name : String) (format : Format α) :
    Fields Format β :=
  before.field name format .fault

def names : {α : Type} → Fields Format α → List String
  | _, make _ => []
  | _, field before name _ _ => before.names ++ [name]

end Fields

/-- A library that reads values in the MessagePack format: for each kind of values a format by
which they are read, and what reading with a format does. Arrays and maps may be nested so many
times in what is read; the bytes after it are left. -/
structure Library where
  Format : Type → Type
  string : Format String
  word : Format UInt64
  power : Format UInt32
  flag : Format Bool
  optional {α : Type} : Format α → Format (Option α)
  sequence {α : Type} : Format α → Format (List α)
  record {α : Type} : Fields Format α → Format α
  read {α : Type} : Nat → Format α → List UInt8 → Except String (α × List UInt8)
  maxDepth : Nat

end Distfix.MessagePack
