import Distfix.MessagePack.Library
import Distfix.MessagePack.Read

namespace Distfix.MessagePack

/-- The fields of a record by number: all fields up to some number, or a selection by key. -/
structure Record where
  positional : Bool
  fields : List (Option Value)

namespace Record

/-- The number of the field that a key names, if it names one. A key is a name or a number. -/
def keyIndex (names : List String) : Value → Option (Option Nat)
  | .text bytes | .binary bytes =>
      some (names.findIdx? fun name => name.toUTF8.data.toList == bytes)
  | .unsigned n => some (if n < names.length then some n else none)
  | _ => none

/-- No field may occur twice, and an entry that names no field is skipped. -/
def ofEntries (names : List String) : List (Value × Value) → Option (List (Option Value))
  | [] => some (names.map fun _ => none)
  | (key, value) :: entries => do
    let fields ← ofEntries names entries
    match ← keyIndex names key with
    | none => some fields
    | some i =>
      match fields[i]? with
      | some none => some (fields.set i (some value))
      | _ => none

def ofValue? (names : List String) : Value → Option Record
  | .array items => if items.length ≤ names.length then some ⟨true, items.map some⟩ else none
  | .map entries => (ofEntries names entries).map (⟨false, ·⟩)
  | _ => none

variable (r : Record)

def field? (i : Nat) : Option Value := (r.fields[i]?).join

def get {α : Type} (i : Nat) (format : Value → Option α) (missing : Missing α) : Option α :=
  match r.field? i, missing with
  | some v, _ => format v
  | none, .fault => none
  | none, .byKey a => if r.positional then none else some a
  | none, .always a => some a

def make : {α : Type} → Fields (fun α => Value → Option α) α → Option α
  | _, .make a => some a
  | _, .field before _ format missing => do
    let f ← make before
    return f (← r.get before.names.length format missing)

end Record

/-- What is read has to be a value, whatever its format, before the format decides about it. -/
def readAs {α : Type} (depth : Nat) (format : Value → Option α) (bytes : List UInt8) :
    Except String (α × List UInt8) :=
  match (readNested depth bytes).bind fun (v, rest) => (format v).map (·, rest) with
  | some found => .ok found
  | none => .error "no value of this format can be read"

def library : Library where
  Format α := Value → Option α
  string := Value.toText?
  word v := (v.toNat? UInt64.size).map UInt64.ofNat
  power v := (v.toNat? UInt32.size).map UInt32.ofNat
  flag := Value.toBool?
  optional := Value.toOption?
  sequence := Value.toList?
  record fields v := (Record.ofValue? fields.names v).bind (·.make fields)
  read := readAs
  maxDepth := maxDepth

end Distfix.MessagePack
