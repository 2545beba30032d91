namespace Distfix.MessagePack

inductive Header where
  | nil
  | bool (b : Bool)
  | unsigned (n : Nat)
  | signed (i : Int)
  | float
  | text (length : Nat)
  | binary (length : Nat)
  | array (length : Nat)
  | map (length : Nat)
  | extension (length : Nat)

/-- A value. Floating point numbers and extension types are read without their contents. -/
inductive Value where
  | nil
  | bool (b : Bool)
  | unsigned (n : Nat)
  | signed (i : Int)
  | float
  | text (bytes : List UInt8)
  | binary (bytes : List UInt8)
  | array (items : List Value)
  | map (entries : List (Value × Value))
  | extension

abbrev Reader (α : Type) := List UInt8 → Option (α × List UInt8)

def takeBytes (n : Nat) : Reader (List UInt8) := fun bytes =>
  if n ≤ bytes.length then some (bytes.take n, bytes.drop n) else none

def ofBigEndian (bytes : List UInt8) : Nat := bytes.foldl (fun n b => 256 * n + b.toNat) 0

def readUnsigned (width : Nat) : Reader Nat := fun bytes =>
  (takeBytes width bytes).map fun (digits, bytes) => (ofBigEndian digits, bytes)

def readSigned (width : Nat) : Reader Int := fun bytes =>
  (readUnsigned width bytes).map fun (n, bytes) =>
    (Int.bmod (Int.ofNat n) (Nat.pow 256 width), bytes)

def readHeader : Reader Header
  | [] => none
  | marker :: bytes =>
    let m := marker.toNat
    let sized (width : Nat) (header : Nat → Header) :=
      (readUnsigned width bytes).map fun (n, bytes) => (header n, bytes)
    let signed (width : Nat) :=
      (readSigned width bytes).map fun (i, bytes) => (Header.signed i, bytes)
    if m < 0x80 then some (.unsigned m, bytes)
    else if m < 0x90 then some (.map (m - 0x80), bytes)
    else if m < 0xa0 then some (.array (m - 0x90), bytes)
    else if m < 0xc0 then some (.text (m - 0xa0), bytes)
    else if 0xe0 ≤ m then some (.signed (Int.bmod (Int.ofNat m) 256), bytes)
    else match m with
    | 0xc0 => some (.nil, bytes)
    | 0xc2 => some (.bool false, bytes)
    | 0xc3 => some (.bool true, bytes)
    | 0xc4 => sized 1 .binary
    | 0xc5 => sized 2 .binary
    | 0xc6 => sized 4 .binary
    | 0xc7 => sized 1 .extension
    | 0xc8 => sized 2 .extension
    | 0xc9 => sized 4 .extension
    | 0xca => sized 4 fun _ => .float
    | 0xcb => sized 8 fun _ => .float
    | 0xcc => sized 1 .unsigned
    | 0xcd => sized 2 .unsigned
    | 0xce => sized 4 .unsigned
    | 0xcf => sized 8 .unsigned
    | 0xd0 => signed 1
    | 0xd1 => signed 2
    | 0xd2 => signed 4
    | 0xd3 => signed 8
    | 0xd4 => some (.extension 1, bytes)
    | 0xd5 => some (.extension 2, bytes)
    | 0xd6 => some (.extension 4, bytes)
    | 0xd7 => some (.extension 8, bytes)
    | 0xd8 => some (.extension 16, bytes)
    | 0xd9 => sized 1 .text
    | 0xda => sized 2 .text
    | 0xdb => sized 4 .text
    | 0xdc => sized 2 .array
    | 0xdd => sized 4 .array
    | 0xde => sized 2 .map
    | 0xdf => sized 4 .map
    | _ => none

def readMany {α : Type} (read : Reader α) : Nat → Reader (List α)
  | 0, bytes => some ([], bytes)
  | n + 1, bytes => do
    let (a, bytes) ← read bytes
    let (as, bytes) ← readMany read n bytes
    some (a :: as, bytes)

def readPair {α : Type} (read : Reader α) : Reader (α × α) := fun bytes => do
  let (a, bytes) ← read bytes
  let (b, bytes) ← read bytes
  some ((a, b), bytes)

/-- What comes after a header. Values inside it are read with `nested`, if it may hold any. The
type of an extension is a byte before its contents. -/
def readContents (nested : Option (Reader Value)) (header : Header) : Reader Value := fun bytes =>
  match header, nested with
  | .nil, _ => some (.nil, bytes)
  | .bool b, _ => some (.bool b, bytes)
  | .unsigned n, _ => some (.unsigned n, bytes)
  | .signed i, _ => some (.signed i, bytes)
  | .float, _ => some (.float, bytes)
  | .text length, _ => (takeBytes length bytes).map fun (text, bytes) => (.text text, bytes)
  | .binary length, _ => (takeBytes length bytes).map fun (text, bytes) => (.binary text, bytes)
  | .array _, none | .map _, none | .extension _, none => none
  | .array length, some nested =>
    (readMany nested length bytes).map fun (items, bytes) => (.array items, bytes)
  | .map length, some nested =>
    (readMany (readPair nested) length bytes).map fun (entries, bytes) => (.map entries, bytes)
  | .extension length, some _ =>
    (takeBytes (length + 1) bytes).map fun (_, bytes) => (.extension, bytes)

def readWith (nested : Option (Reader Value)) : Reader Value := fun bytes => do
  let (header, bytes) ← readHeader bytes
  readContents nested header bytes

/-- One value in which arrays, maps and extension types are nested at most `depth` times. -/
def readNested : Nat → Reader Value
  | 0 => readWith none
  | depth + 1 => readWith (some (readNested depth))

def maxDepth : Nat := 1023

namespace Value

/-- Text may be in a binary format, and must be valid UTF-8. -/
def toText? : Value → Option String
  | text bytes | binary bytes => String.fromUTF8? ⟨bytes.toArray⟩
  | _ => none

/-- Any integer format will do for a number below `limit` that is not negative. -/
def toNat? (limit : Nat) : Value → Option Nat
  | unsigned n | signed (.ofNat n) => if n < limit then some n else none
  | _ => none

def toBool? : Value → Option Bool
  | bool b => some b
  | _ => none

/-- Empty binary data is an empty list, too. -/
def toList? {α : Type} (item : Value → Option α) : Value → Option (List α)
  | array items => items.mapM item
  | binary [] => some []
  | _ => none

def toOption? {α : Type} (item : Value → Option α) : Value → Option (Option α)
  | nil => some none
  | v => (item v).map some

end Value

end Distfix.MessagePack
