import Distfix.GrammarError
import Distfix.MessagePack.Library
import Distfix.MessagePack.Write
import Distfix.Table.Basic

namespace Distfix

open MessagePack

/-! Every record is written as an array of its fields, and read by the names of these. -/

namespace ScopeReference

def toBytes (r : ScopeReference) : List UInt8 :=
  arrayHeader 2 ++ text r.name ++ bool r.inherit

def fields (lib : Library) : Fields lib.Format ScopeReference :=
  ((Fields.make ScopeReference.mk).required "name" lib.string).field
    "inherit" lib.flag (.always false)

def format (lib : Library) : lib.Format ScopeReference := lib.record (fields lib)

end ScopeReference

namespace SeparatorEntry

def toBytes (s : SeparatorEntry) : List UInt8 :=
  arrayHeader 4 ++ list text s.tokens ++ nat s.min.toNat ++ option (nat ·.toNat) s.max
    ++ option ScopeReference.toBytes s.scope

def fields (lib : Library) : Fields lib.Format SeparatorEntry :=
  ((((Fields.make SeparatorEntry.mk).required "tokens" (lib.sequence lib.string)).required
    "min" lib.word).field "max" (lib.optional lib.word) (.byKey none)).field
    "scope" (lib.optional (ScopeReference.format lib)) (.always none)

def format (lib : Library) : lib.Format SeparatorEntry := lib.record (fields lib)

end SeparatorEntry

namespace OperatorEntry

def toBytes (o : OperatorEntry) : List UInt8 :=
  arrayHeader 5 ++ text o.id ++ list SeparatorEntry.toBytes o.separators
    ++ option (nat ·.toNat) o.left ++ option (nat ·.toNat) o.right ++ bool o.keepsNewline

def fields (lib : Library) : Fields lib.Format OperatorEntry :=
  (((((Fields.make OperatorEntry.mk).required "id" lib.string).required
    "separators" (lib.sequence (SeparatorEntry.format lib))).field
    "left" (lib.optional lib.power) (.byKey none)).field
    "right" (lib.optional lib.power) (.byKey none)).field
    "keep_newline" lib.flag (.always false)

def format (lib : Library) : lib.Format OperatorEntry := lib.record (fields lib)

end OperatorEntry

namespace ScopeEntry

def toBytes (s : ScopeEntry) : List UInt8 :=
  arrayHeader 2 ++ text s.name ++ list OperatorEntry.toBytes s.operators

def fields (lib : Library) : Fields lib.Format ScopeEntry :=
  ((Fields.make ScopeEntry.mk).required "name" lib.string).required
    "operators" (lib.sequence (OperatorEntry.format lib))

def format (lib : Library) : lib.Format ScopeEntry := lib.record (fields lib)

end ScopeEntry

namespace Table

def toBytes (t : Table) : List UInt8 :=
  arrayHeader 2 ++ text t.top ++ list ScopeEntry.toBytes t.scopes

def fields (lib : Library) : Fields lib.Format Table :=
  ((Fields.make Table.mk).required "top" lib.string).required
    "scopes" (lib.sequence (ScopeEntry.format lib))

def format (lib : Library) : lib.Format Table := lib.record (fields lib)

/-- Bytes after the table are ignored. -/
def ofBytes (lib : Library) (bytes : List UInt8) : Except GrammarError Table :=
  match lib.read lib.maxDepth (format lib) bytes with
  | .ok (t, _) => .ok t
  | .error detail => .error (.malformedTable detail)

end Table

end Distfix
