import Distfix.Proofs.Formats
import Distfix.Proofs.Libraries
import Distfix.Table.Binary

namespace Distfix

open MessagePack

section

variable {lib : Library} (hlib : lib.Lawful)
include hlib

namespace ScopeReference

def Fits (r : ScopeReference) : Prop := r.name.utf8ByteSize < 2 ^ 32

theorem reads {r : ScopeReference} (h : r.Fits) (depth : Nat) :
    lib.Reads (depth + 1) (format lib) r.toBytes r := by
  have hname := hlib.reads_string depth h
  have hinherit := hlib.reads_flag depth r.inherit
  have hfields : lib.ReadsFields depth (fields lib) _ ⟨r.name, r.inherit⟩ :=
    .field (.field .make hname) hinherit
  have hrecord := hlib.reads_record hfields (by simp)
  simpa [toBytes, format] using hrecord

theorem local_format : lib.Local (format lib) :=
  hlib.local_record ⟨⟨trivial, hlib.local_string⟩, hlib.local_flag⟩

end ScopeReference

namespace SeparatorEntry

/-- The texts and lists are short enough for their headers. -/
structure Fits (s : SeparatorEntry) : Prop where
  tokens_length : s.tokens.length < 2 ^ 32
  tokens : ∀ t ∈ s.tokens, t.utf8ByteSize < 2 ^ 32
  scope : ∀ r ∈ s.scope, r.Fits

theorem reads {s : SeparatorEntry} (h : s.Fits) (depth : Nat) :
    lib.Reads (depth + 2) (format lib) s.toBytes s := by
  have htokens : lib.Reads (depth + 1) (lib.sequence lib.string) (list text s.tokens) s.tokens :=
    hlib.reads_list (fun t ht => hlib.reads_string depth (h.tokens t ht)) h.tokens_length
  have hmin := hlib.reads_word (depth + 1) s.min
  have hmax : lib.Reads (depth + 1) (lib.optional lib.word) (option (nat ·.toNat) s.max) s.max :=
    hlib.reads_option (fun n => marker_nat n.toNat) fun n _ => hlib.reads_word (depth + 1) n
  have hscope : lib.Reads (depth + 1) (lib.optional (ScopeReference.format lib))
      (option ScopeReference.toBytes s.scope) s.scope :=
    hlib.reads_option (fun r => ⟨0x92, _, rfl, by decide⟩)
      fun r hr => ScopeReference.reads hlib (h.scope r hr) depth
  have hfields : lib.ReadsFields (depth + 1) (fields lib) _ ⟨s.tokens, s.min, s.max, s.scope⟩ :=
    .field (.field (.field (.field .make htokens) hmin) hmax) hscope
  have hrecord := hlib.reads_record hfields (by simp)
  simpa [toBytes, format] using hrecord

theorem local_format : lib.Local (format lib) :=
  hlib.local_record ⟨⟨⟨⟨trivial, hlib.local_sequence hlib.local_string⟩, hlib.local_word⟩,
    hlib.local_optional hlib.local_word⟩, hlib.local_optional (ScopeReference.local_format hlib)⟩

end SeparatorEntry

namespace OperatorEntry

structure Fits (o : OperatorEntry) : Prop where
  id : o.id.utf8ByteSize < 2 ^ 32
  separators_length : o.separators.length < 2 ^ 32
  separators : ∀ s ∈ o.separators, s.Fits

theorem reads {o : OperatorEntry} (h : o.Fits) (depth : Nat) :
    lib.Reads (depth + 4) (format lib) o.toBytes o := by
  have hid := hlib.reads_string (depth + 3) h.id
  have hseparators := hlib.reads_list
    (fun s hs => SeparatorEntry.reads hlib (h.separators s hs) depth) h.separators_length
  have hpower (p : Option UInt32) :
      lib.Reads (depth + 3) (lib.optional lib.power) (option (nat ·.toNat) p) p :=
    hlib.reads_option (fun n => marker_nat n.toNat) fun n _ => hlib.reads_power (depth + 3) n
  have hkeeps := hlib.reads_flag (depth + 3) o.keepsNewline
  have hfields : lib.ReadsFields (depth + 3) (fields lib) _
      ⟨o.id, o.separators, o.left, o.right, o.keepsNewline⟩ :=
    .field (.field (.field (.field (.field .make hid) hseparators) (hpower o.left))
      (hpower o.right)) hkeeps
  have hrecord := hlib.reads_record hfields (by simp)
  simpa [toBytes, format] using hrecord

theorem local_format : lib.Local (format lib) :=
  hlib.local_record ⟨⟨⟨⟨⟨trivial, hlib.local_string⟩,
    hlib.local_sequence (SeparatorEntry.local_format hlib)⟩, hlib.local_optional hlib.local_power⟩,
    hlib.local_optional hlib.local_power⟩, hlib.local_flag⟩

end OperatorEntry

namespace ScopeEntry

structure Fits (s : ScopeEntry) : Prop where
  name : s.name.utf8ByteSize < 2 ^ 32
  operators_length : s.operators.length < 2 ^ 32
  operators : ∀ o ∈ s.operators, o.Fits

theorem reads {s : ScopeEntry} (h : s.Fits) (depth : Nat) :
    lib.Reads (depth + 6) (format lib) s.toBytes s := by
  have hname := hlib.reads_string (depth + 5) h.name
  have hoperators := hlib.reads_list
    (fun o ho => OperatorEntry.reads hlib (h.operators o ho) depth) h.operators_length
  have hfields : lib.ReadsFields (depth + 5) (fields lib) _ ⟨s.name, s.operators⟩ :=
    .field (.field .make hname) hoperators
  have hrecord := hlib.reads_record hfields (by simp)
  simpa [toBytes, format] using hrecord

theorem local_format : lib.Local (format lib) :=
  hlib.local_record
    ⟨⟨trivial, hlib.local_string⟩, hlib.local_sequence (OperatorEntry.local_format hlib)⟩

end ScopeEntry

namespace Table

structure Fits (t : Table) : Prop where
  top : t.top.utf8ByteSize < 2 ^ 32
  scopes_length : t.scopes.length < 2 ^ 32
  scopes : ∀ s ∈ t.scopes, s.Fits

theorem reads {t : Table} (h : t.Fits) (depth : Nat) :
    lib.Reads (depth + 8) (format lib) t.toBytes t := by
  have htop := hlib.reads_string (depth + 7) h.top
  have hscopes := hlib.reads_list
    (fun s hs => ScopeEntry.reads hlib (h.scopes s hs) depth) h.scopes_length
  have hfields : lib.ReadsFields (depth + 7) (fields lib) _ ⟨t.top, t.scopes⟩ :=
    .field (.field .make htop) hscopes
  have hrecord := hlib.reads_record hfields (by simp)
  simpa [toBytes, format] using hrecord

theorem local_format : lib.Local (format lib) :=
  hlib.local_record
    ⟨⟨trivial, hlib.local_string⟩, hlib.local_sequence (ScopeEntry.local_format hlib)⟩

/-- The bytes of a table are read as the table, and no part of them before the end is. -/
theorem ofBytes_toBytes {t : Table} (h : t.Fits) :
    ofBytes lib t.toBytes = .ok t ∧
      ∀ n < t.toBytes.length,
        ∃ detail, ofBytes lib (t.toBytes.take n) = .error (.malformedTable detail) := by
  obtain ⟨depth, hdepth⟩ := Nat.exists_eq_add_of_le' hlib.depth
  have hread : lib.read lib.maxDepth (format lib) t.toBytes = .ok (t, []) := by
    rw [hdepth, ← List.append_nil t.toBytes]
    exact reads hlib h depth []
  refine ⟨by rw [ofBytes, hread], fun n hn => ?_⟩
  obtain ⟨detail, hdetail⟩ := (local_format hlib).rejects_take hread hn
  exact ⟨detail, by rw [ofBytes, hdetail]⟩

end Table

end

/-- A table that cannot be built. It holds a number of 64 bits, a power of 32 bits, a text that is
longer in bytes than in characters, and a reference. -/
def Sample.odd : Table where
  top := "é"
  scopes := [{
    name := "s"
    operators := [{
      id := "o"
      separators := [
        { tokens := [], min := 0xffffffffffffffff, max := some 255, scope := some ⟨"é", true⟩ },
        { tokens := ["", "+"], min := 0, max := none }]
      left := none
      right := some 0xffffffff
      keepsNewline := true }] }]

theorem Table.odd_ofBytes_toBytes :
    library.Lawful ∧ Sample.odd.Fits ∧
      Table.ofBytes library Sample.odd.toBytes = .ok Sample.odd ∧
      ∀ n < Sample.odd.toBytes.length, ∃ detail,
        Table.ofBytes library (Sample.odd.toBytes.take n) = .error (.malformedTable detail) := by
  have hreference : ∀ r ∈ some (ScopeReference.mk "é" true), r.Fits := by
    rintro r ⟨⟩
    exact (by decide : "é".utf8ByteSize < 2 ^ 32)
  have hseparators : ∀ s ∈ [SeparatorEntry.mk [] 0xffffffffffffffff (some 255) (some ⟨"é", true⟩),
      ⟨["", "+"], 0, none, none⟩], s.Fits :=
    List.forall_mem_cons.mpr ⟨⟨by decide, by decide, hreference⟩,
      List.forall_mem_singleton.mpr ⟨by decide, by decide, nofun⟩⟩
  have hfits : Sample.odd.Fits :=
    ⟨by decide, by decide, List.forall_mem_singleton.mpr ⟨by decide, by decide,
      List.forall_mem_singleton.mpr ⟨by decide, by decide, hseparators⟩⟩⟩
  exact ⟨library_lawful, hfits, Table.ofBytes_toBytes library_lawful hfits⟩

end Distfix
