import Distfix.MessagePack.Library
import Distfix.MessagePack.Write
import Mathlib.Algebra.Group.Nat.Defs
import Mathlib.Data.List.Forall2

namespace Distfix.MessagePack

namespace Library

variable (lib : Library) {α : Type}

/-- The bytes are read as the value, whatever follows them. -/
def Reads (depth : Nat) (format : lib.Format α) (bytes : List UInt8) (a : α) : Prop :=
  ∀ rest, lib.read depth format (bytes ++ rest) = .ok (a, rest)

def Local (format : lib.Format α) : Prop :=
  ∀ ⦃depth bytes a rest⦄, lib.read depth format bytes = .ok (a, rest) →
    ∀ more, lib.read depth format (bytes ++ more) = .ok (a, rest ++ more)

/-- Each field is read from some bytes, and the record is made of what they are read as. -/
inductive ReadsFields (depth : Nat) :
    {α : Type} → Fields lib.Format α → List (List UInt8) → α → Prop
  | make {α : Type} {a : α} : ReadsFields depth (.make a) [] a
  | field {α β : Type} {before : Fields lib.Format (α → β)} {name : String}
    {format : lib.Format α} {missing : Missing α} {texts bytes f a}
    (h : ReadsFields depth before texts f) (ha : lib.Reads depth format bytes a) :
    ReadsFields depth (.field before name format missing) (texts ++ [bytes]) (f a)

def LocalFields : {α : Type} → Fields lib.Format α → Prop
  | _, .make _ => True
  | _, .field before _ format _ => LocalFields before ∧ lib.Local format

/-- The library keeps to the MessagePack format. It reads every value that is written with its
shortest header, and nil as an optional value that is not there; a record is read from an array of
its fields in order. It takes the bytes from the front and looks no further than it takes them. -/
structure Lawful : Prop where
  depth : 8 ≤ lib.maxDepth
  reads_string (depth : Nat) {s : String} (h : s.utf8ByteSize < 2 ^ 32) :
    lib.Reads depth lib.string (text s) s
  reads_word (depth : Nat) (n : UInt64) : lib.Reads depth lib.word (nat n.toNat) n
  reads_power (depth : Nat) (n : UInt32) : lib.Reads depth lib.power (nat n.toNat) n
  reads_flag (depth : Nat) (b : Bool) : lib.Reads depth lib.flag (bool b) b
  reads_nil (depth : Nat) {α : Type} (format : lib.Format α) :
    lib.Reads depth (lib.optional format) nil none
  reads_some {depth : Nat} {α : Type} {format : lib.Format α} {b : UInt8} {bytes : List UInt8}
    {a : α}
    (hb : b ≠ 0xc0) (h : lib.Reads depth format (b :: bytes) a) :
    lib.Reads depth (lib.optional format) (b :: bytes) (some a)
  reads_array {depth : Nat} {α : Type} {format : lib.Format α} {texts : List (List UInt8)}
    {as : List α} (h : List.Forall₂ (lib.Reads depth format) texts as)
    (hlen : texts.length < 2 ^ 32) :
    lib.Reads (depth + 1) (lib.sequence format) (arrayHeader texts.length ++ texts.flatten) as
  reads_record {depth : Nat} {α : Type} {fields : Fields lib.Format α} {texts : List (List UInt8)}
    {a : α} (h : lib.ReadsFields depth fields texts a) (hlen : texts.length < 2 ^ 32) :
    lib.Reads (depth + 1) (lib.record fields) (arrayHeader texts.length ++ texts.flatten) a
  local_string : lib.Local lib.string
  local_word : lib.Local lib.word
  local_power : lib.Local lib.power
  local_flag : lib.Local lib.flag
  local_optional {α : Type} {format : lib.Format α} (h : lib.Local format) :
    lib.Local (lib.optional format)
  local_sequence {α : Type} {format : lib.Format α} (h : lib.Local format) :
    lib.Local (lib.sequence format)
  local_record {α : Type} {fields : Fields lib.Format α} (h : lib.LocalFields fields) :
    lib.Local (lib.record fields)

variable {lib}

theorem Local.rejects_take {format : lib.Format α} (h : lib.Local format) {depth : Nat}
    {bytes : List UInt8} {a : α} (hb : lib.read depth format bytes = .ok (a, [])) {n : Nat}
    (hn : n < bytes.length) : ∃ detail, lib.read depth format (bytes.take n) = .error detail := by
  cases hr : lib.read depth format (bytes.take n) with
  | error detail => exact ⟨detail, rfl⟩
  | ok found =>
    have hmore := h hr (bytes.drop n)
    rw [List.take_append_drop, hb] at hmore
    have hrest := (Prod.mk.inj (Except.ok.inj hmore)).2
    have hdrop := (List.append_eq_nil_iff.mp hrest.symm).2
    exact absurd (List.drop_eq_nil_iff.mp hdrop) (Nat.not_le.mpr hn)

namespace Lawful

variable (h : lib.Lawful) {depth : Nat} {format : lib.Format α} {write : α → List UInt8}
include h

theorem reads_list {as : List α} (has : ∀ a ∈ as, lib.Reads depth format (write a) a)
    (hlen : as.length < 2 ^ 32) :
    lib.Reads (depth + 1) (lib.sequence format) (list write as) as := by
  have hall : List.Forall₂ (lib.Reads depth format) (as.map write) as :=
    List.forall₂_map_left_iff.mpr (List.forall₂_same.mpr has)
  have harray := h.reads_array hall (by rwa [List.length_map])
  rwa [List.length_map, ← List.flatMap_def] at harray

theorem reads_option {o : Option α} (hmarker : ∀ a, ∃ b bytes, write a = b :: bytes ∧ b ≠ 0xc0)
    (ho : ∀ a ∈ o, lib.Reads depth format (write a) a) :
    lib.Reads depth (lib.optional format) (option write o) o := by
  cases o with
  | none => exact h.reads_nil depth format
  | some a =>
    obtain ⟨b, bytes, hwrite, hb⟩ := hmarker a
    have ha := ho a rfl
    rw [hwrite] at ha
    rw [option, hwrite]
    exact h.reads_some hb ha

end Lawful

end Library

theorem marker_nat (n : Nat) : ∃ b bytes, nat n = b :: bytes ∧ b ≠ 0xc0 := by
  unfold nat
  split
  · rename_i hn
    refine ⟨_, [], rfl, fun hb => ?_⟩
    have hbyte : n = 0xc0 :=
      (UInt8.toNat_ofNat_of_lt (Nat.lt_trans hn (by decide))).symm.trans (congrArg UInt8.toNat hb)
    exact absurd hn (by rw [hbyte]; decide)
  split
  · exact ⟨_, _, rfl, by decide⟩
  split
  · exact ⟨_, _, rfl, by decide⟩
  split
  · exact ⟨_, _, rfl, by decide⟩
  · exact ⟨_, _, rfl, by decide⟩

end Distfix.MessagePack
