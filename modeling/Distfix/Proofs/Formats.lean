import Distfix.MessagePack.Record
import Distfix.Proofs.Libraries
import Mathlib.Algebra.Group.Nat.Defs
import Mathlib.Data.List.Basic

namespace Distfix.MessagePack

variable {α β : Type}

def Local (read : Reader α) : Prop :=
  ∀ ⦃bytes a rest⦄, read bytes = some (a, rest) →
    ∀ more, read (bytes ++ more) = some (a, rest ++ more)

theorem Local.map {read : Reader α} (h : Local read) (f : α → β) :
    Local fun bytes => (read bytes).map fun (a, bytes) => (f a, bytes) := by
  intro bytes b rest hb more
  obtain ⟨⟨a, rest⟩, ha, hp⟩ := Option.map_eq_some_iff.mp hb
  obtain ⟨rfl, rfl⟩ := Prod.mk.inj hp
  exact Option.map_eq_some_iff.mpr ⟨_, h ha more, rfl⟩

theorem Local.bind {read : Reader α} {rest : α → Reader β} (h : Local read)
    (hrest : ∀ a, Local (rest a)) :
    Local fun bytes => (read bytes).bind fun (a, bytes) => rest a bytes := by
  intro bytes b bytes' hb more
  obtain ⟨⟨a, bytes''⟩, ha, hb⟩ := Option.bind_eq_some_iff.mp hb
  exact Option.bind_eq_some_iff.mpr ⟨_, h ha more, hrest a hb more⟩

theorem local_some (a : α) : Local fun bytes => some (a, bytes) := by
  intro bytes a' rest h more
  obtain ⟨rfl, rfl⟩ := Prod.mk.inj (Option.some.inj h)
  rfl

theorem local_none : Local fun _ => (none : Option (α × List UInt8)) := by
  intro bytes a rest h
  cases h

theorem local_takeBytes (n : Nat) : Local (takeBytes n) := by
  intro bytes taken rest h more
  unfold takeBytes at h ⊢
  split at h
  · rename_i hn
    obtain ⟨rfl, rfl⟩ := Prod.mk.inj (Option.some.inj h)
    rw [if_pos (by rw [List.length_append]; omega), List.take_append_of_le_length hn,
      List.drop_append_of_le_length hn]
  · cases h

theorem local_readUnsigned (width : Nat) : Local (readUnsigned width) :=
  (local_takeBytes width).map ofBigEndian

theorem local_readSigned (width : Nat) : Local (readSigned width) :=
  (local_readUnsigned width).map fun n => Int.bmod (Int.ofNat n) (Nat.pow 256 width)

theorem local_readHeader : Local readHeader := by
  intro bytes header rest h more
  cases bytes with
  | nil => cases h
  | cons marker bytes =>
    rw [List.cons_append]
    unfold readHeader at h ⊢
    dsimp only at h ⊢
    -- the marker alone decides how many bytes of the length or the number are taken
    iterate 5
      split at h
      · rename_i hm
        simp only [*, if_true, if_false] at h ⊢
        exact local_some _ h more
    rename_i h₁ h₂ h₃ h₄ h₅
    simp only [h₁, h₂, h₃, h₄, h₅, if_false]
    generalize marker.toNat = m at h ⊢
    split at h
    all_goals
      first
      | exact local_some _ h more
      | exact (local_readUnsigned _).map _ h more
      | exact (local_readUnsigned _).map (fun _ => Header.float) h more
      | exact (local_readSigned _).map _ h more
      | cases h

theorem local_readMany {read : Reader α} (h : Local read) (n : Nat) : Local (readMany read n) := by
  induction n with
  | zero => exact local_some []
  | succ n ih => exact h.bind fun a => ih.bind fun as => local_some (a :: as)

theorem local_readPair {read : Reader α} (h : Local read) : Local (readPair read) :=
  h.bind fun a => h.bind fun b => local_some (a, b)

theorem local_readWith {nested : Option (Reader Value)} (h : ∀ read ∈ nested, Local read) :
    Local (readWith nested) := by
  refine local_readHeader.bind fun header => ?_
  cases header with
  | nil | bool | unsigned | signed | float => exact local_some _
  | text length | binary length => exact (local_takeBytes length).map _
  | array length =>
    cases nested with
    | none => exact local_none
    | some read => exact (local_readMany (h read rfl) length).map _
  | map length =>
    cases nested with
    | none => exact local_none
    | some read => exact (local_readMany (local_readPair (h read rfl)) length).map _
  | extension length =>
    cases nested with
    | none => exact local_none
    | some read => exact (local_takeBytes (length + 1)).map fun _ => Value.extension

theorem local_readNested (depth : Nat) : Local (readNested depth) := by
  induction depth with
  | zero => exact local_readWith nofun
  | succ depth ih =>
    apply local_readWith
    rintro read ⟨⟩
    exact ih

theorem length_bigEndian (width n : Nat) : (bigEndian width n).length = width := by
  induction width generalizing n with
  | zero => rfl
  | succ width ih => rw [bigEndian, List.length_append, ih, List.length_singleton]

theorem ofBigEndian_bigEndian {width n : Nat} (h : n < 256 ^ width) :
    ofBigEndian (bigEndian width n) = n := by
  induction width generalizing n with
  | zero =>
    have hn : n = 0 := Nat.lt_one_iff.mp h
    rw [hn]
    rfl
  | succ width ih =>
    have hdiv : n / 256 < 256 ^ width := Nat.div_lt_of_lt_mul (by rwa [Nat.pow_succ'] at h)
    have hlast := ih hdiv
    unfold ofBigEndian at hlast ⊢
    rw [bigEndian, List.foldl_append, hlast, List.foldl_cons, List.foldl_nil, UInt8.toNat_ofNat']
    exact Nat.div_add_mod n 256

theorem takeBytes_append {n : Nat} {bytes : List UInt8} (h : bytes.length = n)
    (rest : List UInt8) : takeBytes n (bytes ++ rest) = some (bytes, rest) := by
  subst h
  rw [takeBytes, if_pos (by simp), List.take_left, List.drop_left]

theorem readUnsigned_bigEndian {width n : Nat} (h : n < 256 ^ width) (rest : List UInt8) :
    readUnsigned width (bigEndian width n ++ rest) = some (n, rest) := by
  rw [readUnsigned, takeBytes_append (length_bigEndian width n), Option.map_some]
  dsimp only
  rw [ofBigEndian_bigEndian h]

/-! Headers are read as they are written. -/

theorem readHeader_nil (rest : List UInt8) : readHeader (nil ++ rest) = some (.nil, rest) := rfl

theorem readHeader_bool (b : Bool) (rest : List UInt8) :
    readHeader (bool b ++ rest) = some (.bool b, rest) := by
  cases b <;> rfl

theorem readHeader_sized {marker : UInt8} {width n : Nat} {header : Nat → Header}
    (hm : ∀ bytes, readHeader (marker :: bytes) =
      (readUnsigned width bytes).map fun r => (header r.1, r.2))
    (h : n < 256 ^ width) (rest : List UInt8) :
    readHeader (marker :: bigEndian width n ++ rest) = some (header n, rest) := by
  rw [List.cons_append, hm, readUnsigned_bigEndian h]
  rfl

theorem toNat_byte {n : Nat} (h : n < 256) : (UInt8.ofNat n).toNat = n :=
  UInt8.toNat_ofNat_of_lt h

theorem readHeader_nat {n : Nat} (h : n < 2 ^ 64) (rest : List UInt8) :
    readHeader (nat n ++ rest) = some (.unsigned n, rest) := by
  unfold nat
  split
  · rename_i hn
    rw [List.singleton_append, readHeader, toNat_byte (by omega)]
    exact if_pos hn
  split
  · exact readHeader_sized (fun _ => rfl) (by omega) rest
  split
  · exact readHeader_sized (fun _ => rfl) (by omega) rest
  split
  · exact readHeader_sized (fun _ => rfl) (by omega) rest
  · exact readHeader_sized (fun _ => rfl) (by omega) rest

theorem readHeader_textHeader {length : Nat} (h : length < 2 ^ 32) (rest : List UInt8) :
    readHeader (textHeader length ++ rest) = some (.text length, rest) := by
  unfold textHeader
  split
  · rw [List.singleton_append, readHeader, toNat_byte (by omega)]
    dsimp only
    rw [if_neg (by omega), if_neg (by omega), if_neg (by omega), if_pos (by omega),
      Nat.add_sub_cancel_left]
  split
  · exact readHeader_sized (fun _ => rfl) (by omega) rest
  split
  · exact readHeader_sized (fun _ => rfl) (by omega) rest
  · exact readHeader_sized (fun _ => rfl) (by omega) rest

theorem readHeader_arrayHeader {length : Nat} (h : length < 2 ^ 32) (rest : List UInt8) :
    readHeader (arrayHeader length ++ rest) = some (.array length, rest) := by
  unfold arrayHeader
  split
  · rw [List.singleton_append, readHeader, toNat_byte (by omega)]
    dsimp only
    rw [if_neg (by omega), if_neg (by omega), if_pos (by omega), Nat.add_sub_cancel_left]
  split
  · exact readHeader_sized (fun _ => rfl) (by omega) rest
  · exact readHeader_sized (fun _ => rfl) (by omega) rest

theorem eq_nil_of_readHeader {b : UInt8} {bytes rest : List UInt8}
    (h : readHeader (b :: bytes) = some (.nil, rest)) : b = 0xc0 := by
  unfold readHeader at h
  dsimp only at h
  iterate 5
    split at h
    · cases h
  split at h
  case h_1 hm => exact UInt8.toNat_inj.mp hm
  all_goals
    first
    | cases h
    | obtain ⟨found, -, hheader⟩ := Option.map_eq_some_iff.mp h
      cases (Prod.mk.inj hheader).1

def Spells (depth : Nat) (bytes : List UInt8) (v : Value) : Prop :=
  ∀ rest, readNested depth (bytes ++ rest) = some (v, rest)

variable {depth : Nat} {bytes bytes' : List UInt8} {v : Value} {vs : List Value}

theorem readMany_of_spells {texts : List (List UInt8)} (h : List.Forall₂ (Spells depth) texts vs)
    (rest : List UInt8) :
    readMany (readNested depth) texts.length (texts.flatten ++ rest) = some (vs, rest) := by
  induction h with
  | nil => rfl
  | cons hv _ ih =>
    rw [List.flatten_cons, List.append_assoc, List.length_cons, readMany, hv]
    change (readMany _ _ _).bind _ = _
    rw [ih]
    rfl

theorem readWith_header {header : Header}
    (h : ∀ rest, readHeader (bytes ++ rest) = some (header, rest))
    (nested : Option (Reader Value)) (rest : List UInt8) :
    readWith nested (bytes ++ rest) = readContents nested header rest := by
  change (readHeader _).bind _ = _
  rw [h]
  rfl

theorem spells_of_header {header : Header}
    (h : ∀ rest, readHeader (bytes ++ rest) = some (header, rest))
    (hc : ∀ nested rest, readContents nested header (bytes' ++ rest) = some (v, rest)) :
    Spells depth (bytes ++ bytes') v := by
  intro rest
  rw [List.append_assoc]
  cases depth with
  | zero => exact (readWith_header h none _).trans (hc none rest)
  | succ depth => exact (readWith_header h _ _).trans (hc _ rest)

theorem spells_header {header : Header}
    (h : ∀ rest, readHeader (bytes ++ rest) = some (header, rest))
    (hc : ∀ nested rest, readContents nested header rest = some (v, rest)) :
    Spells depth bytes v := by
  rw [← List.append_nil bytes]
  exact spells_of_header h hc

theorem spells_nil : Spells depth nil .nil := spells_header readHeader_nil fun _ _ => rfl

theorem spells_bool (b : Bool) : Spells depth (bool b) (.bool b) :=
  spells_header (readHeader_bool b) fun _ _ => rfl

theorem spells_nat {n : Nat} (h : n < 2 ^ 64) : Spells depth (nat n) (.unsigned n) :=
  spells_header (readHeader_nat h) fun _ _ => rfl

theorem spells_text {s : String} (h : s.utf8ByteSize < 2 ^ 32) :
    Spells depth (text s) (.text s.toUTF8.data.toList) := by
  have hlen : s.toUTF8.data.toList.length < 2 ^ 32 := h
  refine spells_of_header (readHeader_textHeader hlen) fun nested rest => ?_
  rw [readContents, takeBytes_append rfl]
  rfl

theorem spells_array {texts : List (List UInt8)} (h : List.Forall₂ (Spells depth) texts vs)
    (hlen : texts.length < 2 ^ 32) :
    Spells (depth + 1) (arrayHeader texts.length ++ texts.flatten) (.array vs) := by
  intro rest
  rw [List.append_assoc, readNested, readWith_header (readHeader_arrayHeader hlen), readContents,
    readMany_of_spells h]
  rfl

theorem Spells.ne_nil {b : UInt8} (h : Spells depth (b :: bytes) v) (hb : b ≠ 0xc0) : v ≠ .nil := by
  rintro rfl
  obtain ⟨nested, hread⟩ : ∃ nested, readNested depth = readWith nested := by
    cases depth with
    | zero => exact ⟨_, rfl⟩
    | succ depth => exact ⟨_, rfl⟩
  have hnil := h []
  rw [hread] at hnil
  obtain ⟨⟨header, rest⟩, hheader, hcontents⟩ := Option.bind_eq_some_iff.mp hnil
  have hnone : header = .nil := by
    cases header <;> cases nested <;> simp [readContents] at hcontents ⊢
  exact hb (eq_nil_of_readHeader (hnone ▸ hheader))

theorem readAs_eq_ok {format : Value → Option α} {a : α} {rest : List UInt8} :
    readAs depth format bytes = .ok (a, rest) ↔
      ∃ v, readNested depth bytes = some (v, rest) ∧ format v = some a := by
  unfold readAs
  split
  · rename_i hr
    obtain ⟨⟨v, rest'⟩, hv, hmap⟩ := Option.bind_eq_some_iff.mp hr
    obtain ⟨a', ha, rfl⟩ := Option.map_eq_some_iff.mp hmap
    constructor
    · intro h
      obtain ⟨rfl, rfl⟩ := Prod.mk.inj (Except.ok.inj h)
      exact ⟨v, hv, ha⟩
    · rintro ⟨v', hv', ha'⟩
      obtain ⟨rfl, rfl⟩ := Prod.mk.inj (Option.some.inj (hv.symm.trans hv'))
      rw [Option.some.inj (ha.symm.trans ha')]
  · rename_i hr
    constructor
    · intro h
      cases h
    · rintro ⟨v, hv, ha⟩
      simp [hv, ha] at hr

theorem library_reads {format : Value → Option α} {a : α} :
    library.Reads depth format bytes a ↔ ∃ v, Spells depth bytes v ∧ format v = some a := by
  refine ⟨fun h => ?_, fun ⟨v, hv, ha⟩ rest => readAs_eq_ok.mpr ⟨v, hv rest, ha⟩⟩
  obtain ⟨v, hv, ha⟩ := readAs_eq_ok.mp (h [])
  rw [List.append_nil] at hv
  exact ⟨v, fun rest => local_readNested depth hv rest, ha⟩

theorem library_local (format : Value → Option α) : library.Local format := by
  intro depth bytes a rest h more
  obtain ⟨v, hv, ha⟩ := readAs_eq_ok.mp h
  exact readAs_eq_ok.mpr ⟨v, local_readNested depth hv more, ha⟩

theorem exists_spells {format : Value → Option α} {texts : List (List UInt8)} {as : List α}
    (h : List.Forall₂ (library.Reads depth format) texts as) :
    ∃ vs, List.Forall₂ (Spells depth) texts vs ∧ vs.mapM format = some as := by
  induction h with
  | nil => exact ⟨[], .nil, rfl⟩
  | cons ha _ ih =>
    obtain ⟨v, hv, hva⟩ := library_reads.mp ha
    obtain ⟨vs, hvs, hvsas⟩ := ih
    refine ⟨v :: vs, .cons hv hvs, ?_⟩
    rw [List.mapM_cons, hva, hvsas]
    rfl

theorem exists_spells_fields {fields : Fields library.Format α} {texts : List (List UInt8)} {a : α}
    (h : library.ReadsFields depth fields texts a) :
    ∃ vs, List.Forall₂ (Spells depth) texts vs ∧ vs.length = fields.names.length ∧
      ∀ more, Record.make ⟨true, (vs ++ more).map some⟩ fields = some a := by
  induction h with
  | make => exact ⟨[], .nil, rfl, fun _ => rfl⟩
  | @field _ _ before _ format missing _ _ _ a _ ha ih =>
    obtain ⟨vs, hvs, hlen, hmake⟩ := ih
    obtain ⟨v, hv, hva⟩ := library_reads.mp ha
    refine ⟨vs ++ [v], List.rel_append hvs (.cons hv .nil), by simp [Fields.names, hlen],
      fun more => ?_⟩
    rw [List.append_assoc, List.singleton_append]
    have hfield : Record.field? ⟨true, (vs ++ v :: more).map some⟩ before.names.length =
        some v := by
      simp [Record.field?, ← hlen]
    have hget : Record.get ⟨true, (vs ++ v :: more).map some⟩ before.names.length format missing
        = some a := by
      unfold Record.get
      rw [hfield]
      exact hva
    exact Option.bind_eq_some_iff.mpr
      ⟨_, hmake _, Option.bind_eq_some_iff.mpr ⟨_, hget, rfl⟩⟩

/-- The library that is used keeps to the format. -/
theorem library_lawful : library.Lawful where
  depth := by decide
  reads_string depth s h := library_reads.mpr ⟨_, spells_text h, dif_pos s.isValidUTF8⟩
  reads_word depth n := by
    have hlt : n.toNat < UInt64.size := n.toNat_lt
    refine library_reads.mpr ⟨_, spells_nat hlt, ?_⟩
    simp [library, Value.toNat?, hlt]
  reads_power depth n := by
    have hlt : n.toNat < UInt32.size := n.toNat_lt
    refine library_reads.mpr ⟨_, spells_nat (Nat.lt_trans hlt (by decide)), ?_⟩
    simp [library, Value.toNat?, hlt]
  reads_flag depth b := library_reads.mpr ⟨_, spells_bool b, rfl⟩
  reads_nil depth α format := library_reads.mpr ⟨_, spells_nil, rfl⟩
  reads_some hb h := by
    obtain ⟨v, hv, ha⟩ := library_reads.mp h
    refine library_reads.mpr ⟨v, hv, ?_⟩
    have hne := hv.ne_nil hb
    cases v with
    | nil => exact absurd rfl hne
    | _ => exact congrArg (Option.map some) ha
  reads_array h hlen := by
    obtain ⟨vs, hvs, hmap⟩ := exists_spells h
    exact library_reads.mpr ⟨.array vs, spells_array hvs hlen, hmap⟩
  reads_record h hlen := by
    obtain ⟨vs, hvs, hnames, hmake⟩ := exists_spells_fields h
    refine library_reads.mpr ⟨.array vs, spells_array hvs hlen, ?_⟩
    have hrecord := hmake []
    rw [List.append_nil] at hrecord
    simp [library, Record.ofValue?, hnames, hrecord]
  local_string := library_local _
  local_word := library_local _
  local_power := library_local _
  local_flag := library_local _
  local_optional _ := library_local _
  local_sequence _ := library_local _
  local_record _ := library_local _

end Distfix.MessagePack
