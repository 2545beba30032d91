import Distfix.Proofs.Powers

namespace Distfix

/-- A newline stands between the item with number `m` and the item before it that is not blank. -/
def Operand.BeginsLine (items : List Operand) (m : Nat) : Prop :=
  ∃ earlier t blanks, items.take m = earlier ++ .token t :: blanks ∧ t.kind = .newline ∧
    ∀ b ∈ blanks, b.isBlank = true

namespace Phrase

open Operand

def numbers (kind : Phrase → Bool) : Phrase → List Nat
  | absent => []
  | leaf item i => if kind (leaf item i) then [i] else []
  | before o i rhs => (if kind (before o i rhs) then [i] else []) ++ rhs.numbers kind
  | after o i lhs => lhs.numbers kind ++ if kind (after o i lhs) then [i] else []
  | between o i lhs rhs =>
    lhs.numbers kind ++ (if kind (between o i lhs rhs) then [i] else []) ++ rhs.numbers kind

def isExtension : Phrase → Bool
  | after _ _ lhs | between _ _ lhs _ => !lhs.isAbsent
  | absent | leaf _ _ | before _ _ _ => false

/-- The operator has a right operand, and it keeps newlines. -/
def isKeeper : Phrase → Bool
  | before o _ _ | between o _ _ _ => o.definition.keepsNewline
  | absent | leaf _ _ | after _ _ _ => false

/-- No operator that begins a line has a left operand in which an operator keeps newlines. -/
def EndsAtNewline (items : List Operand) (p : Phrase) : Prop :=
  ∀ m ∈ p.numbers isExtension, BeginsLine items m → ∀ j ∈ p.numbers isKeeper, m ≤ j

/-- The operator with number `j`, which keeps newlines, is in the right operand of one that does
not, and all of this operand is in front of the item with number `m`. -/
def Conceals (j m : Nat) : Phrase → Prop
  | absent | leaf _ _ => False
  | before o _ rhs =>
    (o.definition.keepsNewline = false ∧ j ∈ rhs.numbers isKeeper ∧ ∀ x ∈ rhs.places, x.2 < m) ∨
      rhs.Conceals j m
  | after _ _ lhs => lhs.Conceals j m
  | between o _ lhs rhs =>
    lhs.Conceals j m ∨
      (o.definition.keepsNewline = false ∧ j ∈ rhs.numbers isKeeper ∧ ∀ x ∈ rhs.places, x.2 < m) ∨
      rhs.Conceals j m

section Numbers

variable {kind : Phrase → Bool} {o : Instance} {i m : Nat} {lhs rhs : Phrase}

theorem mem_numbers_after : m ∈ (after o i lhs).numbers kind ↔
    m ∈ lhs.numbers kind ∨ kind (after o i lhs) = true ∧ m = i := by
  cases h : kind (after o i lhs) <;> simp [numbers, h]

theorem mem_numbers_between : m ∈ (between o i lhs rhs).numbers kind ↔
    m ∈ lhs.numbers kind ∨ (kind (between o i lhs rhs) = true ∧ m = i) ∨ m ∈ rhs.numbers kind := by
  cases h : kind (between o i lhs rhs) <;> simp [numbers, h]

theorem numbers_sublist (kind : Phrase → Bool) (p : Phrase) :
    (p.numbers kind).Sublist (p.places.map Prod.snd) := by
  have hone (c : Bool) (i : Nat) : (if c then [i] else []).Sublist [i] := by cases c <;> simp
  induction p with
  | absent => exact .slnil
  | leaf item i => exact hone _ i
  | before o i rhs ih => exact (hone _ i).append ih
  | after o i lhs ih =>
    rw [places, List.map_append]
    exact ih.append (hone _ i)
  | between o i lhs rhs ihl ihr =>
    rw [places, List.map_append, numbers, List.append_assoc]
    exact ihl.append ((hone _ i).append ihr)

theorem of_mem_numbers {p : Phrase} {P : Nat → Prop} (hm : m ∈ p.numbers kind)
    (h : ∀ x ∈ p.places, P x.2) : P m := by
  obtain ⟨x, hx, rfl⟩ := List.mem_map.mp ((numbers_sublist kind p).subset hm)
  exact h x hx

theorem keepers_after : (after o i lhs).numbers isKeeper = lhs.numbers isKeeper := by
  simp [numbers, isKeeper]

end Numbers

variable {items : List Operand}

def Continues (items : List Operand) (xs : List (Operand × Nat)) : Prop :=
  xs = [] ∨ ∃ earlier x, items.zipIdx = earlier ++ x :: xs ∧ x.1.isBlank = false

theorem continues_of_suffix {x : Operand × Nat} {xs : List (Operand × Nat)}
    (h : x :: xs <:+ items.zipIdx) (hx : x.1.isBlank = false) : Continues items xs :=
  have ⟨earlier, h⟩ := h
  .inr ⟨earlier, x, h.symm, hx⟩

theorem take_of_zipIdx {xs ys : List (Operand × Nat)} {x : Operand} {i : Nat}
    (h : items.zipIdx = xs ++ (x, i) :: ys) : items.take i = xs.map Prod.fst := by
  have hitems : items = xs.map Prod.fst ++ x :: ys.map Prod.fst := by
    rw [← List.zipIdx_map_fst 0 items, h, List.map_append, List.map_cons]
  have hi : i = xs.length := by
    have hget : items.zipIdx[xs.length]? = some (x, i) := by simp [h]
    have hx : items[xs.length]? = some x := by
      rw [hitems, List.getElem?_append_right (by simp)]
      simp
    simpa [List.getElem?_zipIdx, hx, eq_comm] using hget
  rw [hi, hitems]
  exact List.take_left' (List.length_map ..)

theorem mem_of_isBlank {as bs cs ds : List Operand} {x y : Operand}
    (h : as ++ x :: bs = cs ++ y :: ds) (hx : x.isBlank = false) (hy : y.isBlank = true)
    (hd : ∀ d ∈ ds, d.isBlank = true) : y ∈ bs := by
  have hne : ∀ z : Operand, z.isBlank = true → z ≠ x := by
    rintro z hz rfl
    exact Bool.false_ne_true (hx.symm.trans hz)
  obtain ⟨l, -, h⟩ | ⟨l, -, h⟩ := List.append_eq_append_iff.mp h
  · cases l with
    | nil => exact absurd (List.cons.inj h).1.symm (hne y hy)
    | cons z l =>
      obtain ⟨-, rfl⟩ := List.cons.inj h
      simp
  · cases l with
    | nil => exact absurd (List.cons.inj h).1 (hne y hy)
    | cons z l =>
      obtain ⟨-, rfl⟩ := List.cons.inj h
      exact absurd rfl (hne x (hd x (by simp)))

theorem Continues.stop_eq {blanks xs : List (Operand × Nat)} {o : Instance} {i : Nat} {stop : Bool}
    (h : Continues items (blanks ++ (.operator o, i) :: xs))
    (hb : ∀ b ∈ blanks, b.1.isSkipped stop = true) (hi : BeginsLine items i) : stop = false := by
  obtain h | ⟨earlier, x, h, hx⟩ := h
  · simp at h
  · obtain ⟨before, t, after, htake, ht, hblank⟩ := hi
    have hitems : items.take i = (earlier ++ x :: blanks).map Prod.fst :=
      take_of_zipIdx (by simpa using h)
    rw [hitems, List.map_append, List.map_cons] at htake
    have hmem := mem_of_isBlank htake hx (by simp [isBlank, Token.isBlank, ht]) hblank
    obtain ⟨b, hb', hbt⟩ := List.mem_map.mp hmem
    have hskip := hb b hb'
    rw [hbt] at hskip
    simpa [isSkipped, ht] using hskip

theorem Reads.beginsLine {lhs : Option Phrase} {min : Nat} {stop : Bool}
    {xs ys : List (Operand × Nat)} {p : Phrase} (h : Reads lhs min stop xs p ys)
    (hs : xs <:+ items.zipIdx) (hl : lhs.isSome → Continues items xs) :
    Continues items ys ∧ ∀ m ∈ p.numbers isExtension, BeginsLine items m →
      m ∈ lhs.elim [] (numbers isExtension) ∨ stop = false := by
  -- `stop` never goes from set to unset, neither in right operands nor along the expression
  induction h with
  | absent => exact ⟨.inl rfl, nofun⟩
  | blank hb h ih => exact ih ((List.suffix_cons _ _).trans hs) nofun
  | leaf hb hf h ih => exact ih ((List.suffix_cons _ _).trans hs) fun _ => continues_of_suffix hs hb
  | before hf hr h ihr ih =>
    have hxs := (List.suffix_cons _ _).trans hs
    obtain ⟨hys, hrhs⟩ := ihr hxs nofun
    obtain ⟨hzs, hext⟩ := ih (hr.suffix.trans hxs) fun _ => hys
    refine ⟨hzs, fun m hm hn => .inr ?_⟩
    have hstop := (hext m hm hn).elim (fun hm => (hrhs m hm hn).resolve_left nofun) id
    exact (Bool.or_eq_false_iff.mp hstop).1
  | leadingAfter hf h ih =>
    exact ih ((List.suffix_cons _ _).trans hs) fun _ => continues_of_suffix hs rfl
  | leadingBetween hf hr h ihr ih =>
    have hxs := (List.suffix_cons _ _).trans hs
    obtain ⟨hys, hrhs⟩ := ihr hxs nofun
    obtain ⟨hzs, hext⟩ := ih (hr.suffix.trans hxs) fun _ => hys
    refine ⟨hzs, fun m hm hn => .inr ?_⟩
    have hstop := (hext m hm hn).elim (fun hm => (hrhs m hm hn).resolve_left nofun) id
    exact (Bool.or_eq_false_iff.mp hstop).1
  | done h => exact ⟨hl rfl, fun m hm _ => .inl hm⟩
  | after blanks hb hf hmin h ih =>
    have ho := (List.suffix_append _ _).trans hs
    obtain ⟨hys, hext⟩ := ih ((List.suffix_cons _ _).trans ho) fun _ => continues_of_suffix ho rfl
    refine ⟨hys, fun m hm hn => ?_⟩
    obtain hm | hstop := hext m hm hn
    · rw [Option.elim_some, mem_numbers_after] at hm
      obtain hm | ⟨-, rfl⟩ := hm
      · exact .inl hm
      · exact .inr ((hl rfl).stop_eq hb hn)
    · exact .inr hstop
  | between blanks hb hf hmin hr h ihr ih =>
    have hxs := (List.suffix_cons _ _).trans ((List.suffix_append _ _).trans hs)
    obtain ⟨hys, hrhs⟩ := ihr hxs nofun
    obtain ⟨hzs, hext⟩ := ih (hr.suffix.trans hxs) fun _ => hys
    refine ⟨hzs, fun m hm hn => ?_⟩
    obtain hm | hstop := hext m hm hn
    · rw [Option.elim_some, mem_numbers_between] at hm
      obtain hm | ⟨-, rfl⟩ | hm := hm
      · exact .inl hm
      · exact .inr ((hl rfl).stop_eq hb hn)
      · exact .inr (Bool.or_eq_false_iff.mp ((hrhs m hm hn).resolve_left nofun)).1
    · exact .inr (Bool.or_eq_false_iff.mp hstop).1

def ConcealsKeepers (items : List Operand) (p : Phrase) : Prop :=
  ∀ m ∈ p.numbers isExtension, BeginsLine items m →
    ∀ j ∈ p.numbers isKeeper, j < m → p.Conceals j m

/-- What is known of a phrase that can be extended. As long as newlines are skipped after it, all
operators in it that keep newlines are concealed from what follows it. -/
structure InLine (items : List Operand) (stop : Bool) (p : Phrase) : Prop where
  concealsKeepers : p.ConcealsKeepers items
  conceals : stop = false →
    ∀ j ∈ p.numbers isKeeper, ∀ m, (∀ x ∈ p.places, x.2 < m) → p.Conceals j m

def Ascending (xs : List (Operand × Nat)) : Prop := xs.Pairwise fun x y => x.2 < y.2

namespace InLine

variable {stop : Bool} {q rhs : Phrase} {o : Instance} {i : Nat}

theorem absent : Phrase.absent.InLine items stop := ⟨nofun, nofun⟩

theorem leaf (item : Operand) : (Phrase.leaf item i).InLine items stop := ⟨nofun, nofun⟩

theorem after (hq : q.InLine items stop)
    (hi : BeginsLine items i → q.isAbsent = false → stop = false)
    (hasc : Ascending (Phrase.after o i q).places) : (Phrase.after o i q).InLine items stop := by
  have hlt : ∀ x ∈ q.places, x.2 < i := fun x hx =>
    (List.pairwise_append.mp hasc).2.2 x hx _ (List.mem_singleton_self _)
  refine ⟨fun m hm hn j hj hjm => ?_, fun hstop j hj m hm => ?_⟩ <;> rw [keepers_after] at hj
  · obtain hm | ⟨hne, rfl⟩ := mem_numbers_after.mp hm
    · exact hq.concealsKeepers m hm hn j hj hjm
    · exact hq.conceals (hi hn (by simpa [isExtension] using hne)) j hj m hlt
  · exact hq.conceals hstop j hj m fun x hx => hm x (List.mem_append_left _ hx)

theorem between (hq : q.InLine items stop) (hr : rhs.ConcealsKeepers items)
    (hi : BeginsLine items i → q.isAbsent = false → stop = false)
    (hext : ∀ m ∈ rhs.numbers isExtension, BeginsLine items m →
      (stop || o.definition.keepsNewline) = false)
    (hasc : Ascending (Phrase.between o i q rhs).places) :
    (Phrase.between o i q rhs).InLine items (stop || o.definition.keepsNewline) := by
  obtain ⟨-, hright, hleft⟩ := List.pairwise_append.mp hasc
  have hlt : ∀ x ∈ q.places, x.2 < i := fun x hx => hleft x hx _ (List.mem_cons_self ..)
  have hgt : ∀ x ∈ rhs.places, i < x.2 := (List.pairwise_cons.mp hright).1
  refine ⟨fun m hm hn j hj hjm => ?_, fun hstop j hj m hm => ?_⟩
  · -- the pairs of a part are left to it, and across the parts newlines are skipped before `m`
    obtain hm | ⟨hne, rfl⟩ | hm := mem_numbers_between.mp hm
    · have hmi : m < i := of_mem_numbers (P := (· < i)) hm hlt
      obtain hj | ⟨-, rfl⟩ | hj := mem_numbers_between.mp hj
      · exact .inl (hq.concealsKeepers m hm hn j hj hjm)
      · omega
      · have hij : i < j := of_mem_numbers (P := (i < ·)) hj hgt
        omega
    · obtain hj | ⟨-, rfl⟩ | hj := mem_numbers_between.mp hj
      · exact .inl (hq.conceals (hi hn (by simpa [isExtension] using hne)) j hj m hlt)
      · omega
      · have hij : m < j := of_mem_numbers (P := (m < ·)) hj hgt
        omega
    · have him : i < m := of_mem_numbers (P := (i < ·)) hm hgt
      obtain ⟨hstop, hk⟩ := Bool.or_eq_false_iff.mp (hext m hm hn)
      obtain hj | ⟨hk', -⟩ | hj := mem_numbers_between.mp hj
      · exact .inl (hq.conceals hstop j hj m fun x hx => Nat.lt_trans (hlt x hx) him)
      · exact absurd (hk.symm.trans hk') nofun
      · exact .inr (.inr (hr m hm hn j hj hjm))
  · obtain ⟨hstop, hk⟩ := Bool.or_eq_false_iff.mp hstop
    obtain hj | ⟨hk', -⟩ | hj := mem_numbers_between.mp hj
    · exact .inl (hq.conceals hstop j hj m fun x hx => hm x (List.mem_append_left _ hx))
    · exact absurd (hk.symm.trans hk') nofun
    · exact .inr (.inl ⟨hk, hj, fun x hx => hm x (by simp [places, hx])⟩)

theorem leading {right : Nat} {xs ys : List (Operand × Nat)}
    (h : Reads none right (stop || o.definition.keepsNewline) xs rhs ys)
    (hs : xs <:+ items.zipIdx) (hr : rhs.ConcealsKeepers items)
    (hasc : Ascending (solid ((.operator o, i) :: xs))) :
    Ascending ((Phrase.between o i .absent rhs).places ++ solid ys) ∧
      (Phrase.between o i .absent rhs).InLine items (stop || o.definition.keepsNewline) := by
  rw [← places_before h.places_append] at hasc
  refine ⟨hasc, InLine.absent.between hr nofun ?_ (List.pairwise_append.mp hasc).1⟩
  exact fun m hm hn => ((h.beginsLine hs nofun).2 m hm hn).resolve_left nofun

theorem before (h : (Phrase.between o i .absent rhs).InLine items stop) :
    (Phrase.before o i rhs).InLine items stop where
  concealsKeepers m hm hn j hj hjm := (h.concealsKeepers m hm hn j hj hjm).resolve_left id
  conceals hstop j hj m hm := (h.conceals hstop j hj m hm).resolve_left id

end InLine

/-- A phrase conceals its operators that keep newlines if it is read on from one that is in line. -/
theorem Reads.concealsKeepers {lhs : Option Phrase} {min : Nat} {stop : Bool}
    {xs ys : List (Operand × Nat)} {p : Phrase} (h : Reads lhs min stop xs p ys)
    (hs : xs <:+ items.zipIdx) (hc : lhs.isSome → Continues items xs)
    (hasc : Ascending (lhs.elim [] places ++ solid xs))
    (hl : ∀ q, lhs = some q → q.InLine items stop) : p.ConcealsKeepers items := by
  -- a right operand is read with the flag of its operator, and the flag is not handed back
  induction h with
  | absent => exact nofun
  | blank hb h ih =>
    rw [solid_cons_blank hb] at hasc
    exact ih ((List.suffix_cons _ _).trans hs) nofun hasc nofun
  | leaf hb hf h ih =>
    rw [solid_cons_item hb] at hasc
    refine ih ((List.suffix_cons _ _).trans hs) (fun _ => continues_of_suffix hs hb) hasc ?_
    rintro q ⟨⟩
    exact .leaf _
  | before hf hr h ihr ih =>
    have hxs := (List.suffix_cons _ _).trans hs
    have hys := (hr.beginsLine hxs nofun).1
    have hrhs := ihr hxs nofun (List.pairwise_cons.mp hasc).2 nofun
    obtain ⟨hasc, hline⟩ := InLine.leading hr hxs hrhs hasc
    refine ih (hr.suffix.trans hxs) (fun _ => hys) hasc ?_
    rintro q ⟨⟩
    exact hline.before
  | leadingAfter hf h ih =>
    rw [Option.elim_none, solid_cons_item rfl, List.nil_append] at hasc
    refine ih ((List.suffix_cons _ _).trans hs) (fun _ => continues_of_suffix hs rfl) hasc ?_
    rintro q ⟨⟩
    exact InLine.absent.after nofun (List.pairwise_singleton _ _)
  | leadingBetween hf hr h ihr ih =>
    have hxs := (List.suffix_cons _ _).trans hs
    have hys := (hr.beginsLine hxs nofun).1
    have hrhs := ihr hxs nofun (List.pairwise_cons.mp hasc).2 nofun
    obtain ⟨hasc, hline⟩ := InLine.leading hr hxs hrhs hasc
    refine ih (hr.suffix.trans hxs) (fun _ => hys) hasc ?_
    rintro q ⟨⟩
    exact hline
  | done h => exact (hl _ rfl).concealsKeepers
  | after blanks hb hf hmin h ih =>
    have ho := (List.suffix_append _ _).trans hs
    rw [Option.elim_some, ← places_after hb] at hasc
    refine ih ((List.suffix_cons _ _).trans ho) (fun _ => continues_of_suffix ho rfl) hasc ?_
    rintro q ⟨⟩
    refine (hl _ rfl).after ?_ (List.pairwise_append.mp hasc).1
    exact fun hn _ => (hc rfl).stop_eq hb hn
  | between blanks hb hf hmin hr h ihr ih =>
    have hxs := (List.suffix_cons _ _).trans ((List.suffix_append _ _).trans hs)
    obtain ⟨hys, hext⟩ := hr.beginsLine hxs nofun
    have hsolid := (List.pairwise_append.mp hasc).2.1
    rw [solid_skipped hb, solid_cons_item rfl] at hsolid
    have hrhs := ihr hxs nofun (List.pairwise_cons.mp hsolid).2 nofun
    rw [Option.elim_some, ← places_between hb hr.places_append] at hasc
    refine ih (hr.suffix.trans hxs) (fun _ => hys) hasc ?_
    rintro q ⟨⟩
    refine (hl _ rfl).between hrhs ?_ ?_ (List.pairwise_append.mp hasc).1
    · exact fun hn _ => (hc rfl).stop_eq hb hn
    · exact fun m hm hn => (hext m hm hn).resolve_left nofun

theorem ascending_zipIdx (items : List Operand) : Ascending items.zipIdx := by
  have h : (items.zipIdx.map Prod.snd).Pairwise (· < ·) := by
    rw [List.zipIdx_map_snd]
    exact List.pairwise_lt_range'
  exact List.pairwise_map.mp h

theorem ReadsAll.concealsKeepers {xs : List (Operand × Nat)} {ps : List Phrase} (h : ReadsAll xs ps)
    (hs : xs <:+ items.zipIdx) : ∀ p ∈ ps, p.ConcealsKeepers items := by
  induction h with
  | nil => exact nofun
  | blank hb h ih => exact ih ((List.suffix_cons _ _).trans hs)
  | phrase hb hp h ih =>
    have hasc := ((ascending_zipIdx items).sublist hs.sublist).filter fun x => !x.1.isBlank
    refine List.forall_mem_cons.mpr ⟨?_, ih (hp.suffix.trans hs)⟩
    exact hp.concealsKeepers hs nofun hasc nofun

theorem keeper_of_conceals {p : Phrase} {j m : Nat} (h : p.Conceals j m) :
    j ∈ p.numbers isKeeper ∧ j < m := by
  induction p with
  | absent | leaf item i => exact h.elim
  | before o i rhs ih =>
    have hrhs : j ∈ rhs.numbers isKeeper ∧ j < m := by
      obtain ⟨-, hj, hlt⟩ | h := h
      · exact ⟨hj, of_mem_numbers (P := (· < m)) hj hlt⟩
      · exact ih h
    exact ⟨List.mem_append_right _ hrhs.1, hrhs.2⟩
  | after o i lhs ih =>
    rw [keepers_after]
    exact ih h
  | between o i lhs rhs ihl ihr =>
    rw [mem_numbers_between]
    obtain h | ⟨-, hj, hlt⟩ | h := h
    · exact ⟨.inl (ihl h).1, (ihl h).2⟩
    · exact ⟨.inr (.inr hj), of_mem_numbers (P := (· < m)) hj hlt⟩
    · exact ⟨.inr (.inr (ihr h).1), (ihr h).2⟩

end Phrase

/-- A newline ends every expression in which an operator keeps newlines, unless that operator is
concealed: an operator that skips newlines has it in its right operand, and the expression goes on
behind this operand. -/
theorem resolveAll_endsAtNewline (items : List Operand) :
    ∃ ps, Phrase.DescribeAll ps items (resolveAll items) ∧
      ∀ p ∈ ps, p.ConcealsKeepers items ∧
        (p.EndsAtNewline items ↔ ∀ m ∈ p.numbers Phrase.isExtension,
          Operand.BeginsLine items m → ∀ j, ¬ p.Conceals j m) := by
  obtain ⟨ps, hps, hr⟩ := Phrase.exists_describeAll items
  refine ⟨ps, hps, fun p hp => ?_⟩
  have hc := hr.concealsKeepers List.suffix_rfl p hp
  refine ⟨hc, fun h m hm hn j hj => ?_, fun h m hm hn j hj => ?_⟩
  · obtain ⟨hkeeper, hlt⟩ := Phrase.keeper_of_conceals hj
    exact Nat.not_le_of_lt hlt (h m hm hn j hkeeper)
  · exact Nat.le_of_not_lt fun hlt => h m hm hn j (hc m hm hn j hj hlt)

namespace Sample

def tilde : Instance := sign '~' (.before 1)

def equals : Instance := sign '=' (.between 2 1) true

def lines : List Operand :=
  [.operator tilde, letter "x", .operator equals, letter "1", .token ⟨.newline, "\n", ⟨0, 0⟩⟩, plus,
    letter "2"]

def linesRead : Phrase :=
  .between (sign '+' (.between 10 11)) 5
    (.before tilde 0 (.between equals 2 (.leaf (letter "x") 1) (.leaf (letter "1") 3)))
    (.leaf (letter "2") 6)

end Sample

theorem lines_not_endsAtNewline :
    ¬ ∃ ps, Phrase.DescribeAll ps Sample.lines (resolveAll Sample.lines) ∧
      ∀ p ∈ ps, p.EndsAtNewline Sample.lines := by
  rintro ⟨ps, hps, h⟩
  have hvalue : (resolveAll Sample.lines).value = [Sample.linesRead.tree 0 0] := rfl
  obtain ⟨p, rfl, ht⟩ := List.map_eq_singleton_iff.mp (hps.value_eq.symm.trans hvalue)
  have hplaces : p.places ++ [] = Sample.linesRead.places ++ [] := hps.places_eq
  obtain ⟨rfl, -⟩ := Phrase.eq_of_tree_places ht hplaces nofun nofun
  have hn : Operand.BeginsLine Sample.lines 5 := ⟨Sample.lines.take 4, _, [], rfl, rfl, nofun⟩
  have hle : 5 ≤ 2 := h _ (List.mem_singleton_self _) 5 (by decide) hn 2 (by decide)
  exact absurd hle (by decide)

end Distfix
