import Distfix.Matching.Pending
import Distfix.Operand
import Mathlib.Data.List.Basic

namespace Distfix

def Child.countIn (index : Nat) (cs : List Child) : Nat := cs.countP (·.index == index)

theorem Instance.count_eq_countIn (i : Instance) (index : Nat) :
    i.count index = Child.countIn index i.children :=
  List.countP_eq_length_filter.symm

theorem drop_eq_cons {α : Type} {l rest : List α} {n : Nat} {a : α} (h : l.drop n = a :: rest) :
    l[n]? = some a ∧ l.drop (n + 1) = rest :=
  ⟨by rw [← List.head?_drop, h, List.head?_cons], by rw [← List.tail_drop, h, List.tail_cons]⟩

section

variable (seps : List Separator) (count : Nat → Nat)

/-- No separator from `first` on and before `index` still has to occur. -/
def LegalFrom (first index : Nat) : Prop :=
  first ≤ index ∧ ∀ m s, first ≤ m → m < index → seps[m]? = some s → s.repeats.min ≤ count m

variable {seps count} {first index : Nat} {text : String}

theorem legalFrom_self : LegalFrom seps count first first :=
  ⟨Nat.le_refl _, fun _ _ hf hm _ => absurd hf (Nat.not_le.mpr hm)⟩

theorem legalFrom_iff {s : Separator} (hs : seps[first]? = some s) :
    LegalFrom seps count first index ↔
      index = first ∨ s.repeats.min ≤ count first ∧ LegalFrom seps count (first + 1) index := by
  constructor
  · rintro ⟨hle, hmin⟩
    obtain rfl | hlt := Nat.eq_or_lt_of_le hle
    · exact .inl rfl
    · exact .inr ⟨hmin first s (Nat.le_refl _) hlt hs, hlt,
        fun m s' hf hm hs' => hmin m s' (Nat.le_of_succ_le hf) hm hs'⟩
  · rintro (rfl | ⟨hs', hle, hmin⟩)
    · exact legalFrom_self
    · refine ⟨Nat.le_of_succ_le hle, fun m s'' hf hm hm' => ?_⟩
      obtain rfl | hlt := Nat.eq_or_lt_of_le hf
      · obtain rfl := Option.some.inj (hs.symm.trans hm')
        exact hs'
      · exact hmin m s'' hlt hm hm'

/-- `index` is the lowest legal separator that accepts the text. -/
structure Closes (seps : List Separator) (count : Nat → Nat) (first : Nat) (text : String)
    (index : Nat) : Prop where
  legal : LegalFrom seps count first index
  accepts : ∃ s, seps[index]? = some s ∧ s.accepts text = true
  lowest : ∀ l s, l < index → LegalFrom seps count first l → seps[l]? = some s →
    s.accepts text = false

def ClosesNothing (seps : List Separator) (count : Nat → Nat) (first : Nat) (text : String) :
    Prop :=
  ∀ l s, LegalFrom seps count first l → seps[l]? = some s → s.accepts text = false

variable (count)

theorem closeIn_some (hc : ∀ m, first < m → count m = 0) {q : Pending}
    (h : Pending.closeIn text ((seps.drop first).zipIdx first) (count first) = some (index, q)) :
    Closes seps count first text index ∧ ∀ s, seps[index]? = some s →
      q = Pending.advance s index (count index) ((seps.drop (index + 1)).zipIdx (index + 1)) := by
  induction hl : seps.drop first generalizing first with
  | nil => simp [hl, Pending.closeIn] at h
  | cons s rest ih =>
    obtain ⟨hs, hr⟩ := drop_eq_cons hl
    rw [hl, List.zipIdx_cons, Pending.closeIn] at h
    split at h
    · rename_i ha
      obtain ⟨rfl, rfl⟩ := Prod.mk.inj (Option.some.inj h)
      refine ⟨⟨legalFrom_self, ⟨s, hs, ha⟩, fun l _ hl' hlegal _ => ?_⟩, fun s' hs' => ?_⟩
      · exact absurd hlegal.1 (Nat.not_le.mpr hl')
      · obtain rfl := Option.some.inj (hs.symm.trans hs')
        rw [hr]
    · rename_i ha
      split at h
      · cases h
      · rename_i hmin
        rw [← hr, ← hc (first + 1) (Nat.lt_succ_self _)] at h
        obtain ⟨⟨hlegal, hacc, hlow⟩, hq⟩ := ih (fun m hm => hc m (Nat.lt_of_succ_lt hm)) h hr
        refine ⟨⟨(legalFrom_iff hs).mpr (.inr ⟨Nat.not_lt.mp hmin, hlegal⟩), hacc, ?_⟩, hq⟩
        intro l s' hli hll hs'
        obtain rfl | ⟨-, hll⟩ := (legalFrom_iff hs).mp hll
        · obtain rfl := Option.some.inj (hs.symm.trans hs')
          simpa using ha
        · exact hlow l s' hli hll hs'

theorem closeIn_none (hc : ∀ m, first < m → count m = 0)
    (h : Pending.closeIn text ((seps.drop first).zipIdx first) (count first) = none) :
    ClosesNothing seps count first text := by
  induction hl : seps.drop first generalizing first with
  | nil =>
    intro l s hlegal hs
    have hlen : seps.length ≤ l := Nat.le_trans (List.drop_eq_nil_iff.mp hl) hlegal.1
    simp [hlen] at hs
  | cons s rest ih =>
    obtain ⟨hs, hr⟩ := drop_eq_cons hl
    rw [hl, List.zipIdx_cons, Pending.closeIn] at h
    split at h
    · cases h
    · rename_i ha
      intro l s' hlegal hs'
      obtain rfl | ⟨hmin, hlegal⟩ := (legalFrom_iff hs).mp hlegal
      · obtain rfl := Option.some.inj (hs.symm.trans hs')
        simpa using ha
      · rw [if_neg (Nat.not_lt.mpr hmin), ← hr, ← hc (first + 1) (Nat.lt_succ_self _)] at h
        exact ih (fun m hm => hc m (Nat.lt_of_succ_lt hm)) h hr l s' hlegal hs'

theorem requiredIn_none (hc : ∀ m, first < m → count m = 0)
    (h : Pending.requiredIn ((seps.drop first).zipIdx first) (count first) = none) (m : Nat)
    (s : Separator) (hm : first ≤ m) (hs : seps[m]? = some s) : s.repeats.min ≤ count m := by
  induction hl : seps.drop first generalizing first with
  | nil =>
    have hlen : seps.length ≤ m := Nat.le_trans (List.drop_eq_nil_iff.mp hl) hm
    simp [hlen] at hs
  | cons s' rest ih =>
    obtain ⟨hs', hr⟩ := drop_eq_cons hl
    rw [hl, List.zipIdx_cons, Pending.requiredIn] at h
    split at h
    · cases h
    · rename_i hmin
      obtain rfl | hlt := Nat.eq_or_lt_of_le hm
      · obtain rfl := Option.some.inj (hs.symm.trans hs')
        exact Nat.not_lt.mp hmin
      · rw [← hr, ← hc (first + 1) (Nat.lt_succ_self _)] at h
        exact ih (fun m' hm' => hc m' (Nat.lt_of_succ_lt hm')) h hlt hr

end

end Distfix
