import Distfix.GrammarError

namespace Distfix

structure Spellings where
  texts : List String
  sorted : texts.Pairwise (· < ·)
  nonempty : texts ≠ []
  noEmpty : "" ∉ texts
deriving DecidableEq

namespace Spellings

def insertSorted (t : String) : List String → List String
  | [] => [t]
  | u :: us =>
    if t < u then t :: u :: us
    else if t = u then u :: us
    else u :: insertSorted t us

def sort : List String → List String
  | [] => []
  | t :: ts => insertSorted t (sort ts)

theorem mem_insertSorted {t u : String} {us : List String} :
    u ∈ insertSorted t us ↔ u = t ∨ u ∈ us := by
  induction us with
  | nil => simp [insertSorted]
  | cons v vs ih =>
    simp only [insertSorted]
    split
    · simp
    · split
      · rename_i heq
        subst heq
        simp
      · simp only [List.mem_cons, ih]
        grind

theorem mem_sort {t : String} {ts : List String} : t ∈ sort ts ↔ t ∈ ts := by
  induction ts with
  | nil => simp [sort]
  | cons u us ih => simp [sort, mem_insertSorted, ih]

theorem insertSorted_sorted {t : String} {us : List String} (h : us.Pairwise (· < ·)) :
    (insertSorted t us).Pairwise (· < ·) := by
  induction us with
  | nil => simp [insertSorted]
  | cons v vs ih =>
    obtain ⟨hv, hvs⟩ := List.pairwise_cons.mp h
    simp only [insertSorted]
    split
    · rename_i hlt
      refine List.pairwise_cons.mpr ⟨fun w hw => ?_, h⟩
      obtain rfl | hw := List.mem_cons.mp hw
      · exact hlt
      · exact String.lt_trans hlt (hv w hw)
    · split
      · exact h
      · rename_i hnlt hne
        refine List.pairwise_cons.mpr ⟨fun w hw => ?_, ih hvs⟩
        obtain rfl | hw := mem_insertSorted.mp hw
        · refine Classical.byContradiction fun hvw => hne ?_
          exact String.le_antisymm (String.not_lt.mp hvw) (String.not_lt.mp hnlt)
        · exact hv w hw

theorem sort_sorted (ts : List String) : (sort ts).Pairwise (· < ·) := by
  induction ts with
  | nil => exact List.Pairwise.nil
  | cons t ts ih => exact insertSorted_sorted ih

/-- An empty set is reported before an empty text. -/
def ofList (ts : List String) : Except GrammarError Spellings :=
  if hs : sort ts = [] then .error .emptyTokenSet
  else if he : "" ∈ sort ts then .error .emptyToken
  else .ok ⟨sort ts, sort_sorted ts, hs, he⟩

def one (text : String) (h : text ≠ "") : Spellings :=
  ⟨[text], List.pairwise_singleton _ _, List.cons_ne_nil _ _, by simpa using h.symm⟩

def accepts (s : Spellings) (text : String) : Bool := s.texts.contains text

def render (s : Spellings) : String := "|".intercalate s.texts

theorem accepts_iff (s : Spellings) (text : String) : s.accepts text = true ↔ text ∈ s.texts := by
  simp [accepts]

theorem accepts_ofList {ts : List String} {s : Spellings} (h : ofList ts = .ok s) (text : String) :
    s.accepts text = true ↔ text ∈ ts := by
  unfold ofList at h
  split at h
  · simp at h
  · split at h
    · simp at h
    · injection h with h
      subst h
      rw [accepts_iff]
      exact mem_sort

end Spellings

end Distfix
