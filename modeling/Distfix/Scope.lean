import Distfix.GrammarError

namespace Distfix

/-- The name of a definition in a catalog. -/
structure DefinitionRef where
  index : Nat
deriving DecidableEq

/-- Operators by id, in the order in which the ids were first bound. -/
structure Scope where
  entries : List (OperatorId × DefinitionRef)
  distinct : (entries.map Prod.fst).Nodup
deriving DecidableEq

namespace Scope

def empty : Scope := ⟨[], List.nodup_nil⟩

def ids (s : Scope) : List OperatorId := s.entries.map Prod.fst

def length (s : Scope) : Nat := s.entries.length

def get? (s : Scope) (id : OperatorId) : Option DefinitionRef := s.entries.lookup id

/-- What an id is bound to, and the entries in which it is bound to `d`: in its place, or at the end
when it is new. -/
def putEntry (id : OperatorId) (d : DefinitionRef) :
    List (OperatorId × DefinitionRef) → Option DefinitionRef × List (OperatorId × DefinitionRef)
  | [] => (none, [(id, d)])
  | e :: es =>
    if e.1 = id then (some e.2, (id, d) :: es)
    else ((putEntry id d es).1, e :: (putEntry id d es).2)

def takeEntry (id : OperatorId) :
    List (OperatorId × DefinitionRef) → Option DefinitionRef × List (OperatorId × DefinitionRef)
  | [] => (none, [])
  | e :: es =>
    if e.1 = id then (some e.2, es) else ((takeEntry id es).1, e :: (takeEntry id es).2)

section

variable {id : OperatorId} {d : DefinitionRef} {e : OperatorId × DefinitionRef}
  {es : List (OperatorId × DefinitionRef)}

theorem putEntry_cons_self (h : e.1 = id) : putEntry id d (e :: es) = (some e.2, (id, d) :: es) :=
  if_pos h

theorem putEntry_cons_of_ne (h : e.1 ≠ id) :
    putEntry id d (e :: es) = ((putEntry id d es).1, e :: (putEntry id d es).2) := if_neg h

theorem takeEntry_cons_self (h : e.1 = id) : takeEntry id (e :: es) = (some e.2, es) := if_pos h

theorem takeEntry_cons_of_ne (h : e.1 ≠ id) :
    takeEntry id (e :: es) = ((takeEntry id es).1, e :: (takeEntry id es).2) := if_neg h

end

theorem ids_putEntry (id : OperatorId) (d : DefinitionRef)
    (es : List (OperatorId × DefinitionRef)) :
    (putEntry id d es).2.map Prod.fst =
      if id ∈ es.map Prod.fst then es.map Prod.fst else es.map Prod.fst ++ [id] := by
  induction es with
  | nil => simp [putEntry]
  | cons e es ih =>
    by_cases h : e.1 = id
    · simp [putEntry_cons_self h, h]
    · have h' : ¬ id = e.1 := fun he => h he.symm
      simp only [putEntry_cons_of_ne h, List.map_cons, ih, List.mem_cons, h', false_or]
      split <;> rfl

theorem nodup_putEntry (id : OperatorId) (d : DefinitionRef)
    {es : List (OperatorId × DefinitionRef)} (h : (es.map Prod.fst).Nodup) :
    ((putEntry id d es).2.map Prod.fst).Nodup := by
  rw [ids_putEntry]
  split
  · exact h
  · rename_i hid
    rw [List.nodup_append]
    refine ⟨h, by simp, fun a ha b hb => ?_⟩
    rw [List.mem_singleton] at hb
    subst hb
    exact fun he => hid (he ▸ ha)

theorem takeEntry_sublist (id : OperatorId) (es : List (OperatorId × DefinitionRef)) :
    (takeEntry id es).2.Sublist es := by
  induction es with
  | nil => exact .slnil
  | cons e es ih =>
    by_cases h : e.1 = id
    · rw [takeEntry_cons_self h]
      exact List.sublist_cons_self e es
    · rw [takeEntry_cons_of_ne h]
      exact ih.cons_cons e

def put (s : Scope) (id : OperatorId) (d : DefinitionRef) : Option DefinitionRef × Scope :=
  ((putEntry id d s.entries).1, ⟨(putEntry id d s.entries).2, nodup_putEntry id d s.distinct⟩)

def take (s : Scope) (id : OperatorId) : Option DefinitionRef × Scope :=
  ((takeEntry id s.entries).1,
    ⟨(takeEntry id s.entries).2, s.distinct.sublist ((takeEntry_sublist id s.entries).map _)⟩)

def insert (s : Scope) (id : OperatorId) (d : DefinitionRef) : Scope := (s.put id d).2

def erase (s : Scope) (id : OperatorId) : Scope := (s.take id).2

def without (s : Scope) (ids : List OperatorId) : Scope := ids.foldl erase s

/-- The right scope wins, and its new ids follow those of the left one in order. -/
def merged (s t : Scope) : Scope :=
  t.entries.foldl (fun s e => s.insert e.1 e.2) s

/-- The same ids in the same order, bound to the very same definitions. -/
def shares (s t : Scope) : Bool :=
  s.length == t.length && (s.entries.zip t.entries).all fun e => e.1 == e.2

theorem shares_iff {s t : Scope} : s.shares t = true ↔ s = t := by
  rw [shares, Bool.and_eq_true, beq_iff_eq, List.all_eq_true]
  constructor
  · rintro ⟨hl, hall⟩
    have hentries : s.entries = t.entries := by
      refine List.ext_getElem hl fun i hs ht => ?_
      have hi : i < (s.entries.zip t.entries).length := by
        rw [List.length_zip]
        exact Nat.lt_min.mpr ⟨hs, ht⟩
      have hz := hall _ (List.getElem_mem hi)
      rwa [List.getElem_zip, beq_iff_eq] at hz
    cases s
    cases t
    cases hentries
    rfl
  · rintro rfl
    refine ⟨rfl, fun e he => ?_⟩
    rw [List.zip_eq_zipWith, List.zipWith_self, List.mem_map] at he
    obtain ⟨a, -, rfl⟩ := he
    exact beq_self_eq_true _

end Scope

structure DirectoryRef where
  index : Nat
deriving DecidableEq

abbrev Directory := List (String × Scope)

/-- How the scope of a region comes from the enclosing one. The scope that a table names is looked
up in a directory, not before the generator is applied. -/
inductive Generator where
  | replace (scope : Scope)
  | extend (additions : Scope)
  | without (ids : List OperatorId)
  | named (directory : DirectoryRef) (name : String) (inherit : Bool)
  | custom (derive : Scope → Scope)

end Distfix
