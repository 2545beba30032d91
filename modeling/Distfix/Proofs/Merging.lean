import Distfix.Catalog
import Mathlib.Data.List.Nodup

namespace Distfix

namespace Scope

section Entries

variable {es : List (OperatorId × DefinitionRef)}

theorem lookup_eq_none {id : OperatorId} : es.lookup id = none ↔ id ∉ es.map Prod.fst := by
  rw [List.lookup_eq_none_iff]
  simp only [bne_iff_ne, List.mem_map, not_exists, not_and]
  exact forall₂_congr fun e _ => ne_comm

theorem lookup_cons (e : OperatorId × DefinitionRef) (es : List (OperatorId × DefinitionRef))
    (id : OperatorId) : (e :: es).lookup id = if id = e.1 then some e.2 else es.lookup id := by
  rw [List.lookup_cons]
  by_cases h : id = e.1
  · rw [if_pos h, beq_iff_eq.mpr h]
  · rw [if_neg h, beq_false_of_ne h]

theorem lookup_putEntry (id other : OperatorId) (d : DefinitionRef) :
    (putEntry id d es).2.lookup other = if other = id then some d else es.lookup other := by
  induction es with
  | nil => rw [putEntry, lookup_cons]
  | cons e es ih =>
    by_cases he : e.1 = id
    · subst he
      rw [putEntry_cons_self rfl, lookup_cons, lookup_cons]
      by_cases h : other = e.1 <;> simp [h]
    · rw [putEntry_cons_of_ne he, lookup_cons, lookup_cons, ih]
      by_cases h : other = e.1
      · subst h
        simp [he]
      · simp [h]

theorem putEntry_of_notMem {id : OperatorId} (d : DefinitionRef) (h : id ∉ es.map Prod.fst) :
    (putEntry id d es).2 = es ++ [(id, d)] := by
  induction es with
  | nil => rfl
  | cons e es ih =>
    simp only [List.map_cons, List.mem_cons, not_or] at h
    rw [putEntry_cons_of_ne (Ne.symm h.1), ih h.2, List.cons_append]

theorem putEntry_fst (id : OperatorId) (d : DefinitionRef) :
    (putEntry id d es).1 = es.lookup id := by
  induction es with
  | nil => rfl
  | cons e es ih =>
    by_cases he : e.1 = id
    · rw [putEntry_cons_self he, lookup_cons, if_pos he.symm]
    · rw [putEntry_cons_of_ne he, ih, lookup_cons, if_neg (Ne.symm he)]

theorem takeEntry_fst (id : OperatorId) : (takeEntry id es).1 = es.lookup id := by
  induction es with
  | nil => rfl
  | cons e es ih =>
    by_cases he : e.1 = id
    · rw [takeEntry_cons_self he, lookup_cons, if_pos he.symm]
    · rw [takeEntry_cons_of_ne he, ih, lookup_cons, if_neg (Ne.symm he)]

theorem takeEntry_snd (h : (es.map Prod.fst).Nodup) (id : OperatorId) :
    (takeEntry id es).2 = es.filter (·.1 ≠ id) := by
  induction es with
  | nil => rfl
  | cons e es ih =>
    rw [List.map_cons, List.nodup_cons] at h
    by_cases he : e.1 = id
    · have hrest : es.filter (·.1 ≠ id) = es := by
        refine List.filter_eq_self.mpr fun x hx => decide_eq_true fun heq => h.1 ?_
        rw [he, ← heq]
        exact List.mem_map_of_mem hx
      rw [takeEntry_cons_self he, List.filter_cons_of_neg (by simpa using he), hrest]
    · rw [takeEntry_cons_of_ne he, ih h.2, List.filter_cons_of_pos (by simpa using he)]

theorem lookup_filter (es : List (OperatorId × DefinitionRef)) (keep : OperatorId → Bool)
    (id : OperatorId) :
    (es.filter (keep ·.1)).lookup id = if keep id then es.lookup id else none := by
  induction es with
  | nil => simp
  | cons e es ih =>
    rw [List.filter_cons, lookup_cons]
    by_cases hk : keep e.1 = true
    · rw [if_pos hk, lookup_cons, ih]
      by_cases h : id = e.1 <;> simp [h, hk]
    · rw [if_neg hk, ih]
      by_cases h : id = e.1 <;> simp [h, hk]

theorem filterMap_lookup (h : (es.map Prod.fst).Nodup) :
    (es.map Prod.fst).filterMap (fun id => (es.lookup id).map (id, ·)) = es := by
  induction es with
  | nil => rfl
  | cons e es ih =>
    rw [List.map_cons, List.nodup_cons] at h
    have hrest : (es.map Prod.fst).filterMap (fun id =>
        ((e :: es).lookup id).map (id, ·)) = es := by
      refine Eq.trans (List.filterMap_congr fun id hid => ?_) (ih h.2)
      have hne : id ≠ e.1 := fun heq => h.1 (heq ▸ hid)
      rw [lookup_cons, if_neg hne]
    rw [List.map_cons, List.filterMap_cons, hrest, lookup_cons, if_pos rfl]
    rfl

end Entries

variable {s t : Scope} {id : OperatorId}

theorem entries_eq (s : Scope) : s.entries = s.ids.filterMap fun id => (s.get? id).map (id, ·) :=
  (filterMap_lookup s.distinct).symm

theorem eq_of_get? (hids : s.ids = t.ids) (hget : ∀ id, s.get? id = t.get? id) : s = t := by
  have hentries : s.entries = t.entries := by
    rw [s.entries_eq, t.entries_eq, hids]
    exact List.filterMap_congr fun id _ => by rw [hget]
  cases s
  cases t
  cases hentries
  rfl

theorem ids_insert (s : Scope) (id : OperatorId) (d : DefinitionRef) :
    (s.insert id d).ids = if id ∈ s.ids then s.ids else s.ids ++ [id] :=
  ids_putEntry id d s.entries

theorem get?_insert (s : Scope) (id other : OperatorId) (d : DefinitionRef) :
    (s.insert id d).get? other = if other = id then some d else s.get? other :=
  lookup_putEntry id other d

theorem entries_insert_of_notMem (s : Scope) {id : OperatorId} (d : DefinitionRef)
    (h : id ∉ s.ids) :
    (s.insert id d).entries = s.entries ++ [(id, d)] := putEntry_of_notMem d h

theorem put_fst (s : Scope) (id : OperatorId) (d : DefinitionRef) : (s.put id d).1 = s.get? id :=
  putEntry_fst id d

theorem take_fst (s : Scope) (id : OperatorId) : (s.take id).1 = s.get? id := takeEntry_fst id

theorem entries_erase (s : Scope) (id : OperatorId) :
    (s.erase id).entries = s.entries.filter (·.1 ≠ id) := takeEntry_snd s.distinct id

theorem ids_erase (s : Scope) (id : OperatorId) : (s.erase id).ids = s.ids.filter (· ≠ id) := by
  rw [ids, entries_erase, ids, List.filter_map]
  rfl

theorem get?_erase (s : Scope) (id other : OperatorId) :
    (s.erase id).get? other = if other = id then none else s.get? other := by
  have h := lookup_filter s.entries (fun i => decide (i ≠ id)) other
  simp only [decide_eq_true_eq, ite_not] at h
  rw [get?, entries_erase]
  exact h

section Inserting

variable {es : List (OperatorId × DefinitionRef)}

theorem ids_foldl_insert (s : Scope) (h : (es.map Prod.fst).Nodup) :
    (es.foldl (fun s e => s.insert e.1 e.2) s).ids =
      s.ids ++ (es.map Prod.fst).filter (· ∉ s.ids) := by
  induction es generalizing s with
  | nil => simp
  | cons e es ih =>
    rw [List.map_cons, List.nodup_cons] at h
    rw [List.foldl_cons, ih _ h.2, ids_insert, List.map_cons, List.filter_cons]
    by_cases he : e.1 ∈ s.ids
    · simp [he]
    · have hfilter : (es.map Prod.fst).filter (· ∉ s.ids ++ [e.1]) =
          (es.map Prod.fst).filter (· ∉ s.ids) := by
        refine List.filter_congr fun id hid => ?_
        have hne : id ≠ e.1 := fun heq => h.1 (heq ▸ hid)
        simp [hne]
      rw [if_neg he, hfilter, if_pos (by simpa using he), List.append_assoc]
      rfl

theorem get?_foldl_insert (s : Scope) (h : (es.map Prod.fst).Nodup) (id : OperatorId) :
    (es.foldl (fun s e => s.insert e.1 e.2) s).get? id = (es.lookup id).or (s.get? id) := by
  induction es generalizing s with
  | nil => rfl
  | cons e es ih =>
    rw [List.map_cons, List.nodup_cons] at h
    rw [List.foldl_cons, ih _ h.2, get?_insert, lookup_cons]
    by_cases hid : id = e.1
    · subst hid
      simp [lookup_eq_none.mpr h.1]
    · simp [hid]

end Inserting

theorem ids_merged (s t : Scope) : (s.merged t).ids = s.ids ++ t.ids.filter (· ∉ s.ids) :=
  ids_foldl_insert s t.distinct

theorem get?_merged (s t : Scope) (id : OperatorId) :
    (s.merged t).get? id = (t.get? id).or (s.get? id) :=
  get?_foldl_insert s t.distinct id

theorem merged_assoc (a b c : Scope) : (a.merged b).merged c = a.merged (b.merged c) := by
  apply eq_of_get?
  · have hfilter : c.ids.filter (· ∉ a.ids ++ b.ids.filter (· ∉ a.ids)) =
        (c.ids.filter (· ∉ b.ids)).filter (· ∉ a.ids) := by
      rw [List.filter_filter]
      refine List.filter_congr fun id _ => ?_
      by_cases ha : id ∈ a.ids <;> simp [ha]
    rw [ids_merged, ids_merged, ids_merged, ids_merged, hfilter, List.filter_append,
      List.append_assoc]
  · intro id
    rw [get?_merged, get?_merged, get?_merged, get?_merged, Option.or_assoc]

theorem merged_self (a : Scope) : a.merged a = a := by
  apply eq_of_get?
  · rw [ids_merged, List.filter_eq_nil_iff.mpr fun id hid => by simpa using hid, List.append_nil]
  · intro id
    rw [get?_merged, Option.or_self]

theorem merged_empty (a : Scope) : a.merged .empty = a := rfl

theorem empty_merged (a : Scope) : Scope.empty.merged a = a := by
  apply eq_of_get?
  · rw [ids_merged]
    exact List.filter_eq_self.mpr fun id _ => rfl
  · intro id
    rw [get?_merged]
    exact Option.or_none

theorem foldl_merged (a acc : Scope) (xs : List Scope) :
    xs.foldl merged (a.merged acc) = a.merged (xs.foldl merged acc) := by
  induction xs generalizing acc with
  | nil => rfl
  | cons x xs ih => rw [List.foldl_cons, List.foldl_cons, merged_assoc, ih]

section Without

variable (s t : Scope) (ids : List OperatorId)

theorem entries_without : (s.without ids).entries = s.entries.filter fun e => e.1 ∉ ids := by
  rw [without]
  induction ids generalizing s with
  | nil => simp
  | cons id ids ih =>
    rw [List.foldl_cons, ih, entries_erase, List.filter_filter]
    refine List.filter_congr fun e _ => ?_
    by_cases h : e.1 = id <;> simp [h]

theorem ids_without : (s.without ids).ids = s.ids.filter (· ∉ ids) := by
  rw [Scope.ids, Scope.ids, entries_without, List.filter_map]
  rfl

theorem get?_without (id : OperatorId) :
    (s.without ids).get? id = if id ∈ ids then none else s.get? id := by
  have h := lookup_filter s.entries (fun i => decide (i ∉ ids)) id
  simp only [decide_eq_true_eq, ite_not] at h
  rw [get?, entries_without]
  exact h

theorem without_merged :
    (s.merged t).without ids = (s.without ids).merged (t.without ids) := by
  apply eq_of_get?
  · have hfilter : (t.ids.filter (· ∉ s.ids)).filter (· ∉ ids) =
        (t.ids.filter (· ∉ ids)).filter (· ∉ s.ids.filter (· ∉ ids)) := by
      rw [List.filter_filter, List.filter_filter]
      refine List.filter_congr fun id _ => ?_
      by_cases h : id ∈ ids <;> simp [h]
    rw [ids_without, ids_merged, ids_merged, ids_without, ids_without, List.filter_append, hfilter]
  · intro id
    rw [get?_without, get?_merged, get?_merged, get?_without, get?_without]
    by_cases h : id ∈ ids
    · rw [if_pos h, if_pos h, if_pos h]
      rfl
    · rw [if_neg h, if_neg h, if_neg h]

end Without

end Scope

/-- Scopes form an idempotent monoid under merging, in which the right one wins and the order of the
left one is kept. Extending is merging from the right, and leaving out ids distributes over it. -/
theorem scope_algebra (c : Catalog) :
    (∀ a b : Scope, a.shares b = true ↔ a = b) ∧
      (∀ a b c : Scope, (a.merged b).merged c = a.merged (b.merged c)) ∧
      (∀ a : Scope, a.merged a = a ∧ a.merged .empty = a ∧ Scope.empty.merged a = a) ∧
      (∀ a b : Scope, (a.merged b).ids = a.ids ++ b.ids.filter (· ∉ a.ids) ∧
        ∀ id, (a.merged b).get? id = (b.get? id).or (a.get? id)) ∧
      (∀ x enclosing : Scope, c.apply (.replace x) enclosing = x ∧
        c.apply (.extend x) enclosing = enclosing.merged x) ∧
      (∀ x y enclosing : Scope, c.apply (.extend y) (c.apply (.extend x) enclosing) =
        c.apply (.extend (x.merged y)) enclosing) ∧
      (∀ (xs : List Scope) (enclosing : Scope),
        xs.foldl (fun enclosing x => c.apply (.extend x) enclosing) enclosing =
          c.apply (.extend (xs.foldl Scope.merged .empty)) enclosing) ∧
      ∀ (ids : List OperatorId) (a : Scope),
        (c.apply (.without ids) a).entries = (a.entries.filter fun e => e.1 ∉ ids) ∧
        ∀ b, c.apply (.without ids) (a.merged b) =
          (c.apply (.without ids) a).merged (c.apply (.without ids) b) :=
  ⟨fun _ _ => Scope.shares_iff, Scope.merged_assoc,
    fun a => ⟨a.merged_self, a.merged_empty, a.empty_merged⟩,
    fun a b => ⟨a.ids_merged b, a.get?_merged b⟩,
    fun _ _ => ⟨rfl, rfl⟩,
    fun x y enclosing => Scope.merged_assoc enclosing x y,
    fun xs enclosing => Scope.foldl_merged enclosing .empty xs,
    fun ids a => ⟨a.entries_without ids, fun b => a.without_merged b ids⟩⟩

end Distfix
