import Distfix.Proofs.Merging
import Distfix.Proofs.TableFaults
import Distfix.Workspace

namespace Distfix

structure OrderedMap where
  order : List OperatorId
  bound : OperatorId → Option DefinitionRef

namespace OrderedMap

def empty : OrderedMap := ⟨[], fun _ => none⟩

/-- An id that is there keeps its place. A new one comes last. -/
def insert (m : OrderedMap) (id : OperatorId) (d : DefinitionRef) : OrderedMap :=
  ⟨if id ∈ m.order then m.order else m.order ++ [id],
    fun other => if other = id then some d else m.bound other⟩

def remove (m : OrderedMap) (id : OperatorId) : OrderedMap :=
  ⟨m.order.erase id, fun other => if other = id then none else m.bound other⟩

def merged (m n : OrderedMap) : OrderedMap :=
  ⟨m.order ++ n.order.filter (· ∉ m.order), fun id => (n.bound id).or (m.bound id)⟩

def without (m : OrderedMap) (ids : List OperatorId) : OrderedMap :=
  ⟨m.order.filter (· ∉ ids), fun id => if id ∈ ids then none else m.bound id⟩

def toList (m : OrderedMap) : List (OperatorId × DefinitionRef) :=
  m.order.filterMap fun id => (m.bound id).map (id, ·)

def Below (m : OrderedMap) (n : Nat) : Prop := ∀ id r, m.bound id = some r → r.index < n

variable {m k : OrderedMap} {n n' : Nat}

theorem below_empty (n : Nat) : empty.Below n := nofun

theorem Below.mono (h : m.Below n) (hn : n ≤ n') : m.Below n' := fun id r hr =>
  Nat.lt_of_lt_of_le (h id r hr) hn

theorem Below.insert (h : m.Below n) (id : OperatorId) {d : DefinitionRef} (hd : d.index < n) :
    (m.insert id d).Below n := by
  intro other r hr
  dsimp only [OrderedMap.insert] at hr
  split at hr
  · obtain rfl := Option.some.inj hr
    exact hd
  · exact h other r hr

theorem Below.foldl_insert {α : Type} {key : α → OperatorId} {value : α → DefinitionRef}
    {as : List α} (h : m.Below n) (has : ∀ a ∈ as, (value a).index < n) :
    (as.foldl (fun m a => m.insert (key a) (value a)) m).Below n := by
  induction as generalizing m with
  | nil => exact h
  | cons a as ih =>
    obtain ⟨ha, has⟩ := List.forall_mem_cons.mp has
    exact ih (h.insert (key a) ha) has

theorem Below.remove (h : m.Below n) (id : OperatorId) : (m.remove id).Below n := by
  intro other r hr
  dsimp only [OrderedMap.remove] at hr
  split at hr
  · cases hr
  · exact h other r hr

theorem Below.merged (hm : m.Below n) (hk : k.Below n) : (m.merged k).Below n := by
  intro id r hr
  rw [OrderedMap.merged, Option.or_eq_some_iff] at hr
  obtain hr | ⟨-, hr⟩ := hr
  · exact hk id r hr
  · exact hm id r hr

theorem Below.without (h : m.Below n) (ids : List OperatorId) : (m.without ids).Below n := by
  intro id r hr
  dsimp only [OrderedMap.without] at hr
  split at hr
  · cases hr
  · exact h id r hr

end OrderedMap

/-- The ids of the scope are those of the map in the same order, with the same bindings. -/
structure Scope.Represents (s : Scope) (m : OrderedMap) : Prop where
  ids_eq : s.ids = m.order
  get?_eq : ∀ id, s.get? id = m.bound id

namespace Scope

variable {s t : Scope} {m k : OrderedMap}

theorem represents_empty : Scope.empty.Represents .empty := ⟨rfl, fun _ => rfl⟩

theorem Represents.insert (h : s.Represents m) (id : OperatorId) (d : DefinitionRef) :
    (s.insert id d).Represents (m.insert id d) := by
  refine ⟨?_, fun other => ?_⟩
  · rw [ids_insert, h.ids_eq]
    rfl
  · rw [get?_insert, h.get?_eq]
    rfl

theorem Represents.foldl_insert {α : Type} {key : α → OperatorId} {value : α → DefinitionRef}
    {as : List α} (h : s.Represents m) :
    (as.foldl (fun s a => s.insert (key a) (value a)) s).Represents
      (as.foldl (fun m a => m.insert (key a) (value a)) m) := by
  induction as generalizing s m with
  | nil => exact h
  | cons a as ih => exact ih (h.insert (key a) (value a))

theorem ids_erase_eq_erase (s : Scope) (id : OperatorId) : (s.erase id).ids = s.ids.erase id := by
  have hnodup : s.ids.Nodup := s.distinct
  rw [ids_erase, hnodup.erase_eq_filter]
  refine List.filter_congr fun other _ => ?_
  by_cases h : other = id <;> simp [h]

theorem Represents.erase (h : s.Represents m) (id : OperatorId) :
    (s.erase id).Represents (m.remove id) := by
  refine ⟨?_, fun other => ?_⟩
  · rw [ids_erase_eq_erase, h.ids_eq]
    rfl
  · rw [get?_erase, h.get?_eq]
    rfl

theorem Represents.merged (hs : s.Represents m) (ht : t.Represents k) :
    (s.merged t).Represents (m.merged k) := by
  refine ⟨?_, fun id => ?_⟩
  · rw [ids_merged, hs.ids_eq, ht.ids_eq]
    rfl
  · rw [get?_merged, hs.get?_eq, ht.get?_eq]
    rfl

theorem Represents.without (h : s.Represents m) (ids : List OperatorId) :
    (s.without ids).Represents (m.without ids) := by
  refine ⟨?_, fun id => ?_⟩
  · rw [ids_without, h.ids_eq]
    rfl
  · rw [get?_without, h.get?_eq]
    rfl

theorem Represents.entries_eq (h : s.Represents m) : s.entries = m.toList := by
  rw [s.entries_eq, h.ids_eq]
  exact List.filterMap_congr fun id _ => by rw [h.get?_eq]

theorem Represents.length_eq (h : s.Represents m) : s.length = m.order.length := by
  rw [← h.ids_eq, ids, List.length_map]
  rfl

end Scope

inductive Origin where
  | given (d : Definition)
  | listed (o : OperatorEntry)

def Origin.Gives (d : Definition) : Origin → Prop
  | given d' => d = d'
  | listed o => o.Describes d

/-- The operators that a table lists under a name, bound one after the other. The operators of all
scopes are numbered from `next` on. -/
def Table.listing (name : String) : Nat → List ScopeEntry → OrderedMap
  | _, [] => .empty
  | next, s :: ss =>
    if s.name = name then
      (s.operators.zipIdx next).foldl (fun m o => m.insert o.1.id ⟨o.2⟩) .empty
    else listing name (next + s.operators.length) ss

/-- The definitions that have been made, by their numbers, and ordered maps by name. -/
structure Ledger where
  made : List Origin
  maps : String → OrderedMap

/-- What an operation denotes: its answer, the map that it makes, and new definitions. A table is
refused for its first fault. -/
def Operation.denote (l : Ledger) :
    Operation → Except GrammarError (Option DefinitionRef × OrderedMap × List Origin)
  | new => .ok (none, .empty, [])
  | including id d of => .ok (none, (l.maps of).insert id ⟨l.made.length⟩, [.given d])
  | insert id d of => .ok ((l.maps of).bound id, (l.maps of).insert id ⟨l.made.length⟩, [.given d])
  | remove id of => .ok ((l.maps of).bound id, (l.maps of).remove id, [])
  | merged left right => .ok (none, (l.maps left).merged (l.maps right), [])
  | replace scope _ => .ok (none, l.maps scope, [])
  | extend additions of => .ok (none, (l.maps of).merged (l.maps additions), [])
  | without ids of => .ok (none, (l.maps of).without ids, [])
  | build t =>
    match t.faults with
    | [] => .ok (none, Table.listing t.top l.made.length t.scopes, t.operators.map .listed)
    | e :: _ => .error e

namespace Ledger

def empty : Ledger := ⟨[], fun _ => .empty⟩

def step (l : Ledger) (s : Step) : Except GrammarError (Option DefinitionRef) × Ledger :=
  match s.operation.denote l with
  | .ok (answer, m, new) =>
    (.ok answer, ⟨l.made ++ new, fun n => if n = s.into then m else l.maps n⟩)
  | .error e => (.error e, l)

def run (l : Ledger) : List Step → List (Except GrammarError (Option DefinitionRef)) × Ledger
  | [] => ([], l)
  | s :: ss =>
    let first := l.step s
    let rest := run first.2 ss
    (first.1 :: rest.1, rest.2)

def Shows (l : Ledger) (r : DefinitionRef) (d : Definition) : Prop :=
  ∃ origin, l.made[r.index]? = some origin ∧ origin.Gives d

end Ledger

structure Catalog.Holds (c : Catalog) (made : List Origin) : Prop where
  size : c.definitions.size = made.length
  definition : ∀ n origin, made[n]? = some origin →
    ∃ d, c.definition? ⟨n⟩ = some d ∧ origin.Gives d

namespace Catalog

variable {c c' : Catalog} {made new : List Origin}

theorem holds_empty : Catalog.empty.Holds [] := ⟨rfl, nofun⟩

theorem Holds.grow (h : c.Holds made) (hgrows : c.Grows new.length c')
    (hnew : ∀ n origin, new[n]? = some origin →
      ∃ d, c'.definition? ⟨c.definitions.size + n⟩ = some d ∧ origin.Gives d) :
    c'.Holds (made ++ new) := by
  refine ⟨by rw [hgrows.size, h.size, List.length_append], fun n origin hn => ?_⟩
  by_cases hlt : n < made.length
  · rw [List.getElem?_append_left hlt] at hn
    obtain ⟨d, hd, hgives⟩ := h.definition n origin hn
    exact ⟨d, hgrows.definitions hd, hgives⟩
  · have hle : made.length ≤ n := Nat.le_of_not_lt hlt
    rw [List.getElem?_append_right hle] at hn
    obtain ⟨d, hd, hgives⟩ := hnew _ origin hn
    rw [h.size, Nat.add_sub_cancel' hle] at hd
    exact ⟨d, hd, hgives⟩

theorem Holds.define (h : c.Holds made) (d : Definition) :
    (c.define d).2.Holds (made ++ [.given d]) := by
  refine h.grow (defines_define c d).toGrows fun n origin hn => ?_
  obtain ⟨rfl, rfl⟩ : n = 0 ∧ origin = .given d := by
    cases n with
    | zero => exact ⟨rfl, (Option.some.inj hn).symm⟩
    | succ n => cases hn
  exact ⟨d, definition?_define c d, rfl⟩

theorem Holds.build (h : c.Holds made) {t : Table} {top : Scope} (ht : t.Built c top c') :
    c'.Holds (made ++ t.operators.map .listed) := by
  refine h.grow (by rw [List.length_map]; exact ht.toGrows) fun n origin hn => ?_
  rw [List.getElem?_map] at hn
  obtain ⟨o, ho, rfl⟩ := Option.map_eq_some_iff.mp hn
  obtain ⟨d, hd, hdenotes⟩ := ht.defined n o ho
  exact ⟨d, hd, hdenotes.toDescribes⟩

end Catalog

namespace Table

theorem represents_lookup_layout {name : String} {next : Nat} {ss : List ScopeEntry} {scope : Scope}
    (h : (layout next ss).lookup name = some scope) :
    scope.Represents (listing name next ss) := by
  induction ss generalizing next with
  | nil => cases h
  | cons s ss ih =>
    rw [layout, List.lookup_cons] at h
    rw [listing]
    by_cases hname : s.name = name
    · subst hname
      rw [beq_self_eq_true] at h
      obtain rfl := Option.some.inj h
      rw [if_pos rfl]
      exact Scope.represents_empty.foldl_insert
    · rw [beq_false_of_ne (Ne.symm hname)] at h
      rw [if_neg hname]
      exact ih h

theorem below_listing (name : String) (next : Nat) (ss : List ScopeEntry) :
    (listing name next ss).Below (next + (ss.flatMap ScopeEntry.operators).length) := by
  induction ss generalizing next with
  | nil => exact OrderedMap.below_empty _
  | cons s ss ih =>
    rw [listing, List.flatMap_cons, List.length_append, ← Nat.add_assoc]
    split
    · refine (OrderedMap.below_empty _).foldl_insert fun o ho => ?_
      have hlt := List.snd_lt_add_of_mem_zipIdx ho
      exact Nat.lt_of_lt_of_le hlt (Nat.le_add_right _ _)
    · exact ih _

end Table

end Distfix
