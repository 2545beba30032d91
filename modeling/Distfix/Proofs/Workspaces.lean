import Distfix.Proofs.OrderedMaps
import Mathlib.Data.Option.Basic

namespace Distfix

/-- The workspace holds the maps and the definitions of the ledger. -/
structure Workspace.Represents (w : Workspace) (l : Ledger) : Prop where
  scopes : ∀ name, (w.scopes name).Represents (l.maps name)
  holds : w.catalog.Holds l.made
  below : ∀ name, (l.maps name).Below l.made.length

inductive Operation.Accords (l : Ledger) :
    Except GrammarError ((Option DefinitionRef × Scope) × Catalog) →
      Except GrammarError (Option DefinitionRef × OrderedMap × List Origin) → Prop
  | ok {answer s c m new} (scope : s.Represents m) (holds : c.Holds (l.made ++ new))
      (below : m.Below (l.made ++ new).length) :
      Accords l (.ok ((answer, s), c)) (.ok (answer, m, new))
  | error (e : GrammarError) : Accords l (.error e) (.error e)

namespace Operation

variable {w : Workspace} {l : Ledger}

theorem accords_insert (h : w.Represents l) (answer : Option DefinitionRef) (id : OperatorId)
    (d : Definition) (of : String) :
    Accords l (.ok ((answer, (w.scopes of).insert id ⟨w.catalog.definitions.size⟩),
        (w.catalog.define d).2))
      (.ok (answer, (l.maps of).insert id ⟨l.made.length⟩, [.given d])) := by
  rw [h.holds.size]
  refine .ok ((h.scopes of).insert id _) (h.holds.define d) ?_
  rw [List.length_append]
  exact ((h.below of).mono (Nat.le_add_right _ _)).insert id (Nat.lt_succ_self _)

theorem accords_pure (h : w.Represents l) (answer : Option DefinitionRef)
    {s : Scope} {m : OrderedMap}
    (hs : s.Represents m) (hm : m.Below l.made.length) :
    Accords l (.ok ((answer, s), w.catalog)) (.ok (answer, m, [])) :=
  .ok hs (by rw [List.append_nil]; exact h.holds) (by rw [List.append_nil]; exact hm)

theorem accords_build (h : w.Represents l) (t : Table) :
    Accords l ((build t).run w.scopes w.catalog) ((build t).denote l) := by
  have hreports := Table.reports_build t w.catalog
  rw [denote]
  cases hfaults : t.faults with
  | nil =>
    obtain ⟨⟨top, c⟩, hbuild⟩ := hreports.exists_ok_iff.mpr hfaults
    have hbuilt := Table.build_ok (Table.wellFormed_of_build hbuild).names hbuild
    have htop := hbuilt.top_eq
    have hrun : (build t).run w.scopes w.catalog = .ok ((none, top), c) :=
      Build.bind_eq_ok.mpr ⟨top, c, hbuild, rfl⟩
    rw [hrun]
    rw [h.holds.size] at htop
    refine .ok (Table.represents_lookup_layout htop) (h.holds.build hbuilt) ?_
    rw [List.length_append, List.length_map]
    exact Table.below_listing t.top l.made.length t.scopes
  | cons e es =>
    have hbuild : t.build w.catalog = .error e :=
      (hreports.eq_error_iff e).mpr (by rw [hfaults]; rfl)
    have hrun : (build t).run w.scopes w.catalog = .error e := by
      rw [run]
      show (t.build w.catalog).bind _ = _
      rw [hbuild]
      rfl
    rw [hrun]
    exact .error e

theorem accords (h : w.Represents l) (o : Operation) :
    Accords l (o.run w.scopes w.catalog) (o.denote l) := by
  cases o with
  | new => exact accords_pure h none Scope.represents_empty (OrderedMap.below_empty _)
  | including id d of => exact accords_insert h none id d of
  | insert id d of =>
    have hget := (h.scopes of).get?_eq id
    rw [denote, ← hget, ← (w.scopes of).put_fst id ⟨w.catalog.definitions.size⟩]
    exact accords_insert h _ id d of
  | remove id of =>
    have hget := (h.scopes of).get?_eq id
    rw [denote, ← hget, ← Scope.take_fst]
    exact accords_pure h _ ((h.scopes of).erase id) ((h.below of).remove id)
  | merged left right =>
    exact accords_pure h none ((h.scopes left).merged (h.scopes right))
      ((h.below left).merged (h.below right))
  | replace scope of => exact accords_pure h none (h.scopes scope) (h.below scope)
  | extend additions of =>
    exact accords_pure h none ((h.scopes of).merged (h.scopes additions))
      ((h.below of).merged (h.below additions))
  | without ids of =>
    exact accords_pure h none ((h.scopes of).without ids) ((h.below of).without ids)
  | build t => exact accords_build h t

theorem run_within {scopes : String → Scope} {o : Operation} {c c' : Catalog}
    {r : Option DefinitionRef × Scope} (h : o.run scopes c = .ok (r, c')) : c.Within c' := by
  cases o with
  | new | merged | remove =>
    obtain ⟨-, rfl⟩ := Build.pure_eq_ok.mp h
    exact .refl _
  | replace | extend | without =>
    rw [run, Build.get_bind] at h
    obtain ⟨-, rfl⟩ := Build.pure_eq_ok.mp h
    exact .refl _
  | including id d of =>
    obtain ⟨s, c₁, hinsert, hpure⟩ := Build.bind_eq_ok.mp h
    obtain ⟨-, rfl⟩ := Build.pure_eq_ok.mp hpure
    obtain rfl : (c.define d).2 = c' := (Prod.mk.inj (Except.ok.inj hinsert)).2
    exact (c.defines_define d).toWithin
  | insert id d of =>
    obtain rfl : (c.define d).2 = c' := (Prod.mk.inj (Except.ok.inj h)).2
    exact (c.defines_define d).toWithin
  | build t =>
    obtain ⟨top, c₁, hbuild, hpure⟩ := Build.bind_eq_ok.mp h
    obtain ⟨-, rfl⟩ := Build.pure_eq_ok.mp hpure
    exact (Table.build_ok (Table.wellFormed_of_build hbuild).names hbuild).toWithin

end Operation

namespace Workspace

variable {w : Workspace} {l : Ledger}

theorem represents_empty : Workspace.empty.Represents .empty :=
  ⟨fun _ => Scope.represents_empty, Catalog.holds_empty, fun _ => OrderedMap.below_empty _⟩

/-- A step answers as the ledger does, and the workspace after it represents the ledger after it. -/
theorem step_represents (h : w.Represents l) (s : Step) :
    (w.step s).1 = (l.step s).1 ∧ (w.step s).2.Represents (l.step s).2 := by
  have haccords := Operation.accords h s.operation
  unfold step Ledger.step
  generalize s.operation.run w.scopes w.catalog = outcome at haccords ⊢
  generalize s.operation.denote l = denoted at haccords ⊢
  cases haccords with
  | error e => exact ⟨rfl, h⟩
  | ok scope holds below =>
    refine ⟨rfl, fun name => ?_, holds, fun name => ?_⟩
    · dsimp only [keep]
      split
      · exact scope
      · exact h.scopes name
    · dsimp only
      split
      · exact below
      · exact (h.below name).mono (by rw [List.length_append]; exact Nat.le_add_right _ _)

theorem step_within (w : Workspace) (s : Step) : w.catalog.Within (w.step s).2.catalog := by
  unfold step
  cases h : s.operation.run w.scopes w.catalog with
  | ok r => exact Operation.run_within h
  | error e => exact .refl _

theorem run_within (w : Workspace) (steps : List Step) :
    w.catalog.Within (w.run steps).2.catalog := by
  induction steps generalizing w with
  | nil => exact .refl _
  | cons s steps ih => exact (w.step_within s).trans (ih (w.step s).2)

theorem run_represents (h : w.Represents l) (steps : List Step) :
    (w.run steps).1 = (l.run steps).1 ∧ (w.run steps).2.Represents (l.run steps).2 := by
  induction steps generalizing w l with
  | nil => exact ⟨rfl, h⟩
  | cons s steps ih =>
    obtain ⟨hanswer, hstep⟩ := step_represents h s
    obtain ⟨hanswers, hrun⟩ := ih hstep
    exact ⟨List.cons_eq_cons.mpr ⟨hanswer, hanswers⟩, hrun⟩

variable {name : String} {id : OperatorId}

theorem Represents.definition (h : w.Represents l) {r : DefinitionRef}
    (hr : (w.scopes name).get? id = some r) :
    ∃ d, w.catalog.definition? r = some d ∧ l.Shows r d := by
  rw [(h.scopes name).get?_eq] at hr
  have hlt : r.index < l.made.length := h.below name id r hr
  have horigin : l.made[r.index]? = some l.made[r.index] := List.getElem?_eq_getElem hlt
  obtain ⟨d, hd, hgives⟩ := h.holds.definition r.index _ horigin
  exact ⟨d, hd, _, horigin, hgives⟩

theorem Represents.operator?_within (h : w.Represents l) {c : Catalog} (hc : w.catalog.Within c)
    (name : String) (id : OperatorId) :
    c.operator? (w.scopes name) id = w.operator? name id := by
  unfold operator? Catalog.operator?
  cases hr : (w.scopes name).get? id with
  | none => rfl
  | some r =>
    obtain ⟨d, hd, -⟩ := h.definition hr
    exact (hc.definitions hd).trans hd.symm

/-- What can be seen of a scope is the map that the ledger has under its name. -/
structure Agrees (w : Workspace) (l : Ledger) (name : String) : Prop where
  distinct : (w.scopes name).ids.Nodup
  ids_eq : (w.scopes name).ids = (l.maps name).order
  length_eq : (w.scopes name).length = (l.maps name).order.length
  entries_eq : (w.scopes name).entries = (l.maps name).toList
  get?_eq : ∀ id, (w.scopes name).get? id = (l.maps name).bound id
  operators : List.Forall₂ (fun e o => o.1 = e.1 ∧ l.Shows e.2 o.2) (l.maps name).toList
    (w.catalog.operators (w.scopes name))
  operator? : ∀ id, Option.Rel l.Shows ((l.maps name).bound id) (w.operator? name id)

theorem forall₂_operators {c : Catalog} {P : DefinitionRef → Definition → Prop}
    {es : List (OperatorId × DefinitionRef)}
    (h : ∀ e ∈ es, ∃ d, c.definition? e.2 = some d ∧ P e.2 d) :
    List.Forall₂ (fun e o => o.1 = e.1 ∧ P e.2 o.2) es
      (es.filterMap fun e => (c.definition? e.2).map fun d => (e.1, d)) := by
  induction es with
  | nil => exact .nil
  | cons e es ih =>
    obtain ⟨⟨d, hd, hP⟩, hes⟩ := List.forall_mem_cons.mp h
    rw [List.filterMap_cons, hd]
    exact .cons ⟨rfl, hP⟩ (ih hes)

theorem Represents.agrees (h : w.Represents l) (name : String) : w.Agrees l name where
  distinct := (w.scopes name).distinct
  ids_eq := (h.scopes name).ids_eq
  length_eq := (h.scopes name).length_eq
  entries_eq := (h.scopes name).entries_eq
  get?_eq := (h.scopes name).get?_eq
  operators := by
    rw [← (h.scopes name).entries_eq]
    refine forall₂_operators fun e he => ?_
    rw [(w.scopes name).entries_eq, List.mem_filterMap] at he
    obtain ⟨id, -, hget⟩ := he
    obtain ⟨r, hr, rfl⟩ := Option.map_eq_some_iff.mp hget
    exact h.definition hr
  operator? id := by
    rw [← (h.scopes name).get?_eq]
    unfold Workspace.operator? Catalog.operator?
    cases hr : (w.scopes name).get? id with
    | none => exact .none
    | some r =>
      obtain ⟨d, hd, hshows⟩ := h.definition hr
      rw [Option.bind_some, hd]
      exact .some hshows

/-- Everything but one id of one scope is in the second workspace as it is in the first. -/
structure Frames (w : Workspace) (name : String) (id : OperatorId) (w' : Workspace) : Prop where
  get?_eq : ∀ other, other ≠ id → (w'.scopes name).get? other = (w.scopes name).get? other
  operator?_eq : ∀ other, other ≠ id → w'.operator? name other = w.operator? name other
  order_eq : (w'.scopes name).ids.filter (· ≠ id) = (w.scopes name).ids.filter (· ≠ id)
  elsewhere : ∀ n, n ≠ name → w'.scopes n = w.scopes n ∧
    ∀ other, w'.operator? n other = w.operator? n other

/-- The id is bound to the definition in the place that it had, or in the last place if it is new.
-/
structure Binds (w : Workspace) (name : String) (id : OperatorId) (d : Definition)
    (w' : Workspace) : Prop extends w.Frames name id w' where
  ids_eq : (w'.scopes name).ids =
    if id ∈ (w.scopes name).ids then (w.scopes name).ids else (w.scopes name).ids ++ [id]
  bound : w'.operator? name id = some d

structure Unbinds (w : Workspace) (name : String) (id : OperatorId) (w' : Workspace) : Prop
    extends w.Frames name id w' where
  ids_eq : (w'.scopes name).ids = (w.scopes name).ids.erase id
  unbound : (w'.scopes name).get? id = none ∧ w'.operator? name id = none

theorem Represents.frames_keep (h : w.Represents l) {c : Catalog} (hc : w.catalog.Within c)
    {s : Scope} (hget : ∀ other, other ≠ id → s.get? other = (w.scopes name).get? other)
    (horder : s.ids.filter (· ≠ id) = (w.scopes name).ids.filter (· ≠ id)) :
    w.Frames name id ⟨c, keep w.scopes name s⟩ := by
  have hkept : keep w.scopes name s name = s := if_pos rfl
  refine ⟨?_, ?_, ?_, fun n hn => ?_⟩
  · dsimp only
    rwa [hkept]
  · intro other hother
    rw [← h.operator?_within hc name other]
    dsimp only [operator?, Catalog.operator?]
    rw [hkept, hget other hother]
  · dsimp only
    rwa [hkept]
  · have hother : keep w.scopes name s n = w.scopes n := if_neg hn
    refine ⟨hother, fun other => ?_⟩
    rw [← h.operator?_within hc n other]
    dsimp only [operator?]
    rw [hother]

theorem step_insert (w : Workspace) (name : String) (id : OperatorId) (d : Definition) :
    w.step ⟨name, .insert id d name⟩ = (.ok ((w.scopes name).get? id), ⟨(w.catalog.define d).2,
      keep w.scopes name ((w.scopes name).insert id ⟨w.catalog.definitions.size⟩)⟩) := by
  rw [← (w.scopes name).put_fst id ⟨w.catalog.definitions.size⟩]
  rfl

theorem step_remove (w : Workspace) (name : String) (id : OperatorId) :
    w.step ⟨name, .remove id name⟩ = (.ok ((w.scopes name).get? id),
      ⟨w.catalog, keep w.scopes name ((w.scopes name).erase id)⟩) := by
  rw [← Scope.take_fst]
  rfl

theorem Represents.binds (h : w.Represents l) (name : String) (id : OperatorId) (d : Definition) :
    (w.step ⟨name, .insert id d name⟩).1 = .ok ((w.scopes name).get? id) ∧
      w.Binds name id d (w.step ⟨name, .insert id d name⟩).2 := by
  have hkept : keep w.scopes name ((w.scopes name).insert id ⟨w.catalog.definitions.size⟩) name =
    (w.scopes name).insert id ⟨w.catalog.definitions.size⟩ := if_pos rfl
  rw [step_insert]
  refine ⟨rfl, h.frames_keep (Catalog.defines_define w.catalog d).toWithin ?_ ?_, ?_, ?_⟩
  · intro other hother
    rw [Scope.get?_insert, if_neg hother]
  · rw [Scope.ids_insert]
    split
    · rfl
    · simp
  · exact (congrArg Scope.ids hkept).trans (Scope.ids_insert ..)
  · show (w.catalog.define d).2.operator? (keep _ _ _ name) id = _
    rw [hkept, Catalog.operator?, Scope.get?_insert, if_pos rfl]
    exact Catalog.definition?_define w.catalog d

theorem Represents.unbinds (h : w.Represents l) (name : String) (id : OperatorId) :
    (w.step ⟨name, .remove id name⟩).1 = .ok ((w.scopes name).get? id) ∧
      w.Unbinds name id (w.step ⟨name, .remove id name⟩).2 := by
  have hkept : keep w.scopes name ((w.scopes name).erase id) name = (w.scopes name).erase id :=
    if_pos rfl
  have hget : ((w.scopes name).erase id).get? id = none := by rw [Scope.get?_erase, if_pos rfl]
  rw [step_remove]
  refine ⟨rfl, h.frames_keep (.refl _) ?_ ?_, ?_, ?_, ?_⟩
  · intro other hother
    rw [Scope.get?_erase, if_neg hother]
  · rw [Scope.ids_erase, List.filter_filter]
    simp
  · exact (congrArg Scope.ids hkept).trans (Scope.ids_erase_eq_erase ..)
  · exact (congrArg (Scope.get? · id) hkept).trans hget
  · show w.catalog.operator? (keep _ _ _ name) id = none
    rw [hkept, Catalog.operator?, hget]
    rfl

/-- Whatever is done with scopes, each of them is the ordered map that the steps denote, and the
answers are those of the maps. From there on, inserting an id and removing it do to the scope what
they do to a map, and nothing else. -/
theorem run_agrees (steps : List Step) :
    let run := Workspace.empty.run steps
    let denoted := Ledger.empty.run steps
    run.1 = denoted.1 ∧ ∀ name, run.2.Agrees denoted.2 name ∧ ∀ id,
      (∀ d, (run.2.step ⟨name, .insert id d name⟩).1 = .ok ((denoted.2.maps name).bound id) ∧
        run.2.Binds name id d (run.2.step ⟨name, .insert id d name⟩).2) ∧
      (run.2.step ⟨name, .remove id name⟩).1 = .ok ((denoted.2.maps name).bound id) ∧
        run.2.Unbinds name id (run.2.step ⟨name, .remove id name⟩).2 := by
  obtain ⟨hanswers, hrun⟩ := run_represents represents_empty steps
  refine ⟨hanswers, fun name => ⟨hrun.agrees name, fun id => ?_⟩⟩
  rw [← (hrun.scopes name).get?_eq id]
  exact ⟨hrun.binds name id, hrun.unbinds name id⟩

end Workspace

end Distfix
