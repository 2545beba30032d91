import Mathlib.Data.List.Forall2
import Distfix.Proofs.Merging
import Distfix.Table.Build

namespace Distfix

namespace Catalog

/-- What the first catalog holds, the second holds in the same place. -/
structure Within (c c' : Catalog) : Prop where
  definitions : ∀ {r d}, c.definition? r = some d → c'.definition? r = some d
  generators : ∀ {g gen}, c.generator? g = some gen → c'.generator? g = some gen
  named : ∀ {r name s}, c.named? r name = some s → c'.named? r name = some s

variable {c c' c'' : Catalog} {m n : Nat}

theorem Within.refl (c : Catalog) : c.Within c := ⟨id, id, id⟩

theorem Within.trans (h : c.Within c') (h' : c'.Within c'') : c.Within c'' :=
  ⟨fun hr => h'.definitions (h.definitions hr), fun hg => h'.generators (h.generators hg),
    fun hs => h'.named (h.named hs)⟩

structure Grows (c : Catalog) (n : Nat) (c' : Catalog) : Prop extends c.Within c' where
  size : c'.definitions.size = c.definitions.size + n

/-- The definition was made between the two catalogs. -/
def Makes (c c' : Catalog) (r : DefinitionRef) : Prop :=
  c.definitions.size ≤ r.index ∧ r.index < c'.definitions.size

theorem Grows.trans (h : c.Grows m c') (h' : c'.Grows n c'') : c.Grows (m + n) c'' :=
  ⟨h.toWithin.trans h'.toWithin, by rw [h'.size, h.size, Nat.add_assoc]⟩

structure Defines (c : Catalog) (n : Nat) (c' : Catalog) : Prop extends c.Grows n c' where
  directories : c'.directories = c.directories

theorem Defines.refl (c : Catalog) : c.Defines 0 c := ⟨⟨.refl c, rfl⟩, rfl⟩

theorem Defines.trans (h : c.Defines m c') (h' : c'.Defines n c'') : c.Defines (m + n) c'' :=
  ⟨h.toGrows.trans h'.toGrows, h'.directories.trans h.directories⟩

theorem Defines.named?_eq (h : c.Defines n c') (r : DirectoryRef) (name : String) :
    c'.named? r name = c.named? r name := by
  rw [named?, h.directories, named?]

theorem defines_register (c : Catalog) (g : Generator) : c.Defines 0 (c.register g).2 := by
  refine ⟨⟨⟨id, fun {r gen} hr => ?_, id⟩, rfl⟩, rfl⟩
  have hlt := (Array.getElem?_eq_some_iff.mp hr).1
  simpa [generator?, register, Array.getElem?_push, Nat.ne_of_lt hlt] using hr

theorem generator?_register (c : Catalog) (g : Generator) :
    (c.register g).2.generator? (c.register g).1 = some g := by
  simp [generator?, register]

theorem defines_define (c : Catalog) (d : Definition) : c.Defines 1 (c.define d).2 := by
  refine ⟨⟨⟨fun {r e} hr => ?_, id, id⟩, by simp [define]⟩, rfl⟩
  have hlt := (Array.getElem?_eq_some_iff.mp hr).1
  simpa [definition?, define, Array.getElem?_push, Nat.ne_of_lt hlt] using hr

theorem definition?_define (c : Catalog) (d : Definition) :
    (c.define d).2.definition? ⟨c.definitions.size⟩ = some d := by
  simp [definition?, define]

theorem lt_of_named? {r : DirectoryRef} {name : String} {s : Scope} (h : c.named? r name = some s) :
    r.index < c.directories.size := by
  obtain ⟨d, hd, -⟩ := Option.bind_eq_some_iff.mp h
  exact (Array.getElem?_eq_some_iff.mp hd).1

theorem grows_openDirectory (c : Catalog) : c.Grows 0 c.openDirectory.2 := by
  refine ⟨⟨id, id, fun {r name s} hs => ?_⟩, rfl⟩
  have hlt := lt_of_named? hs
  simpa [named?, openDirectory, Array.getElem?_push, Nat.ne_of_lt hlt] using hs

theorem named?_openDirectory (c : Catalog) (name : String) :
    c.openDirectory.2.named? c.openDirectory.1 name = none := by
  simp [named?, openDirectory]

theorem named?_store (c : Catalog) {r : DirectoryRef} (hr : r.index < c.directories.size)
    (name : String) (s : Scope) (other : String) :
    (c.store r name s).named? r other = if other = name then some s else c.named? r other := by
  rw [named?, named?, store, Array.getElem?_modify, if_pos rfl, Array.getElem?_eq_getElem hr]
  simp only [Option.map_some, Option.bind_some, List.lookup_cons]
  by_cases h : other = name
  · rw [if_pos h, beq_iff_eq.mpr h]
  · rw [if_neg h, beq_false_of_ne h]

theorem grows_store {r : DirectoryRef} {name : String} (h : c.named? r name = none) (s : Scope) :
    c.Grows 0 (c.store r name s) := by
  refine ⟨⟨id, id, fun {r' name' s'} hs => ?_⟩, rfl⟩
  by_cases hr : r' = r
  · subst hr
    have hname : name' ≠ name := by
      rintro rfl
      rw [h] at hs
      cases hs
    rwa [named?_store c (lt_of_named? hs), if_neg hname]
  · have hindex : r.index ≠ r'.index := fun he => hr (by cases r; cases r'; cases he; rfl)
    rw [named?] at hs ⊢
    rwa [store, Array.getElem?_modify, if_neg hindex]

end Catalog

namespace Build

variable {α β : Type} {c c' : Catalog}

theorem bind_eq_ok {x : Build α} {f : α → Build β} {r : β × Catalog} :
    (x >>= f) c = .ok r ↔ ∃ a c₁, x c = .ok (a, c₁) ∧ f a c₁ = .ok r := by
  show (x c).bind (fun p => f p.1 p.2) = .ok r ↔ _
  cases x c with
  | error e => simp [Except.bind]
  | ok p =>
    obtain ⟨a, c₁⟩ := p
    simp [Except.bind]

theorem lift_eq_ok {x : Except GrammarError α} {a : α} :
    (liftM x : Build α) c = .ok (a, c') ↔ x = .ok a ∧ c' = c := by
  show x.bind (fun a => .ok (a, c)) = .ok (a, c') ↔ _
  cases x <;> simp [Except.bind, eq_comm]

theorem pure_eq_ok {a b : α} : (pure b : Build α) c = .ok (a, c') ↔ a = b ∧ c' = c := by
  show Except.ok (b, c) = .ok (a, c') ↔ _
  simp [eq_comm]

theorem get_bind (f : Catalog → Build β) : (get >>= f) c = f c c := rfl

theorem openDirectory_bind (f : DirectoryRef → Build β) :
    (openDirectory >>= f) c = f c.openDirectory.1 c.openDirectory.2 := rfl

theorem mapError_eq_ok {x : Except GrammarError α} {f : GrammarError → GrammarError} {a : α} :
    x.mapError f = .ok a ↔ x = .ok a := by
  cases x <;> simp [Except.mapError]

/-- A walk along a list that defines nothing gives what `P` says for each element, also once the
catalog has grown. -/
theorem forall₂_of_mapM (f : α → Build β) {P : Catalog → α → β → Prop}
    (mono : ∀ {c c' : Catalog} {a b}, c.Within c' → P c a b → P c' a b)
    (step : ∀ {a c b c'}, f a c = .ok (b, c') → c.Defines 0 c' ∧ P c' a b)
    {as : List α} {bs : List β} (h : as.mapM f c = .ok (bs, c')) :
    c.Defines 0 c' ∧ List.Forall₂ (P c') as bs := by
  induction as generalizing c bs with
  | nil =>
    obtain ⟨rfl, rfl⟩ := pure_eq_ok.mp h
    exact ⟨.refl _, .nil⟩
  | cons a as ih =>
    rw [List.mapM_cons, bind_eq_ok] at h
    obtain ⟨b, c₁, hb, h⟩ := h
    obtain ⟨bs', c₂, hbs, h⟩ := bind_eq_ok.mp h
    obtain ⟨rfl, rfl⟩ := pure_eq_ok.mp h
    obtain ⟨hc, hP⟩ := step hb
    obtain ⟨hc', hPs⟩ := ih hbs
    exact ⟨hc.trans hc', .cons (mono hc'.toWithin hP) hPs⟩

end Build

theorem Repeats.eq_of_between {min : Nat} {max : Bound} {r : Repeats}
    (h : Repeats.between min max = .ok r) : r.min = min ∧ r.max = max := by
  unfold Repeats.between at h
  split at h
  · injection h with h
    simp [← h]
  · split at h
    · contradiction
    · split at h
      · injection h with h
        simp [← h]
      · contradiction

theorem Separator.of_ofList {texts : List String} {repeats : Repeats} {s : Separator}
    (h : Separator.ofList texts repeats = .ok s) :
    (∀ text, s.accepts text = true ↔ text ∈ texts) ∧ s.repeats = repeats ∧ s.region = none := by
  unfold Separator.ofList at h
  cases hs : Spellings.ofList texts with
  | error e => simp [hs, bind, Except.bind] at h
  | ok spellings =>
    simp only [hs, bind, Except.bind, pure, Except.pure, Except.ok.injEq] at h
    subst h
    exact ⟨Spellings.accepts_ofList hs, rfl, rfl⟩

structure SeparatorEntry.Describes (s : SeparatorEntry) (sep : Separator) : Prop where
  texts : ∀ text, sep.accepts text = true ↔ text ∈ s.tokens
  min : sep.repeats.min = s.min.toNat
  max : sep.repeats.max = .ofOption (s.max.map UInt64.toNat)

structure OperatorEntry.Describes (o : OperatorEntry) (d : Definition) : Prop where
  separators : List.Forall₂ SeparatorEntry.Describes o.separators d.separators
  left : d.fixity.left? = o.left.map UInt32.toNat
  right : d.fixity.right? = o.right.map UInt32.toNat
  keepsNewline : d.keepsNewline = o.keepsNewline

namespace Table

variable (directory : DirectoryRef)

structure SeparatorDenotes (c : Catalog) (s : SeparatorEntry) (sep : Separator) : Prop
    extends s.Describes sep where
  region : sep.region.map c.generator? =
    s.scope.map fun r => some (.named directory r.name r.inherit)

structure OperatorDenotes (c : Catalog) (o : OperatorEntry) (d : Definition) : Prop
    extends o.Describes d where
  denote : List.Forall₂ (SeparatorDenotes directory c) o.separators d.separators

variable {directory} {c c' : Catalog}

theorem SeparatorDenotes.mono {s : SeparatorEntry} {sep : Separator}
    (h : SeparatorDenotes directory c s sep) (hc : c.Within c') :
    SeparatorDenotes directory c' s sep := by
  refine ⟨h.toDescribes, ?_⟩
  rw [← h.region]
  have hregion := h.region
  cases hg : sep.region with
  | none => rfl
  | some g =>
    cases hr : s.scope with
    | none => simp [hg, hr] at hregion
    | some r =>
      simp only [hg, hr, Option.map_some, Option.some.injEq] at hregion ⊢
      rw [hregion]
      exact hc.generators hregion

theorem OperatorDenotes.mono {o : OperatorEntry} {d : Definition}
    (h : OperatorDenotes directory c o d) (hc : c.Within c') : OperatorDenotes directory c' o d :=
  ⟨h.toDescribes, h.denote.imp fun _ _ hs => hs.mono hc⟩

theorem buildSeparator_ok {s : SeparatorEntry} {sep : Separator}
    (h : buildSeparator directory s c = .ok (sep, c')) :
    c.Defines 0 c' ∧ SeparatorDenotes directory c' s sep := by
  obtain ⟨repeats, c₁, hr, hrest⟩ := Build.bind_eq_ok.mp h
  obtain ⟨base, c₂, hb, hlast⟩ := Build.bind_eq_ok.mp hrest
  obtain ⟨hrange, rfl⟩ := Build.lift_eq_ok.mp hr
  obtain ⟨htokens, rfl⟩ := Build.lift_eq_ok.mp hb
  obtain ⟨hmin, hmax⟩ := Repeats.eq_of_between hrange
  obtain ⟨htexts, hrepeats, hregion⟩ := Separator.of_ofList htokens
  have hbase : s.Describes base := ⟨htexts, by rw [hrepeats, hmin], by rw [hrepeats, hmax]⟩
  cases hs : s.scope with
  | none =>
    simp only [hs] at hlast
    obtain ⟨rfl, rfl⟩ := Build.pure_eq_ok.mp hlast
    exact ⟨.refl _, hbase, by rw [hregion, hs]; rfl⟩
  | some r =>
    simp only [hs] at hlast
    obtain ⟨g, c₃, hg, hsep⟩ := Build.bind_eq_ok.mp hlast
    obtain ⟨rfl, rfl⟩ := Build.pure_eq_ok.mp hsep
    obtain ⟨rfl, rfl⟩ := Prod.mk.inj (Except.ok.inj hg)
    refine ⟨Catalog.defines_register _ _, ⟨hbase.texts, hbase.min, hbase.max⟩, ?_⟩
    rw [hs]
    exact congrArg some (Catalog.generator?_register _ _)

theorem buildDefinition_ok {o : OperatorEntry} {d : Definition}
    (h : buildDefinition directory o c = .ok (d, c')) :
    c.Defines 0 c' ∧ OperatorDenotes directory c' o d := by
  obtain ⟨separators, c₁, hs, hrest⟩ := Build.bind_eq_ok.mp h
  obtain ⟨plain, c₂, hd, hlast⟩ := Build.bind_eq_ok.mp hrest
  obtain ⟨hplain, rfl⟩ := Build.lift_eq_ok.mp hd
  obtain ⟨rfl, rfl⟩ := Build.pure_eq_ok.mp hlast
  obtain ⟨hdefines, hall⟩ :=
    Build.forall₂_of_mapM (buildSeparator directory) (fun hc hP => hP.mono hc) buildSeparator_ok hs
  rw [← Definition.separators_ofSeparators hplain] at hall
  have hdescribe := hall.imp fun _ _ hsep => hsep.toDescribes
  obtain ⟨lead, rest, -, -, -, rfl⟩ := Definition.ofSeparators_ok hplain
  refine ⟨hdefines, ?_⟩
  cases hkeep : o.keepsNewline <;>
    exact ⟨⟨hdescribe, Fixity.left?_ofPowers _ _, Fixity.right?_ofPowers _ _, hkeep.symm⟩, hall⟩

theorem addOperator_ok {o : OperatorEntry} {before scope : Scope}
    (h : addOperator directory before o c = .ok (scope, c')) :
    c.Defines 1 c' ∧ scope = before.insert o.id ⟨c.definitions.size⟩ ∧
      ∃ d, c'.definition? ⟨c.definitions.size⟩ = some d ∧ OperatorDenotes directory c' o d := by
  obtain ⟨d, c₁, hd, hinsert⟩ := Build.bind_eq_ok.mp h
  obtain ⟨hnone, hdenotes⟩ := buildDefinition_ok (Build.mapError_eq_ok.mp hd)
  obtain ⟨hscope, hc⟩ : before.insert o.id ⟨c₁.definitions.size⟩ = scope ∧ (c₁.define d).2 = c' :=
    Prod.mk.inj (Except.ok.inj hinsert)
  have hsize : c₁.definitions.size = c.definitions.size := hnone.size
  have hone := Catalog.defines_define c₁ d
  have hdefined := Catalog.definition?_define c₁ d
  rw [hc] at hone hdefined
  rw [hsize] at hdefined hscope
  exact ⟨hnone.trans hone, hscope.symm, d, hdefined, hdenotes.mono hone.toWithin⟩

theorem foldlM_addOperator_ok {os : List OperatorEntry} {before scope : Scope}
    (h : os.foldlM (addOperator directory) before c = .ok (scope, c')) :
    c.Defines os.length c' ∧
      scope = (os.zipIdx c.definitions.size).foldl (fun s o => s.insert o.1.id ⟨o.2⟩) before ∧
      ∀ n o, os[n]? = some o → ∃ d, c'.definition? ⟨c.definitions.size + n⟩ = some d ∧
        OperatorDenotes directory c' o d := by
  induction os generalizing c before with
  | nil =>
    obtain ⟨rfl, rfl⟩ := Build.pure_eq_ok.mp h
    exact ⟨.refl _, rfl, by simp⟩
  | cons o os ih =>
    rw [List.foldlM_cons] at h
    obtain ⟨next, c₁, hfirst, hrest⟩ := Build.bind_eq_ok.mp h
    obtain ⟨hone, rfl, d, hd, hdenotes⟩ := addOperator_ok hfirst
    obtain ⟨hdefines, hscope, hall⟩ := ih hrest
    rw [hone.size] at hscope hall
    refine ⟨by simpa [Nat.add_comm] using hone.trans hdefines, hscope, fun n o' hn => ?_⟩
    cases n with
    | zero =>
      obtain rfl : o = o' := by simpa using hn
      exact ⟨d, hdefines.definitions hd, hdenotes.mono hdefines.toWithin⟩
    | succ n =>
      -- the operators after the first are numbered from the next catalog on
      have hnext := hall n o' (by simpa using hn)
      rwa [Nat.add_assoc, Nat.add_comm 1 n] at hnext

/-! ### The scopes of a table -/

def scopeNames (t : Table) : List String := t.scopes.map ScopeEntry.name

def operators (t : Table) : List OperatorEntry := t.scopes.flatMap ScopeEntry.operators

/-- The operator that is defined under a reference, when the first definition comes after `c`. -/
def entry? (t : Table) (c : Catalog) (r : DefinitionRef) : Option OperatorEntry :=
  t.operators[r.index - c.definitions.size]?

/-- What building some scopes leaves in the directory, when the first definition has number `next`.
-/
def layout : Nat → List ScopeEntry → Directory
  | _, [] => []
  | next, s :: ss =>
    (s.name, (s.operators.zipIdx next).foldl (fun scope o => scope.insert o.1.id ⟨o.2⟩) .empty)
      :: layout (next + s.operators.length) ss

theorem names_layout (ss : List ScopeEntry) (next : Nat) :
    (layout next ss).map Prod.fst = ss.map ScopeEntry.name := by
  induction ss generalizing next with
  | nil => rfl
  | cons s ss ih => rw [layout, List.map_cons, List.map_cons, ih]

theorem lookup_layout_eq_none {ss : List ScopeEntry} {next : Nat} {name : String} :
    (layout next ss).lookup name = none ↔ name ∉ ss.map ScopeEntry.name := by
  rw [← names_layout ss next, List.lookup_eq_none_iff]
  simp only [bne_iff_ne, List.mem_map, not_exists, not_and]
  exact forall₂_congr fun p _ => ne_comm

theorem entries_foldl_zipIdx {os : List OperatorEntry} (before : Scope)
    (hids : (before.ids ++ os.map OperatorEntry.id).Nodup) (next : Nat) :
    ((os.zipIdx next).foldl (fun scope o => scope.insert o.1.id ⟨o.2⟩) before).entries =
      before.entries ++ (os.zipIdx next).map fun o => (o.1.id, ⟨o.2⟩) := by
  induction os generalizing before next with
  | nil => simp
  | cons o os ih =>
    have hnew : o.id ∉ before.ids := fun hmem =>
      (List.nodup_append.mp hids).2.2 _ hmem _ List.mem_cons_self rfl
    have hentries := before.entries_insert_of_notMem ⟨next⟩ hnew
    have hids' : (before.insert o.id ⟨next⟩).ids = before.ids ++ [o.id] := by
      rw [Scope.ids, hentries, List.map_append]
      rfl
    rw [List.zipIdx_cons, List.foldl_cons, ih _ (by rwa [hids', List.append_assoc]), hentries,
      List.append_assoc]
    rfl

theorem entries_layout {os : List OperatorEntry} (hids : (os.map OperatorEntry.id).Nodup)
    (next : Nat) :
    List.Forall₂ (fun e o => e.1 = o.id ∧ ∃ n, e.2 = ⟨next + n⟩ ∧ os[n]? = some o)
      ((os.zipIdx next).foldl (fun s o => s.insert o.1.id ⟨o.2⟩) Scope.empty).entries os := by
  rw [entries_foldl_zipIdx .empty hids, List.forall₂_iff_get]
  refine ⟨by simp [Scope.empty], fun i hl hi => ⟨by simp [Scope.empty], i,
    by simp [Scope.empty], ?_⟩⟩
  exact List.getElem?_eq_getElem hi

/-- The scope of a name holds the operators that the table lists under it, each under the number
that it has among all operators. -/
theorem lookup_layout {ss : List ScopeEntry} {s : ScopeEntry} (hs : s ∈ ss)
    (hnames : (ss.map ScopeEntry.name).Nodup) (hids : (s.operators.map OperatorEntry.id).Nodup)
    (next : Nat) :
    ∃ scope, (layout next ss).lookup s.name = some scope ∧
      List.Forall₂ (fun e o => e.1 = o.id ∧
        ∃ n, e.2 = ⟨next + n⟩ ∧ (ss.flatMap ScopeEntry.operators)[n]? = some o)
        scope.entries s.operators := by
  induction ss generalizing next with
  | nil => simp at hs
  | cons s₀ ss ih =>
    rw [List.map_cons, List.nodup_cons] at hnames
    rw [layout, List.lookup_cons]
    obtain rfl | htail := List.mem_cons.mp hs
    · refine ⟨_, by rw [beq_self_eq_true], (entries_layout hids next).imp fun e o he => ?_⟩
      obtain ⟨hid, n, hn, ho⟩ := he
      refine ⟨hid, n, hn, ?_⟩
      rw [List.flatMap_cons, List.getElem?_append_left (List.getElem?_eq_some_iff.mp ho).1, ho]
    · have hne : s.name ≠ s₀.name := fun he =>
        hnames.1 (he ▸ List.mem_map_of_mem htail)
      obtain ⟨scope, hlookup, hall⟩ := ih htail hnames.2 (next + s₀.operators.length)
      refine ⟨scope, by rwa [beq_false_of_ne hne], hall.imp fun e o he => ?_⟩
      obtain ⟨hid, n, hn, ho⟩ := he
      refine ⟨hid, s₀.operators.length + n, by rw [hn, Nat.add_assoc], ?_⟩
      rw [List.flatMap_cons, List.getElem?_append_right (Nat.le_add_right _ _),
        Nat.add_sub_cancel_left, ho]

theorem scope?_of_mem {t : Table} (hnames : t.scopeNames.Nodup) {s : ScopeEntry}
    (hs : s ∈ t.scopes) :
    t.scope? s.name = some s := by
  unfold scope?
  unfold scopeNames at hnames
  generalize t.scopes = ss at hs hnames
  induction ss with
  | nil => simp at hs
  | cons s₀ ss ih =>
    rw [List.map_cons, List.nodup_cons] at hnames
    obtain rfl | htail := List.mem_cons.mp hs
    · exact List.find?_cons_of_pos (decide_eq_true rfl)
    · have hne : s₀.name ≠ s.name := fun he => hnames.1 (he ▸ List.mem_map_of_mem htail)
      rw [List.find?_cons_of_neg (by simpa using hne), ih htail hnames.2]

theorem buildScope_ok {t : Table} {s : ScopeEntry} {scope : Scope} (hs : t.scope? s.name = some s)
    (h : t.buildScope directory s.name c = .ok (scope, c')) :
    c.Defines s.operators.length c' ∧
      scope = (s.operators.zipIdx c.definitions.size).foldl
        (fun s o => s.insert o.1.id ⟨o.2⟩) .empty ∧
      ∀ n o, s.operators[n]? = some o → ∃ d, c'.definition? ⟨c.definitions.size + n⟩ = some d ∧
        OperatorDenotes directory c' o d := by
  rw [buildScope, hs] at h
  exact foldlM_addOperator_ok h

/-- What building some scopes of the table leaves: their operators, one after the other, and in the
directory a scope under each of the names. -/
structure Fills (directory : DirectoryRef) (ss : List ScopeEntry) (c c' : Catalog) : Prop
    extends c.Grows (ss.flatMap ScopeEntry.operators).length c' where
  open_directory : directory.index < c'.directories.size
  named?_eq : ∀ name, c'.named? directory name =
    ((layout c.definitions.size ss).lookup name).or (c.named? directory name)
  defined : ∀ n o, (ss.flatMap ScopeEntry.operators)[n]? = some o →
    ∃ d, c'.definition? ⟨c.definitions.size + n⟩ = some d ∧ OperatorDenotes directory c' o d

theorem Fills.nil (h : directory.index < c.directories.size) : Fills directory [] c c :=
  ⟨⟨.refl c, rfl⟩, h, fun _ => rfl, nofun⟩

theorem Fills.cons {t : Table} {s : ScopeEntry} {ss : List ScopeEntry} {c₁ c' : Catalog}
    {scope : Scope}
    (hs : t.scope? s.name = some s) (hopen : directory.index < c.directories.size)
    (hnew : c.named? directory s.name = none) (hlater : s.name ∉ ss.map ScopeEntry.name)
    (hscope : t.buildScope directory s.name c = .ok (scope, c₁))
    (hrest : Fills directory ss (c₁.store directory s.name scope) c') :
    Fills directory (s :: ss) c c' := by
  obtain ⟨hdefines, rfl, hdefined⟩ := buildScope_ok hs hscope
  have hopen₁ : directory.index < c₁.directories.size := hdefines.directories ▸ hopen
  have hnew₁ : c₁.named? directory s.name = none := (hdefines.named?_eq _ _).trans hnew
  have hgrows := (hdefines.toGrows.trans (Catalog.grows_store hnew₁ _)).trans hrest.toGrows
  have hsize := hdefines.size
  have hlayout := hrest.named?_eq
  have hafter := hrest.defined
  simp only [Catalog.store, hsize] at hlayout hafter
  refine ⟨by simpa using hgrows, hrest.open_directory, fun name => ?_, fun n o hn => ?_⟩
  · rw [hlayout, layout, List.lookup_cons]
    by_cases hname : name = s.name
    · subst hname
      rw [lookup_layout_eq_none.mpr hlater, beq_self_eq_true, Option.none_or, ← Catalog.store,
        Catalog.named?_store c₁ hopen₁, if_pos rfl]
      rfl
    · rw [beq_false_of_ne hname, ← Catalog.store, Catalog.named?_store c₁ hopen₁, if_neg hname,
        hdefines.named?_eq]
  · rw [List.flatMap_cons] at hn
    by_cases hlt : n < s.operators.length
    · rw [List.getElem?_append_left hlt] at hn
      obtain ⟨d, hd, hdenotes⟩ := hdefined n o hn
      have hwithin := (Catalog.grows_store hnew₁ _).toWithin.trans hrest.toWithin
      exact ⟨d, hwithin.definitions hd, hdenotes.mono hwithin⟩
    · have hle := Nat.le_of_not_lt hlt
      rw [List.getElem?_append_right hle] at hn
      obtain ⟨d, hd, hdenotes⟩ := hafter _ o hn
      rw [Nat.add_assoc, Nat.add_sub_cancel' hle] at hd
      exact ⟨d, hd, hdenotes⟩

theorem fills_of_forM {t : Table} {ss : List ScopeEntry} {u : Unit}
    (hss : ∀ s ∈ ss, t.scope? s.name = some s) (hnames : (ss.map ScopeEntry.name).Nodup)
    (hopen : directory.index < c.directories.size)
    (hnew : ∀ s ∈ ss, c.named? directory s.name = none)
    (h : (ss.forM fun s => do Build.store directory s.name (← t.buildScope directory s.name)) c =
      .ok (u, c')) :
    Fills directory ss c c' := by
  induction ss generalizing c with
  | nil =>
    obtain ⟨-, rfl⟩ := Build.pure_eq_ok.mp h
    exact .nil hopen
  | cons s ss ih =>
    rw [List.map_cons, List.nodup_cons] at hnames
    rw [List.forM_eq_forM, List.forM_cons] at h
    obtain ⟨u₁, c₂, hfirst, hrest⟩ := Build.bind_eq_ok.mp h
    obtain ⟨scope, c₁, hscope, hstore⟩ := Build.bind_eq_ok.mp hfirst
    obtain ⟨-, rfl⟩ := Prod.mk.inj (Except.ok.inj hstore)
    obtain ⟨hs, hss⟩ := List.forall_mem_cons.mp hss
    obtain ⟨hnone, hnew⟩ := List.forall_mem_cons.mp hnew
    obtain ⟨hdefines, -, -⟩ := buildScope_ok hs hscope
    have hopen₁ : directory.index < c₁.directories.size := hdefines.directories ▸ hopen
    refine .cons hs hopen hnone hnames.1 hscope (ih hss hnames.2 ?_ (fun s' hs' => ?_) hrest)
    · simpa [Catalog.store] using hopen₁
    · have hne : s'.name ≠ s.name := fun he => hnames.1 (he ▸ List.mem_map_of_mem hs')
      rw [Catalog.named?_store c₁ hopen₁, if_neg hne, hdefines.named?_eq, hnew s' hs']

/-- What a successful build leaves: the operators of all scopes, one after the other, and a new
directory with every name of the table. -/
structure Built (t : Table) (c : Catalog) (top : Scope) (c' : Catalog) : Prop
    extends c.Grows t.operators.length c' where
  named?_eq : ∀ name, c'.named? c.openDirectory.1 name =
    (layout c.definitions.size t.scopes).lookup name
  top_eq : (layout c.definitions.size t.scopes).lookup t.top = some top
  defined : ∀ n o, t.operators[n]? = some o → ∃ d,
    c'.definition? ⟨c.definitions.size + n⟩ = some d ∧ OperatorDenotes c.openDirectory.1 c' o d

variable {t : Table} {top : Scope}

theorem fills_openDirectory {u : Unit} (hnames : t.scopeNames.Nodup)
    (h : (t.scopes.forM fun s => do
      Build.store c.openDirectory.1 s.name (← t.buildScope c.openDirectory.1 s.name))
        c.openDirectory.2 = .ok (u, c')) :
    Fills c.openDirectory.1 t.scopes c.openDirectory.2 c' := by
  refine fills_of_forM (fun s hs => scope?_of_mem hnames hs) hnames ?_ (fun s _ => ?_) h
  · simp [Catalog.openDirectory]
  · exact c.named?_openDirectory s.name

theorem Fills.named?_layout (h : Fills c.openDirectory.1 t.scopes c.openDirectory.2 c')
    (name : String) :
    c'.named? c.openDirectory.1 name = (layout c.definitions.size t.scopes).lookup name := by
  rw [h.named?_eq, c.named?_openDirectory, Option.or_none]
  rfl

theorem build_ok (hnames : t.scopeNames.Nodup) (h : t.build c = .ok (top, c')) :
    Built t c top c' := by
  obtain ⟨u, c₁, hcheck, hrest⟩ := Build.bind_eq_ok.mp h
  obtain ⟨-, rfl⟩ := Build.lift_eq_ok.mp hcheck
  rw [Build.openDirectory_bind] at hrest
  obtain ⟨u', c₂, hscopes, htop⟩ := Build.bind_eq_ok.mp hrest
  rw [Build.get_bind] at htop
  have hfills := fills_openDirectory hnames hscopes
  rw [hfills.named?_layout] at htop
  cases hlookup : (layout c₁.definitions.size t.scopes).lookup t.top with
  | none =>
    simp only [hlookup] at htop
    contradiction
  | some scope =>
    simp only [hlookup] at htop
    obtain ⟨rfl, rfl⟩ := Build.pure_eq_ok.mp htop
    have hgrows := (c₁.grows_openDirectory).trans hfills.toGrows
    rw [Nat.zero_add] at hgrows
    exact ⟨hgrows, hfills.named?_layout, hlookup, hfills.defined⟩

theorem Built.definition_of_makes (h : Built t c top c') {r : DefinitionRef} (hr : c.Makes c' r) :
    ∃ o d, t.entry? c r = some o ∧ c'.definition? r = some d ∧
      OperatorDenotes c.openDirectory.1 c' o d := by
  obtain ⟨hle, hlt⟩ := hr
  have hn : r.index - c.definitions.size < t.operators.length := by
    rw [h.size] at hlt
    omega
  have ho : t.entry? c r = some t.operators[r.index - c.definitions.size] :=
    List.getElem?_eq_getElem hn
  obtain ⟨d, hd, hdenotes⟩ := h.defined _ _ ho
  rw [Nat.add_sub_cancel' hle] at hd
  exact ⟨_, d, ho, hd, hdenotes⟩

theorem Built.exists_scope (h : Built t c top c') (hnames : t.scopeNames.Nodup) {s : ScopeEntry}
    (hs : s ∈ t.scopes) (hids : (s.operators.map OperatorEntry.id).Nodup) :
    ∃ scope, (layout c.definitions.size t.scopes).lookup s.name = some scope ∧
      List.Forall₂ (fun e o => e.1 = o.id ∧ c.Makes c' e.2 ∧ t.entry? c e.2 = some o)
        scope.entries s.operators := by
  obtain ⟨scope, hlookup, hall⟩ := lookup_layout hs hnames hids c.definitions.size
  refine ⟨scope, hlookup, hall.imp fun e o he => ?_⟩
  obtain ⟨hid, n, hn, ho⟩ := he
  have hlt : n < t.operators.length := (List.getElem?_eq_some_iff.mp ho).1
  rw [hn, entry?, Nat.add_sub_cancel_left]
  exact ⟨hid, ⟨Nat.le_add_right _ _, h.size ▸ Nat.add_lt_add_left hlt _⟩, ho⟩

end Table

end Distfix
