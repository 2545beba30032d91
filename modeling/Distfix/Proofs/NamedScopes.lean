import Distfix.Proofs.TableFaults

namespace Distfix

/-- The scope of a reference: the named one, added to the enclosing one if the reference inherits.
-/
def ScopeReference.yield (named : String → Scope) (r : ScopeReference) (enclosing : Scope) :
    Scope :=
  if r.inherit then enclosing.merged (named r.name) else named r.name

/-- A separator that refers to no scope has no region. The scope that another one refers to is found
under its name when the region is entered, and gives the scope of the region. -/
def SeparatorEntry.Resolves (t : Table) (named : String → Scope) (c : Catalog) (s : SeparatorEntry)
    (sep : Separator) : Prop :=
  match s.scope with
  | none => sep.region = none
  | some r => r.name ∈ t.scopeNames ∧ ∃ g directory, sep.region = some g ∧
      c.generator? g = some (.named directory r.name r.inherit) ∧
      c.named? directory r.name = some (named r.name) ∧
      ∀ enclosing, c.derive sep.region enclosing = r.yield named enclosing

namespace Table

/-- The scopes of regions entered one after another, the last one first. The first scope is any
scope. Every other one is generated, from the scope before it, by a separator of an operator that
`own` holds for and that `top` or a scope so far contains. -/
inductive Descent (c : Catalog) (own : DefinitionRef → Prop) (top : Scope) : List Scope → Prop
  | start (enclosing : Scope) : Descent c own top [enclosing]
  | enter {outer scope : Scope} {before : List Scope} {e : OperatorId × DefinitionRef}
      {d : Definition} {sep : Separator} {g : GeneratorRef} {gen : Generator}
      (descent : Descent c own top (outer :: before)) (reached : scope ∈ top :: outer :: before)
      (entry : e ∈ scope.entries) (owned : own e.2) (definition : c.definition? e.2 = some d)
      (separator : sep ∈ d.separators) (region : sep.region = some g)
      (generator : c.generator? g = some gen) :
      Descent c own top (c.apply gen outer :: outer :: before)

def references (t : Table) : List ScopeReference := t.operators.flatMap OperatorEntry.references

variable {t : Table} {c c' later : Catalog} {top : Scope}

theorem mem_references {o : OperatorEntry} (ho : o ∈ t.operators) {s : SeparatorEntry}
    (hs : s ∈ o.separators) {r : ScopeReference} (hr : s.scope = some r) : r ∈ t.references :=
  List.mem_flatMap.mpr ⟨o, ho, List.mem_filterMap.mpr ⟨s, hs, hr⟩⟩

theorem WellFormed.name_mem (h : t.WellFormed) {o : OperatorEntry} (ho : o ∈ t.operators)
    {s : SeparatorEntry} (hs : s ∈ o.separators) {r : ScopeReference} (hr : s.scope = some r) :
    r.name ∈ t.scopeNames := by
  obtain ⟨scope, hscope, ho⟩ := List.mem_flatMap.mp ho
  exact h.references scope hscope o ho s hs r hr

def found (c : Catalog) (directory : DirectoryRef) (name : String) : Scope :=
  (c.named? directory name).getD .empty

theorem Built.named?_found (h : Built t c top c') {name : String} (hname : name ∈ t.scopeNames) :
    c'.named? c.openDirectory.1 name = some (found c' c.openDirectory.1 name) := by
  rw [found, h.named?_eq]
  cases hlookup : (layout c.definitions.size t.scopes).lookup name with
  | none => exact absurd hname (lookup_layout_eq_none.mp hlookup)
  | some scope => rfl

theorem derive_named {directory : DirectoryRef} {r : ScopeReference} {named : String → Scope}
    {g : GeneratorRef} (hg : c.generator? g = some (.named directory r.name r.inherit))
    (hnamed : c.named? directory r.name = some (named r.name)) (enclosing : Scope) :
    c.derive (some g) enclosing = r.yield named enclosing := by
  rw [Catalog.derive, Option.bind_some, hg]
  dsimp only [Catalog.apply]
  rw [hnamed]
  rfl

theorem SeparatorDenotes.resolves (h : Built t c top c') (hlater : c'.Within later)
    {s : SeparatorEntry} {sep : Separator} (hs : SeparatorDenotes c.openDirectory.1 later s sep)
    (hnames : ∀ r, s.scope = some r → r.name ∈ t.scopeNames) :
    s.Resolves t (found c' c.openDirectory.1) later sep := by
  unfold SeparatorEntry.Resolves
  have hregion := hs.region
  cases hscope : s.scope with
  | none => simpa [hscope] using hregion
  | some r =>
    rw [hscope, Option.map_some, Option.map_eq_some_iff] at hregion
    obtain ⟨g, hg, hgen⟩ := hregion
    have hnamed := hlater.named (h.named?_found (hnames r hscope))
    refine ⟨hnames r hscope, g, _, hg, hgen, hnamed, fun enclosing => ?_⟩
    rw [hg]
    exact derive_named hgen hnamed enclosing

theorem Built.definition_resolves (h : Built t c top c') (hwell : t.WellFormed)
    (hlater : c'.Within later) {r : DefinitionRef} (hr : c.Makes c' r) :
    ∃ o d, t.entry? c r = some o ∧ later.definition? r = some d ∧
      List.Forall₂ (SeparatorEntry.Resolves t (found c' c.openDirectory.1) later)
        o.separators d.separators := by
  obtain ⟨o, d, ho, hd, hdenotes⟩ := h.definition_of_makes hr
  have hnames : ∀ s ∈ o.separators, ∀ ref, s.scope = some ref → ref.name ∈ t.scopeNames :=
    fun s hs ref href => hwell.name_mem (List.mem_of_getElem? ho) hs href
  have hall := (List.forall₂_and_left _ _).mpr ⟨hnames, (hdenotes.mono hlater).denote⟩
  exact ⟨o, d, ho, hlater.definitions hd, hall.imp fun s sep hs => hs.2.resolves h hlater hs.1⟩

theorem Built.apply_of_makes (h : Built t c top c') (hwell : t.WellFormed)
    (hlater : c'.Within later)
    {r : DefinitionRef} (hr : c.Makes c' r) {d : Definition} (hd : later.definition? r = some d)
    {sep : Separator} (hsep : sep ∈ d.separators) {g : GeneratorRef} (hg : sep.region = some g)
    {gen : Generator} (hgen : later.generator? g = some gen) :
    ∃ ref ∈ t.references, ∀ enclosing,
      later.apply gen enclosing = ref.yield (found c' c.openDirectory.1) enclosing := by
  obtain ⟨o, d', ho, hd', hall⟩ := h.definition_resolves hwell hlater hr
  obtain rfl : d' = d := Option.some.inj (hd'.symm.trans hd)
  obtain ⟨i, hi, rfl⟩ := List.getElem_of_mem hsep
  have hi' : i < o.separators.length := hall.length_eq ▸ hi
  have hresolves : o.separators[i].Resolves t _ later d'.separators[i] := hall.get hi' hi
  unfold SeparatorEntry.Resolves at hresolves
  cases hscope : o.separators[i].scope with
  | none =>
    simp only [hscope] at hresolves
    rw [hresolves] at hg
    contradiction
  | some ref =>
    simp only [hscope] at hresolves
    obtain ⟨-, -, -, -, -, -, hderive⟩ := hresolves
    simp only [hg, Catalog.derive, Option.bind_some, hgen] at hderive
    exact ⟨ref, mem_references (List.mem_of_getElem? ho) (List.getElem_mem hi') hscope, hderive⟩

/-- Names keep what they stand for. After a table is built, however much is built later and in
whatever scopes regions are entered one after another, every reference finds the one scope of its
name and gives it, or adds it to the enclosing one. -/
theorem named_scopes_resolve (h : t.build c = .ok (top, c')) :
    ∃ named : String → Scope, named t.top = top ∧
      (∀ s ∈ t.scopes, List.Forall₂
        (fun e o => e.1 = o.id ∧ c.Makes c' e.2 ∧ t.entry? c e.2 = some o)
        (named s.name).entries s.operators) ∧
      ∀ later, c'.Within later → ∀ visited, Descent later (c.Makes c') top visited →
        (∀ scope ∈ top :: visited, ∀ e ∈ scope.entries, c.Makes c' e.2 →
          ∃ o d, t.entry? c e.2 = some o ∧ later.definition? e.2 = some d ∧
            List.Forall₂ (SeparatorEntry.Resolves t named later) o.separators d.separators) ∧
        visited.IsChain fun inner outer => ∃ r ∈ t.references, inner = r.yield named outer := by
  have hwell := wellFormed_of_build h
  have hbuilt := build_ok hwell.names h
  refine ⟨found c' c.openDirectory.1, ?_, fun s hs => ?_, fun later hlater visited hv =>
    ⟨fun scope _ e _ hmade => hbuilt.definition_resolves hwell hlater hmade, ?_⟩⟩
  · rw [found, hbuilt.named?_eq, hbuilt.top_eq, Option.getD_some]
  · obtain ⟨scope, hscope, hall⟩ := hbuilt.exists_scope hwell.names hs (hwell.ids s hs)
    rwa [found, hbuilt.named?_eq, hscope, Option.getD_some]
  -- what was reached before does not matter: every operator that was made resolves
  · induction hv with
    | start enclosing => exact .singleton _
    | enter _ _ _ owned definition separator region generator ih =>
      obtain ⟨r, hr, happly⟩ :=
        hbuilt.apply_of_makes hwell hlater owned definition separator region generator
      exact List.isChain_cons_cons.mpr ⟨⟨r, hr, happly _⟩, ih⟩

end Table

namespace Sample

def expressions : Scope := ⟨[("block", ⟨0⟩), ("plus", ⟨1⟩)], by decide⟩

def statements : Scope := ⟨[("binding", ⟨2⟩), ("sequence", ⟨3⟩)], by decide⟩

def bound : Scope :=
  ⟨[("binding", ⟨2⟩), ("sequence", ⟨3⟩), ("block", ⟨0⟩), ("plus", ⟨1⟩)], by decide⟩

def blocksCatalog : Catalog where
  definitions := #[
    ⟨.one "begin" (by decide), [⟨.one "finish" (by decide), .once, some ⟨0⟩⟩], .closed, false⟩,
    ⟨.one "plus" (by decide), [], .between 10 11, false⟩,
    ⟨.one "let" (by decide), [⟨.one "in" (by decide), .once, some ⟨1⟩⟩], .closed, false⟩,
    ⟨.one "next" (by decide), [], .between 1 2, true⟩]
  generators := #[.named ⟨0⟩ "statement" false, .named ⟨0⟩ "expression" true]
  directories := #[[("statement", statements), ("expression", expressions)]]

end Sample

theorem Table.blocks_named_scopes_resolve :
    Sample.blocks.build .empty = .ok (Sample.expressions, Sample.blocksCatalog) ∧
      Descent Sample.blocksCatalog (Catalog.empty.Makes Sample.blocksCatalog) Sample.expressions
        [Sample.bound, Sample.statements, .empty] ∧
      ∃ named : String → Scope, named "expression" = Sample.expressions ∧
        [Sample.bound, Sample.statements, .empty].IsChain fun inner outer =>
          ∃ r ∈ Sample.blocks.references, inner = r.yield named outer := by
  have hbuild : Sample.blocks.build .empty = .ok (Sample.expressions, Sample.blocksCatalog) := rfl
  have hblock : Descent Sample.blocksCatalog (Catalog.empty.Makes Sample.blocksCatalog)
      Sample.expressions
      [Sample.blocksCatalog.apply (.named ⟨0⟩ "statement" false) .empty, .empty] := by
    refine .enter (e := ("block", ⟨0⟩)) (.start .empty) List.mem_cons_self List.mem_cons_self ?_ rfl
      (List.mem_cons_of_mem _ List.mem_cons_self) rfl rfl
    exact ⟨by decide, by decide⟩
  have hbinding : Descent Sample.blocksCatalog (Catalog.empty.Makes Sample.blocksCatalog)
      Sample.expressions
      [Sample.blocksCatalog.apply (.named ⟨0⟩ "expression" true) Sample.statements,
        Sample.statements, .empty] := by
    refine .enter (e := ("binding", ⟨2⟩)) hblock (List.mem_cons_of_mem _ List.mem_cons_self)
      List.mem_cons_self ?_ rfl (List.mem_cons_of_mem _ List.mem_cons_self) rfl rfl
    exact ⟨by decide, by decide⟩
  obtain ⟨named, htop, -, hall⟩ := named_scopes_resolve hbuild
  exact ⟨hbuild, hbinding, named, htop, (hall _ (.refl _) _ hbinding).2⟩

end Distfix
