import Mathlib.Data.List.Infix
import Distfix.Proofs.Building

namespace Distfix

/-! ### Reporting the first fault -/

section Reports

variable {ε ε' α β : Type} {fs gs : List ε}

/-- The computation fails with the first of the faults, and succeeds when there are none. -/
def Reports : List ε → Except ε α → Prop
  | [], x => ∃ a, x = .ok a
  | e :: _, x => x = .error e

theorem Reports.exists_ok_iff {x : Except ε α} (h : Reports fs x) : (∃ a, x = .ok a) ↔ fs = [] := by
  cases fs with
  | nil => exact iff_of_true h rfl
  | cons e fs =>
    have he : x = .error e := h
    simp [he]

theorem Reports.eq_error_iff {x : Except ε α} (h : Reports fs x) (e : ε) :
    x = .error e ↔ fs.head? = some e := by
  cases fs with
  | nil =>
    obtain ⟨a, ha⟩ := h
    simp [ha]
  | cons e' fs =>
    have he : x = .error e' := h
    simp [he]

theorem Reports.append {x : Except ε α} {f : α → Except ε β} (h : Reports fs x)
    (h' : ∀ a, x = .ok a → Reports gs (f a)) : Reports (fs ++ gs) (x >>= f) := by
  cases fs with
  | nil =>
    obtain ⟨a, rfl⟩ := h
    exact h' a rfl
  | cons e fs =>
    have he : x = .error e := h
    rw [he]
    rfl

theorem Reports.bind_ok {x : Except ε α} {f : α → Except ε β} (h : Reports fs x)
    (h' : ∀ a, x = .ok a → ∃ b, f a = .ok b) : Reports fs (x >>= f) := by
  have happend : Reports (fs ++ []) (x >>= f) := h.append h'
  rwa [List.append_nil] at happend

theorem Reports.mapError {x : Except ε α} (h : Reports fs x) (g : ε → ε') :
    Reports (fs.map g) (x.mapError g) := by
  cases fs with
  | nil =>
    obtain ⟨a, rfl⟩ := h
    exact ⟨a, rfl⟩
  | cons e fs =>
    have he : x = .error e := h
    rw [he]
    rfl

theorem Reports.forM {f : α → Except ε Unit} {faults : α → List ε}
    (h : ∀ a, Reports (faults a) (f a)) (as : List α) :
    Reports (as.flatMap faults) (as.forM f) := by
  induction as with
  | nil => exact ⟨(), rfl⟩
  | cons a as ih =>
    rw [List.forM_eq_forM, List.forM_cons, List.flatMap_cons]
    exact (h a).append fun _ _ => ih

theorem reports_ok (a : α) : Reports ([] : List ε) (.ok a) := ⟨a, rfl⟩

def faultIf (p : Prop) [Decidable p] (e : ε) : List ε := if p then [e] else []

theorem faultIf_eq_nil {p : Prop} [Decidable p] {e : ε} : faultIf p e = [] ↔ ¬ p := by
  unfold faultIf
  split <;> simpa

theorem Reports.guard {p : Prop} [Decidable p] {e : ε} {x : Except ε α}
    (h : ¬ p → Reports fs x) : Reports (faultIf p e ++ fs) (if p then .error e else x) := by
  unfold faultIf
  split
  · rfl
  · exact h ‹_›

end Reports

namespace Build

variable {α β : Type} {fs gs : List GrammarError} {c : Catalog}

theorem reports_bind {x : Build α} {f : α → Build β} (h : Reports fs (x c))
    (h' : ∀ a c', x c = .ok (a, c') → Reports gs (f a c')) : Reports (fs ++ gs) ((x >>= f) c) :=
  h.append fun p hp => h' p.1 p.2 hp

theorem reports_bind_ok {x : Build α} {f : α → Build β} (h : Reports fs (x c))
    (h' : ∀ a c', x c = .ok (a, c') → ∃ r, f a c' = .ok r) : Reports fs ((x >>= f) c) :=
  h.bind_ok fun p hp => h' p.1 p.2 hp

theorem reports_lift {x : Except GrammarError α} (h : Reports fs x) :
    Reports fs ((liftM x : Build α) c) :=
  h.bind_ok fun a _ => ⟨(a, c), rfl⟩

theorem reports_mapM {f : α → Build β} {faults : α → List GrammarError}
    (h : ∀ a c, Reports (faults a) (f a c)) (as : List α) (c : Catalog) :
    Reports (as.flatMap faults) (as.mapM f c) := by
  induction as generalizing c with
  | nil => exact reports_ok _
  | cons a as ih =>
    rw [List.mapM_cons, List.flatMap_cons]
    exact reports_bind (h a c) fun b c' _ => reports_bind_ok (ih c') fun bs c'' _ => ⟨_, rfl⟩

theorem reports_foldlM {f : β → α → Build β} {faults : α → List GrammarError}
    (h : ∀ b a c, Reports (faults a) (f b a c)) (as : List α) (b : β) (c : Catalog) :
    Reports (as.flatMap faults) (as.foldlM f b c) := by
  induction as generalizing b c with
  | nil => exact reports_ok _
  | cons a as ih =>
    rw [List.foldlM_cons, List.flatMap_cons]
    exact reports_bind (h b a c) fun b' c' _ => ih b' c'

theorem reports_forM {f : α → Build Unit} {faults : α → List GrammarError} {as : List α}
    (h : ∀ a ∈ as, ∀ c, Reports (faults a) (f a c)) (c : Catalog) :
    Reports (as.flatMap faults) (as.forM f c) := by
  induction as generalizing c with
  | nil => exact reports_ok _
  | cons a as ih =>
    obtain ⟨ha, has⟩ := List.forall_mem_cons.mp h
    rw [List.forM_eq_forM, List.forM_cons, List.flatMap_cons]
    exact reports_bind (ha c) fun _ c' _ => ih has c'

end Build

/-! ### The faults of a table -/

def SeparatorEntry.rangeFaults (s : SeparatorEntry) : List GrammarError :=
  s.max.toList.flatMap fun m =>
    faultIf (m = 0) .zeroMaximum ++ faultIf (m < s.min) (.invertedRepeats s.min.toNat m.toNat)

def SeparatorEntry.textFaults (s : SeparatorEntry) : List GrammarError :=
  faultIf (s.tokens = []) .emptyTokenSet ++ faultIf ("" ∈ s.tokens) .emptyToken

def SeparatorEntry.faults (s : SeparatorEntry) : List GrammarError := s.rangeFaults ++ s.textFaults

def OperatorEntry.leadingFaults (o : OperatorEntry) : List GrammarError :=
  match o.separators with
  | [] => [.noSeparators]
  | s :: _ => faultIf (¬ (s.min = 1 ∧ s.max = some 1)) .leadingNotOnce ++
      faultIf (s.scope.isSome = true) .leadingScoped

def OperatorEntry.faults (o : OperatorEntry) : List GrammarError :=
  o.separators.flatMap SeparatorEntry.faults ++ o.leadingFaults

def withEarlier {α : Type} (xs : List α) : List (List α × α) := xs.inits.zip xs

namespace Table

def nameFaults (t : Table) : List GrammarError :=
  (withEarlier t.scopeNames).flatMap fun n => faultIf (n.2 ∈ n.1) (.duplicatedScope n.2)

def referenceFaults (names : List String) (s : SeparatorEntry) : List GrammarError :=
  s.scope.toList.flatMap fun r => faultIf (r.name ∉ names) (.undefinedScope r.name)

def operatorNameFaults (names : List String) (scope : String) (earlier : List OperatorEntry)
    (o : OperatorEntry) : List GrammarError :=
  faultIf (o.id ∈ earlier.map OperatorEntry.id) (.duplicatedOperator scope o.id) ++
    o.separators.flatMap (referenceFaults names)

def scopeNameFaults (names : List String) (s : ScopeEntry) : List GrammarError :=
  (withEarlier s.operators).flatMap fun o => operatorNameFaults names s.name o.1 o.2

def faultsIn (o : OperatorEntry) : List GrammarError := o.faults.map (.inOperator o.id)

/-- The faults of a table, in the order in which they are looked for. -/
def faults (t : Table) : List GrammarError :=
  t.nameFaults ++ t.scopes.flatMap (scopeNameFaults t.scopeNames) ++
    t.scopes.flatMap (fun s => s.operators.flatMap faultsIn) ++
    faultIf (t.top ∉ t.scopeNames) (.undefinedScope t.top)

end Table

/-! ### Well-formed tables -/

structure SeparatorEntry.WellFormed (s : SeparatorEntry) : Prop where
  positive : s.max ≠ some 0
  ordered : ∀ m ∈ s.max, s.min ≤ m
  texts : s.tokens ≠ []
  noEmpty : "" ∉ s.tokens

structure OperatorEntry.WellFormed (o : OperatorEntry) : Prop where
  separators : ∀ s ∈ o.separators, s.WellFormed
  leading : ∃ s rest, o.separators = s :: rest ∧ s.min = 1 ∧ s.max = some 1 ∧ s.scope = none

structure Table.WellFormed (t : Table) : Prop where
  names : t.scopeNames.Nodup
  ids : ∀ s ∈ t.scopes, (s.operators.map OperatorEntry.id).Nodup
  references : ∀ s ∈ t.scopes, ∀ o ∈ s.operators, ∀ sep ∈ o.separators, ∀ r ∈ sep.scope,
    r.name ∈ t.scopeNames
  operators : ∀ s ∈ t.scopes, ∀ o ∈ s.operators, o.WellFormed
  top : t.top ∈ t.scopeNames

theorem SeparatorEntry.faults_eq_nil {s : SeparatorEntry} : s.faults = [] ↔ s.WellFormed := by
  simp only [faults, rangeFaults, textFaults, List.append_eq_nil_iff, List.flatMap_eq_nil_iff,
    faultIf_eq_nil, Option.mem_toList, UInt64.not_lt]
  constructor
  · rintro ⟨hrange, htexts, hempty⟩
    exact ⟨fun h => (hrange 0 h).1 rfl, fun m hm => (hrange m hm).2, htexts, hempty⟩
  · rintro ⟨hpositive, hordered, htexts, hempty⟩
    exact ⟨fun m hm => ⟨fun h => hpositive (h ▸ hm), hordered m hm⟩, htexts, hempty⟩

theorem OperatorEntry.faults_eq_nil {o : OperatorEntry} : o.faults = [] ↔ o.WellFormed := by
  have hleading : o.leadingFaults = [] ↔
      ∃ s rest, o.separators = s :: rest ∧ s.min = 1 ∧ s.max = some 1 ∧ s.scope = none := by
    unfold leadingFaults
    cases o.separators with
    | nil => simp
    | cons s rest => simp [faultIf_eq_nil, and_assoc]
  rw [faults, List.append_eq_nil_iff, List.flatMap_eq_nil_iff, hleading]
  simp only [SeparatorEntry.faults_eq_nil]
  exact ⟨fun h => ⟨h.1, h.2⟩, fun h => ⟨h.separators, h.leading⟩⟩

theorem withEarlier_cons {α : Type} (x : α) (xs : List α) :
    withEarlier (x :: xs) = ([], x) :: (withEarlier xs).map (Prod.map (x :: ·) id) := by
  rw [withEarlier, List.inits_cons, List.zip_cons_cons, withEarlier, List.zip_map_left]

theorem flatMap_withEarlier_cons {α β : Type} (f : List α × α → List β) (x : α) (xs : List α) :
    (withEarlier (x :: xs)).flatMap f =
      f ([], x) ++ (withEarlier xs).flatMap fun p => f (x :: p.1, p.2) := by
  rw [withEarlier_cons, List.flatMap_cons, List.flatMap_map]
  rfl

theorem forall_withEarlier_cons {α : Type} {P : List α × α → Prop} {x : α} {xs : List α} :
    (∀ p ∈ withEarlier (x :: xs), P p) ↔ P ([], x) ∧ ∀ p ∈ withEarlier xs, P (x :: p.1, p.2) := by
  rw [withEarlier_cons, List.forall_mem_cons, List.forall_mem_map]
  rfl

theorem forall_withEarlier_snd {α : Type} {P : α → Prop} {xs : List α} :
    (∀ p ∈ withEarlier xs, P p.2) ↔ ∀ x ∈ xs, P x := by
  induction xs with
  | nil => simp [withEarlier]
  | cons x xs ih => rw [forall_withEarlier_cons, ih, List.forall_mem_cons]

theorem forall_withEarlier_notMem {α β : Type} {key : α → β} {xs : List α} :
    (∀ p ∈ withEarlier xs, key p.2 ∉ p.1.map key) ↔ (xs.map key).Nodup := by
  induction xs with
  | nil => simp [withEarlier]
  | cons x xs ih =>
    have hhead : (∀ p ∈ withEarlier xs, key p.2 ≠ key x) ↔ ∀ y ∈ xs, key y ≠ key x :=
      forall_withEarlier_snd (P := fun y => key y ≠ key x)
    have hsplit : (∀ p ∈ withEarlier xs, key p.2 ∉ (x :: p.1).map key) ↔
        (∀ p ∈ withEarlier xs, key p.2 ≠ key x) ∧ ∀ p ∈ withEarlier xs, key p.2 ∉ p.1.map key := by
      simp only [List.map_cons, List.mem_cons, not_or]
      exact ⟨fun h => ⟨fun p hp => (h p hp).1, fun p hp => (h p hp).2⟩,
        fun h p hp => ⟨h.1 p hp, h.2 p hp⟩⟩
    rw [forall_withEarlier_cons, hsplit, ih, hhead, List.map_cons, List.nodup_cons, List.mem_map]
    simp

namespace Table

theorem nameFaults_eq_nil {t : Table} : t.nameFaults = [] ↔ t.scopeNames.Nodup := by
  have h : (∀ n ∈ withEarlier t.scopeNames, id n.2 ∉ n.1.map id) ↔ (t.scopeNames.map id).Nodup :=
    forall_withEarlier_notMem
  simp only [List.map_id, id_eq] at h
  rw [nameFaults, List.flatMap_eq_nil_iff, ← h]
  simp only [faultIf_eq_nil]

theorem referenceFaults_eq_nil {names : List String} {s : SeparatorEntry} :
    referenceFaults names s = [] ↔ ∀ r ∈ s.scope, r.name ∈ names := by
  simp only [referenceFaults, List.flatMap_eq_nil_iff, Option.mem_toList, Option.mem_def,
    faultIf_eq_nil, not_not]

theorem scopeNameFaults_eq_nil {names : List String} {s : ScopeEntry} :
    scopeNameFaults names s = [] ↔ (s.operators.map OperatorEntry.id).Nodup ∧
      ∀ o ∈ s.operators, ∀ sep ∈ o.separators, ∀ r ∈ sep.scope, r.name ∈ names := by
  have hreferences :
      (∀ p ∈ withEarlier s.operators, ∀ sep ∈ p.2.separators, ∀ r ∈ sep.scope, r.name ∈ names) ↔
      ∀ o ∈ s.operators, ∀ sep ∈ o.separators, ∀ r ∈ sep.scope, r.name ∈ names :=
    forall_withEarlier_snd
      (P := fun o : OperatorEntry => ∀ sep ∈ o.separators, ∀ r ∈ sep.scope, r.name ∈ names)
  rw [scopeNameFaults, List.flatMap_eq_nil_iff, ← forall_withEarlier_notMem, ← hreferences]
  simp only [operatorNameFaults, List.append_eq_nil_iff, faultIf_eq_nil, List.flatMap_eq_nil_iff,
    referenceFaults_eq_nil]
  exact ⟨fun h => ⟨fun p hp => (h p hp).1, fun p hp => (h p hp).2⟩,
    fun h p hp => ⟨h.1 p hp, h.2 p hp⟩⟩

theorem faults_eq_nil {t : Table} : t.faults = [] ↔ t.WellFormed := by
  simp only [faults, List.append_eq_nil_iff, List.flatMap_eq_nil_iff, nameFaults_eq_nil,
    scopeNameFaults_eq_nil, faultsIn, List.map_eq_nil_iff, OperatorEntry.faults_eq_nil,
    faultIf_eq_nil, not_not]
  constructor
  · rintro ⟨⟨⟨hnames, hscopes⟩, hoperators⟩, htop⟩
    exact ⟨hnames, fun s hs => (hscopes s hs).1, fun s hs => (hscopes s hs).2, hoperators, htop⟩
  · rintro ⟨hnames, hids, hreferences, hoperators, htop⟩
    exact ⟨⟨⟨hnames, fun s hs => ⟨hids s hs, hreferences s hs⟩⟩, hoperators⟩, htop⟩

end Table

/-! ### Building reports the first fault -/

theorem Repeats.reports_between (s : SeparatorEntry) :
    Reports s.rangeFaults (between s.min.toNat (.ofOption (s.max.map UInt64.toNat))) := by
  unfold SeparatorEntry.rangeFaults
  cases s.max with
  | none => exact reports_ok _
  | some m =>
    have hzero : m = 0 ↔ m.toNat = 0 := UInt64.toNat_inj.symm
    have hlt : m < s.min ↔ ¬ s.min.toNat ≤ m.toNat := by rw [UInt64.lt_iff_toNat_lt, Nat.not_le]
    simp only [Option.toList_some, List.flatMap_cons, List.flatMap_nil, List.append_nil, hzero, hlt,
      Option.map_some, Bound.ofOption, between, faultIf]
    by_cases hm : m.toNat = 0
    · rw [if_pos hm, dif_pos hm]
      rfl
    · rw [if_neg hm, dif_neg hm]
      by_cases hmin : s.min.toNat ≤ m.toNat
      · rw [if_neg (not_not_intro hmin), dif_pos hmin]
        exact reports_ok _
      · rw [if_pos hmin, dif_neg hmin]
        rfl

theorem Spellings.sort_eq_nil {ts : List String} : sort ts = [] ↔ ts = [] := by
  simp only [List.eq_nil_iff_forall_not_mem, mem_sort]

theorem Spellings.reports_ofList (s : SeparatorEntry) :
    Reports s.textFaults (ofList s.tokens) := by
  unfold SeparatorEntry.textFaults faultIf ofList
  simp only [sort_eq_nil, mem_sort]
  split
  · rfl
  · split
    · rfl
    · exact reports_ok _

theorem Separator.reports_ofList (s : SeparatorEntry) (repeats : Repeats) :
    Reports s.textFaults (ofList s.tokens repeats) :=
  (Spellings.reports_ofList s).bind_ok fun _ _ => ⟨_, rfl⟩

namespace Table

variable {directory : DirectoryRef} {c : Catalog}

theorem reports_buildSeparator (s : SeparatorEntry) (c : Catalog) :
    Reports s.faults (buildSeparator directory s c) := by
  refine Build.reports_bind (Build.reports_lift (Repeats.reports_between s)) fun repeats c₁ _ => ?_
  refine Build.reports_bind_ok (Build.reports_lift (Separator.reports_ofList s repeats))
    fun separator c₂ _ => ?_
  cases s.scope with
  | none => exact ⟨_, rfl⟩
  | some r => exact ⟨_, rfl⟩

theorem once_iff {s : SeparatorEntry} {lead : Separator} (h : s.Describes lead) :
    lead.repeats = .once ↔ s.min = 1 ∧ s.max = some 1 := by
  have hmin : lead.repeats.min = 1 ↔ s.min = 1 := by
    rw [h.min, ← UInt64.toNat_inj]
    rfl
  have hmax : lead.repeats.max = .finite 1 ↔ s.max = some 1 := by
    rw [h.max]
    cases s.max with
    | none => simp [Bound.ofOption]
    | some m => simp [Bound.ofOption, ← UInt64.toNat_inj]
  rw [← hmin, ← hmax]
  constructor
  · intro heq
    rw [heq]
    exact ⟨rfl, rfl⟩
  · cases hr : lead.repeats
    rintro ⟨rfl, rfl⟩
    rfl

theorem reports_ofSeparators {o : OperatorEntry} {separators : List Separator} {fixity : Fixity}
    (h : List.Forall₂ (SeparatorDenotes directory c) o.separators separators) :
    Reports o.leadingFaults (Definition.ofSeparators separators fixity) := by
  unfold OperatorEntry.leadingFaults
  generalize o.separators = entries at h
  cases h with
  | nil => rfl
  | @cons s lead ss rest hlead _ =>
    have hregion : lead.region.isSome = s.scope.isSome := by
      have hmap := congrArg Option.isSome hlead.region
      rwa [Option.isSome_map, Option.isSome_map] at hmap
    dsimp only [Definition.ofSeparators]
    simp only [ne_eq, once_iff hlead.toDescribes, hregion]
    rw [← List.append_nil (faultIf (s.scope.isSome = true) _)]
    exact .guard fun _ => .guard fun _ => reports_ok _

theorem reports_buildDefinition (o : OperatorEntry) (c : Catalog) :
    Reports o.faults (buildDefinition directory o c) := by
  refine Build.reports_bind (Build.reports_mapM reports_buildSeparator o.separators c)
    fun separators c₁ hs => ?_
  -- the rules for the leading separator are checked on what was built, not on the entry
  obtain ⟨-, hall⟩ :=
    Build.forall₂_of_mapM (buildSeparator directory) (fun hc hP => hP.mono hc) buildSeparator_ok hs
  exact Build.reports_bind_ok (Build.reports_lift (reports_ofSeparators hall))
    fun d c₂ _ => ⟨_, rfl⟩

theorem reports_addOperator (scope : Scope) (o : OperatorEntry) (c : Catalog) :
    Reports (faultsIn o) (addOperator directory scope o c) := by
  have hoperator : Reports (faultsIn o) (buildOperator directory o c) :=
    (reports_buildDefinition o c).mapError (GrammarError.inOperator o.id)
  exact Build.reports_bind_ok hoperator fun d c₁ _ => ⟨_, rfl⟩

theorem reports_buildScope {t : Table} {s : ScopeEntry} (hs : t.scope? s.name = some s)
    (c : Catalog) :
    Reports (s.operators.flatMap faultsIn) (t.buildScope directory s.name c) := by
  rw [buildScope, hs]
  exact Build.reports_foldlM reports_addOperator s.operators .empty c

theorem reports_firstRepeated {fs : List GrammarError} {x : Except GrammarError Unit}
    (h : Reports fs x) (names earlier seen : List String) (hseen : ∀ n, n ∈ seen ↔ n ∈ earlier) :
    Reports
      ((withEarlier names).flatMap
        (fun n => faultIf (n.2 ∈ earlier ++ n.1) (.duplicatedScope n.2)) ++ fs)
      (match firstRepeated seen names with
        | some name => .error (.duplicatedScope name)
        | none => x) := by
  -- the names so far are in `earlier` in order and in `seen` the other way round
  induction names generalizing earlier seen with
  | nil => exact h
  | cons n ns ih =>
    have hn : n ∈ earlier ++ [] ↔ n ∈ seen := by rw [List.append_nil, hseen]
    rw [flatMap_withEarlier_cons, List.append_assoc, firstRepeated]
    by_cases hmem : n ∈ seen
    · rw [if_pos hmem, faultIf, if_pos (hn.mpr hmem)]
      rfl
    · rw [if_neg hmem, faultIf, if_neg (mt hn.mp hmem), List.nil_append]
      have hrest := ih (earlier ++ [n]) (n :: seen) fun m => by simp [hseen, or_comm]
      simpa only [List.append_assoc, List.singleton_append] using hrest

theorem flatMap_referenceFaults (names : List String) (o : OperatorEntry) :
    o.separators.flatMap (referenceFaults names) =
      (o.references.filter (·.name ∉ names)).map fun r => .undefinedScope r.name := by
  unfold OperatorEntry.references
  induction o.separators with
  | nil => rfl
  | cons s ss ih =>
    rw [List.flatMap_cons, ih, referenceFaults, List.filterMap_cons]
    cases s.scope with
    | none => rfl
    | some r =>
      by_cases hr : r.name ∈ names <;> simp [faultIf, hr]

theorem reports_checkOperators {names : List String} {scope : String}
    (os earlier : List OperatorEntry) (seen : List String)
    (hseen : ∀ i, i ∈ seen ↔ i ∈ earlier.map OperatorEntry.id) :
    Reports ((withEarlier os).flatMap fun o => operatorNameFaults names scope (earlier ++ o.1) o.2)
      (checkOperators names scope seen os) := by
  induction os generalizing earlier seen with
  | nil => exact reports_ok _
  | cons o os ih =>
    rw [flatMap_withEarlier_cons, checkOperators, operatorNameFaults, flatMap_referenceFaults,
      List.append_nil, List.append_assoc]
    simp only [← hseen o.id]
    refine .guard fun _ => ?_
    rw [← List.head?_filter]
    cases hfilter : o.references.filter (·.name ∉ names) with
    | nil =>
      have hrest := ih (earlier ++ [o]) (o.id :: seen) fun i => by simp [hseen, or_comm]
      simp only [List.append_assoc, List.singleton_append] at hrest
      exact hrest
    | cons r rs => rfl

theorem reports_checkNames (t : Table) :
    Reports (t.nameFaults ++ t.scopes.flatMap (scopeNameFaults t.scopeNames)) t.checkNames := by
  have hscope : ∀ s : ScopeEntry, Reports (scopeNameFaults t.scopeNames s)
      (checkOperators t.scopeNames s.name [] s.operators) := fun s =>
    reports_checkOperators s.operators [] [] (by simp)
  exact reports_firstRepeated (Reports.forM hscope t.scopes) t.scopeNames [] [] (by simp)

theorem nodup_of_checkNames {t : Table} {u : Unit} (h : t.checkNames = .ok u) :
    t.scopeNames.Nodup := by
  have hfaults := (reports_checkNames t).exists_ok_iff.mp ⟨u, h⟩
  exact nameFaults_eq_nil.mp (List.append_eq_nil_iff.mp hfaults).1

/-- Building fails with the first fault of the table, and only then. -/
theorem reports_build (t : Table) (c : Catalog) : Reports t.faults (t.build c) := by
  rw [faults, List.append_assoc]
  refine Build.reports_bind (Build.reports_lift (reports_checkNames t)) fun _ c₁ hcheck => ?_
  have hnames := nodup_of_checkNames (Build.lift_eq_ok.mp hcheck).1
  rw [Build.openDirectory_bind]
  refine Build.reports_bind (Build.reports_forM (fun s hs c => ?_) _) fun _ c₂ hscopes => ?_
  · exact Build.reports_bind_ok (reports_buildScope (scope?_of_mem hnames hs) c)
      fun _ _ _ => ⟨_, rfl⟩
  · rw [Build.get_bind, (fills_openDirectory hnames hscopes).named?_layout]
    cases htop : (layout c₁.definitions.size t.scopes).lookup t.top with
    | none =>
      have hnot : t.top ∉ t.scopeNames := lookup_layout_eq_none.mp htop
      rw [faultIf, if_pos hnot]
      rfl
    | some top =>
      have hmem : t.top ∈ t.scopeNames := by
        by_contra hnot
        rw [lookup_layout_eq_none.mpr hnot] at htop
        contradiction
      rw [faultIf, if_neg (not_not_intro hmem)]
      exact reports_ok _

theorem wellFormed_of_build {t : Table} {c c' : Catalog} {top : Scope}
    (h : t.build c = .ok (top, c')) : t.WellFormed :=
  faults_eq_nil.mp ((reports_build t c).exists_ok_iff.mp ⟨_, h⟩)

/-- Exactly the well-formed tables can be built. The top scope of such a table holds the operators
that the table lists for it, in order and as they are described there. Every other table is refused
for the first of its faults. -/
theorem build_accepts_or_reports (t : Table) (c : Catalog) :
    ((∃ built, t.build c = .ok built) ↔ t.WellFormed) ∧
      (∀ top c', t.build c = .ok (top, c') → ∃ s ∈ t.scopes, s.name = t.top ∧
        List.Forall₂ (fun e o => e.1 = o.id ∧ ∃ d, c'.definition? e.2 = some d ∧ o.Describes d)
          top.entries s.operators) ∧
      ∀ e, t.build c = .error e ↔ t.faults.head? = some e := by
  have hreports := reports_build t c
  have haccepts : (∃ built, t.build c = .ok built) ↔ t.WellFormed :=
    hreports.exists_ok_iff.trans faults_eq_nil
  refine ⟨haccepts, fun top c' h => ?_, hreports.eq_error_iff⟩
  have hwell := haccepts.mp ⟨_, h⟩
  have hbuilt := build_ok hwell.names h
  obtain ⟨s, hs, hname⟩ := List.mem_map.mp hwell.top
  obtain ⟨scope, hscope, hall⟩ := hbuilt.exists_scope hwell.names hs (hwell.ids s hs)
  obtain rfl : scope = top := Option.some.inj (hscope.symm.trans (hname ▸ hbuilt.top_eq))
  refine ⟨s, hs, hname, hall.imp fun e o he => ?_⟩
  obtain ⟨hid, hmakes, ho⟩ := he
  obtain ⟨o', d, ho', hd, hdenotes⟩ := hbuilt.definition_of_makes hmakes
  obtain rfl : o' = o := Option.some.inj (ho'.symm.trans ho)
  exact ⟨hid, d, hd, hdenotes.toDescribes⟩

end Table

namespace Sample

def once (text : String) (scope : Option ScopeReference := none) : SeparatorEntry :=
  ⟨[text], 1, some 1, scope⟩

def blocks : Table where
  top := "expression"
  scopes := [
    { name := "expression"
      operators := [
        { id := "block", separators := [once "begin", once "finish" (some ⟨"statement", false⟩)]
          left := none, right := none },
        { id := "plus", separators := [once "plus"], left := some 10, right := some 11 }] },
    { name := "statement"
      operators := [
        { id := "binding", separators := [once "let", once "in" (some ⟨"expression", true⟩)]
          left := none, right := none },
        { id := "sequence", separators := [once "next"], left := some 1, right := some 2
          keepsNewline := true }] }]

/-- The operator `plus` has two faults and the top is undefined, but what is found first is the
name that `binding` refers to. -/
def faulty : Table where
  top := "program"
  scopes := [
    { name := "expression"
      operators := [
        { id := "plus", separators := [⟨["plus"], 3, some 2, none⟩],
          left := some 10, right := some 11 }] },
    { name := "statement"
      operators := [
        { id := "binding", separators := [once "let", once "in" (some ⟨"block", false⟩)]
          left := none, right := none }] }]

end Sample

theorem Table.samples_accepted_or_reported :
    (∃ built, Sample.blocks.build .empty = .ok built) ∧
      Sample.faulty.build .empty = .error (.undefinedScope "block") :=
  ⟨(build_accepts_or_reports Sample.blocks .empty).1.mpr (faults_eq_nil.mp rfl),
    ((build_accepts_or_reports Sample.faulty .empty).2.2 _).mpr rfl⟩

end Distfix
