import Distfix.Parse
import Distfix.Proofs.Merging
import Distfix.Proofs.Structure

namespace Distfix

namespace Catalog

variable {c : Catalog} {s t : Scope}

theorem lookup_definition?_congr {es es' : List (OperatorId × DefinitionRef)}
    (hids : es.map Prod.fst = es'.map Prod.fst)
    (hdefinitions : es.map (fun e => c.definition? e.2) = es'.map fun e => c.definition? e.2)
    (id : OperatorId) :
    (es.lookup id).map c.definition? = (es'.lookup id).map c.definition? := by
  induction es generalizing es' with
  | nil =>
    obtain rfl := List.map_eq_nil_iff.mp hids.symm
    rfl
  | cons e es ih =>
    cases es' with
    | nil => cases hids
    | cons e' es' =>
      obtain ⟨hid, hids⟩ := List.cons.inj hids
      obtain ⟨hdefinition, hdefinitions⟩ := List.cons.inj hdefinitions
      rw [Scope.lookup_cons, Scope.lookup_cons, hid]
      split
      · exact congrArg some hdefinition
      · exact ih hids hdefinitions

theorem map_definition?_entries (c : Catalog) (s : Scope) :
    s.entries.map (fun e => c.definition? e.2) =
      s.ids.filterMap fun id => (s.get? id).map c.definition? := by
  rw [s.entries_eq, List.map_filterMap]
  exact List.filterMap_congr fun id _ => Option.map_map ..

theorem sameValue_iff :
    c.sameValue s t = true ↔
      s.ids = t.ids ∧ ∀ id, (s.get? id).map c.definition? = (t.get? id).map c.definition? := by
  rw [sameValue, Bool.and_eq_true, decide_eq_true_iff, decide_eq_true_iff]
  refine ⟨fun ⟨hids, hdefinitions⟩ => ⟨hids, lookup_definition?_congr hids hdefinitions⟩,
    fun ⟨hids, hget⟩ => ⟨hids, ?_⟩⟩
  rw [map_definition?_entries, map_definition?_entries, hids]
  exact List.filterMap_congr fun id _ => hget id

theorem sameValue_refl (c : Catalog) (s : Scope) : c.sameValue s s = true :=
  sameValue_iff.mpr ⟨rfl, fun _ => rfl⟩

theorem operators_eq_filterMap (c : Catalog) (s : Scope) :
    c.operators s =
      s.ids.filterMap fun id => ((s.get? id).map c.definition?).join.map (id, ·) := by
  rw [operators, s.entries_eq, List.filterMap_filterMap]
  refine List.filterMap_congr fun id _ => ?_
  cases s.get? id <;> rfl

theorem operators_eq_of_sameValue (h : c.sameValue s t = true) : c.operators s = c.operators t := by
  obtain ⟨hids, hget⟩ := sameValue_iff.mp h
  rw [operators_eq_filterMap, operators_eq_filterMap, hids]
  exact List.filterMap_congr fun id _ => by rw [hget]

theorem sameValue_merged (h : c.sameValue s t = true) (additions : Scope) :
    c.sameValue (s.merged additions) (t.merged additions) = true := by
  obtain ⟨hids, hget⟩ := sameValue_iff.mp h
  refine sameValue_iff.mpr ⟨?_, fun id => ?_⟩
  · rw [Scope.ids_merged, Scope.ids_merged, hids]
  · rw [Scope.get?_merged, Scope.get?_merged, Option.map_or, Option.map_or, hget]

theorem sameValue_without (h : c.sameValue s t = true) (ids : List OperatorId) :
    c.sameValue (s.without ids) (t.without ids) = true := by
  obtain ⟨hids, hget⟩ := sameValue_iff.mp h
  refine sameValue_iff.mpr ⟨?_, fun id => ?_⟩
  · rw [Scope.ids_without, Scope.ids_without, hids]
  · rw [Scope.get?_without, Scope.get?_without]
    split
    · rfl
    · exact hget id

/-- The custom generators, if there are any, do not look behind the value of a scope. -/
def RespectsValue (c : Catalog) : Prop :=
  ∀ r f, c.generator? r = some (.custom f) →
    ∀ s t, c.sameValue s t = true → c.sameValue (f s) (f t) = true

theorem respectsValue_of_no_custom (h : ∀ g ∈ c.generators, ∀ f, g ≠ .custom f) : c.RespectsValue :=
  fun _ f hf => absurd rfl (h _ (Array.mem_of_getElem? hf) f)

section

variable (hc : c.RespectsValue)
include hc

/-- A region of scopes that are equal by value has scopes that are equal by value, too. -/
theorem sameValue_derive (h : c.sameValue s t = true) (region : Option GeneratorRef) :
    c.sameValue (c.derive region s) (c.derive region t) = true := by
  obtain - | r := region
  · exact h
  rw [derive, derive, Option.bind_some]
  cases hg : c.generator? r with
  | none => exact h
  | some g =>
    cases g with
    | replace scope => exact c.sameValue_refl scope
    | extend additions => exact sameValue_merged h additions
    | without ids => exact sameValue_without h ids
    | named directory name inherit =>
      simp only [apply]
      cases c.named? directory name with
      | none => exact h
      | some scope =>
        cases inherit with
        | false => exact c.sameValue_refl scope
        | true => exact sameValue_merged h scope
    | custom f => exact hc r f hg s t h

end

section

variable {ts : List Token} (hread : ∀ p, c.readBody ts 0 p s = c.readBody ts 0 p t)
include hread

theorem attempt_congr_of (u : Token) : c.attempt u ts s = c.attempt u ts t := by
  funext o
  rw [attempt, attempt, hread]

theorem firstMatch_congr_of (h : c.sameValue s t = true) (u : Token) :
    c.firstMatch u ts s = c.firstMatch u ts t := by
  rw [firstMatch, firstMatch, openedBy, openedBy, attempt_congr_of hread,
    operators_eq_of_sameValue h]

end

section

variable (hc : c.RespectsValue)
include hc

/-- The groups of an operator depend on the value of the scope alone. -/
theorem readBody_congr (h : c.sameValue s t = true) (ts : List Token) (skip : Nat) (p : Pending) :
    c.readBody ts skip p s = c.readBody ts skip p t := by
  -- for all scopes at once, since regions change the scope
  induction ts generalizing skip p s t with
  | nil => rw [readBody, readBody]
  | cons u ts ih =>
    cases skip with
    | succ skip => exact ih h skip p
    | zero =>
      have hregion := sameValue_derive hc h p.region
      have hmatch := firstMatch_congr_of (ih hregion 0) hregion u
      simp only [readBody_cons, hmatch, ih h]

theorem attempt_congr (h : c.sameValue s t = true) (u : Token) (ts : List Token) :
    c.attempt u ts s = c.attempt u ts t := attempt_congr_of (readBody_congr hc h ts 0) u

theorem firstMatch_congr (h : c.sameValue s t = true) (u : Token) (ts : List Token) :
    c.firstMatch u ts s = c.firstMatch u ts t :=
    firstMatch_congr_of (readBody_congr hc h ts 0) h u

theorem flattenItems_congr (h : c.sameValue s t = true) (ts : List Token) (skip i : Nat) :
    c.flattenItems s ts skip i = c.flattenItems t ts skip i := by
  induction ts generalizing skip i with
  | nil => rw [flattenItems, flattenItems]
  | cons u ts ih =>
    cases skip with
    | succ skip => exact ih skip i
    | zero => simp only [flattenItems, firstMatch_congr hc h, ih]

theorem matchOperator_congr (h : c.sameValue s t = true) (tokens : List Token) (index : Nat)
    (o : OperatorId × Definition) :
    c.matchOperator tokens index o s = c.matchOperator tokens index o t := by
  simp only [matchOperator_eq_matchAhead, matchAhead, attempt_congr hc h]

theorem flatten_congr (h : c.sameValue s t = true) (tokens : List Token) (index : Nat) :
    c.flatten tokens index s = c.flatten tokens index t := by
  rw [flatten_eq_flattenAhead, flatten_eq_flattenAhead]
  exact flattenItems_congr hc h _ 0 index

/-- Which of several equal definitions a scope is bound to does not show in any answer, though it
decides which failures are remembered together. -/
theorem answers_independent_of_identity (h : c.sameValue s t = true) (tokens : List Token) :
    (∀ index o, c.matchOperator tokens index o s = c.matchOperator tokens index o t) ∧
      (∀ index, c.flatten tokens index s = c.flatten tokens index t) ∧
      c.parse tokens s = c.parse tokens t := by
  refine ⟨matchOperator_congr hc h tokens, flatten_congr hc h tokens, ?_⟩
  rw [parse, parse, flatten_congr hc h]

end

end Catalog

namespace Sample

/-- Each definition stands here twice. What is added inside square brackets are the angle brackets
that were defined first. -/
def copies : Catalog where
  definitions := #[group, quote, group, quote]
  generators := #[.extend ⟨[("group", ⟨0⟩)], by decide⟩]
  directories := #[]

theorem respectsValue_copies : copies.RespectsValue :=
  Catalog.respectsValue_of_no_custom fun g hg f hf => by
    obtain rfl : g = .extend ⟨[("group", ⟨0⟩)], by decide⟩ := by simpa [copies] using hg
    cases hf

def laterScope : Scope := ⟨[("group", ⟨2⟩), ("quote", ⟨3⟩)], by decide⟩

/-- How many failures at the second token are remembered when operators have been looked for at the
first two. -/
def remembered (s : Scope) (tokens : Array Token) : Nat :=
  let first := (Memo.firstMatch copies tokens 0 s).run .empty
  let second := (Memo.firstMatch copies tokens 1 s).run first.2
  (second.2.failures.getD 1 []).length

end Sample

/-- Only the scope of the first definitions is also that of the region, so that the failures inside
the square brackets are found again after them. Under the later definitions they are met twice. -/
theorem Catalog.copies_answers :
    let tokens := ["[", "<", "[", "<", "]"].map Sample.symbol
    let r := Sample.copies.flatten tokens 0 Sample.scope
    Sample.copies.RespectsValue ∧
      Sample.copies.sameValue Sample.scope Sample.laterScope = true ∧
      Sample.scope.shares Sample.laterScope = false ∧
      Sample.remembered Sample.scope tokens.toArray = 2 ∧
      Sample.remembered Sample.laterScope tokens.toArray = 4 ∧
      r.value = ["[", "<"].map (fun text => .token (Sample.symbol text)) ++
        [.operator Sample.quoted] ∧
      r.errors = [⟨5, .unexpectedEnd "quote" 1⟩, ⟨5, .unexpectedEnd "group" 2⟩] ∧
      Sample.copies.flatten tokens 0 Sample.laterScope = r ∧
      Sample.copies.parse tokens Sample.scope = Sample.copies.parse tokens Sample.laterScope := by
  intro tokens r
  have hc := Sample.respectsValue_copies
  have hsame : Sample.copies.sameValue Sample.scope Sample.laterScope = true := by decide
  obtain ⟨-, hflatten, hparse⟩ := answers_independent_of_identity hc hsame tokens
  have hr : r = Sample.copies.flattenAhead tokens 0 Sample.scope := flatten_eq_flattenAhead ..
  refine ⟨hc, hsame, by decide, by decide +kernel, by decide +kernel, ?_, ?_,
    (hflatten 0).symm, hparse⟩
  · rw [hr]
    rfl
  · rw [hr]
    rfl

end Distfix
