import Distfix.Proofs.Lines

namespace Distfix

/-- Where a tree stands: by itself, or beside an item of which it is an operand. The item comes with
its number. -/
inductive Place where
  | alone
  | leftOf (item : Operand) (number : Nat)
  | rightOf (item : Operand) (number : Nat)

namespace SyntaxTree

def size (t : SyntaxTree) : Nat := (Operand.present t.items).length

/-- The leaves that stand for missing operands in the order of the text, each with its place. Items
are numbered without these leaves, and the first one has number `n`. -/
def placeholders : SyntaxTree → Place → Nat → List (Token × Place)
  | leaf (.token t), place, _ => if t.isSynthetic then [(t, place)] else []
  | leaf (.operator _), _, _ => []
  | before item rhs, _, n => rhs.placeholders (.rightOf item n) (n + 1)
  | after item lhs, _, n => lhs.placeholders (.leftOf item (n + lhs.size)) n
  | between item lhs rhs, _, n =>
    lhs.placeholders (.leftOf item (n + lhs.size)) n ++
      rhs.placeholders (.rightOf item (n + lhs.size)) (n + lhs.size + 1)

def placeholdersOf : List SyntaxTree → Nat → List (Token × Place)
  | [], _ => []
  | t :: ts, n => t.placeholders .alone n ++ placeholdersOf ts (n + t.size)

end SyntaxTree

/-- What a fault says of a placeholder: an operator has no left operand, and the placeholder lies
where it begins, or the items end with an operator that has no right operand, and the placeholder
lies at their end. The operator is found by its index `i` in the text and by its number `n` among
the items that are not blank, which are the items of the trees. -/
inductive ParseError.Reports (items : List Operand) : ParseError → Token × Place → Prop
  | left {o n i} (h : (Phrase.solid items.zipIdx)[n]? = some (.operator o, i)) :
    Reports items ⟨i, .invalidLeadingOperator o.op⟩ (.missing o.span.start, .leftOf (.operator o) n)
  | right {o n i} (h : (Phrase.solid items.zipIdx)[n]? = some (.operator o, i))
    (hlast : (Phrase.solid items.zipIdx).length = n + 1) :
    Reports items ⟨items.length, .valueExpected⟩
      (.missing (endOffset items), .rightOf (.operator o) n)

namespace Phrase

open SyntaxTree

def RightsLast : Phrase → List (Operand × Nat) → Prop
  | absent, _ | leaf _ _, _ => True
  | before _ _ rhs, rest => (rhs.isAbsent = true → rest = []) ∧ rhs.RightsLast rest
  | after o i lhs, rest => lhs.RightsLast ((.operator o, i) :: rest)
  | between o i lhs rhs, rest =>
    lhs.RightsLast ((.operator o, i) :: (rhs.places ++ rest)) ∧
      (rhs.isAbsent = true → rest = []) ∧ rhs.RightsLast rest

theorem isAbsent_iff {p : Phrase} : p.isAbsent = true ↔ p.places = [] := by
  cases p <;> simp [isAbsent, places]

theorem Reads.nothing_left {min : Nat} {stop : Bool} {xs ys : List (Operand × Nat)} {p : Phrase}
    (h : Reads none min stop xs p ys) (hp : p.isAbsent = true) : solid xs = [] ∧ ys = [] := by
  have hplaces : p.places = [] := isAbsent_iff.mp hp
  have hnot {q : Phrase} {min stop xs} (h : Reads (some q) min stop xs p ys) : q.places = [] :=
    List.subset_nil.mp (hplaces ▸ h.places_subset)
  generalize hl : (none : Option Phrase) = lhs at h
  induction h with
  | absent => exact ⟨rfl, rfl⟩
  | blank hb h ih =>
    rw [solid_cons_blank hb]
    exact ih hp hplaces hnot hl
  | leaf _ _ h _ | before _ _ h _ _ | leadingAfter _ h _ | leadingBetween _ _ h _ _ =>
    exact absurd (hnot h) (by simp [places])
  | done | after | between => cases hl

theorem Reads.rightsLast {lhs : Option Phrase} {min : Nat} {stop : Bool}
    {xs ys : List (Operand × Nat)} {p : Phrase} (h : Reads lhs min stop xs p ys)
    (hl : ∀ q, lhs = some q → q.RightsLast (solid xs)) : p.RightsLast (solid ys) := by
  induction h with
  | absent => trivial
  | blank hb h ih => exact ih nofun
  | leaf hb hf h ih => exact ih (by rintro q ⟨⟩; trivial)
  | before hf hr h ihr ih =>
    refine ih ?_
    rintro q ⟨⟩
    exact ⟨fun ha => by rw [(hr.nothing_left ha).2]; rfl, ihr nofun⟩
  | leadingAfter hf h ih => exact ih (by rintro q ⟨⟩; trivial)
  | leadingBetween hf hr h ihr ih =>
    refine ih ?_
    rintro q ⟨⟩
    exact ⟨trivial, fun ha => by rw [(hr.nothing_left ha).2]; rfl, ihr nofun⟩
  | done h => exact hl _ rfl
  | after blanks hb hf hmin h ih =>
    have hq := hl _ rfl
    rw [solid_skipped hb, solid_cons_item rfl] at hq
    exact ih (by rintro q ⟨⟩; exact hq)
  | between blanks hb hf hmin hr h ihr ih =>
    have hq := hl _ rfl
    have hplaces := hr.places_append
    rw [Option.elim, List.nil_append] at hplaces
    rw [solid_skipped hb, solid_cons_item rfl, ← hplaces] at hq
    refine ih ?_
    rintro q ⟨⟩
    exact ⟨hq, fun ha => by rw [(hr.nothing_left ha).2]; rfl, ihr nofun⟩

theorem placeholders_missing (offset : Nat) (place : Place) (n : Nat) :
    (missing offset).placeholders place n = [(.missing offset, place)] :=
  if_pos (Token.isSynthetic_missing offset)

theorem placeholders_leaf {item : Operand} (h : item.isSynthetic = false) (place : Place)
    (n : Nat) : (SyntaxTree.leaf item).placeholders place n = [] := by
  cases item with
  | token t => exact if_neg (Bool.eq_false_iff.mp h)
  | operator o => rfl

section Tree

variable {items : List Operand} {p : Phrase} {pre rest : List (Operand × Nat)}

theorem present_tree (hs : ∀ x ∈ p.places, x.1.isSynthetic = false) (ends offset : Nat) :
    Operand.present (p.tree ends offset).items = p.places.map Prod.fst := by
  induction p generalizing offset with
  | absent => exact Operand.present_missing offset
  | leaf item i => exact Operand.present_cons (hs (item, i) (by simp [places])) []
  | before o i rhs ih =>
    have hrhs := (List.forall_mem_cons.mp hs).2
    rw [tree, SyntaxTree.items, Operand.present_cons rfl, ih hrhs]
    rfl
  | after o i lhs ih =>
    have hlhs := (List.forall_mem_append.mp hs).1
    rw [tree, SyntaxTree.items, Operand.present_append, ih hlhs, places, List.map_append]
    rfl
  | between o i lhs rhs ihl ihr =>
    obtain ⟨hlhs, hrest⟩ := List.forall_mem_append.mp hs
    have hrhs := (List.forall_mem_cons.mp hrest).2
    rw [tree, SyntaxTree.items, Operand.present_append, ihl hlhs, Operand.present_cons rfl,
      ihr hrhs, places, List.map_append]
    rfl

theorem size_tree (hs : ∀ x ∈ p.places, x.1.isSynthetic = false) (ends offset : Nat) :
    (p.tree ends offset).size = p.places.length := by
  rw [size, present_tree hs, List.length_map]

theorem placeholders_tree (hs : ∀ x ∈ p.places, x.1.isSynthetic = false) (ends offset : Nat)
    (place : Place) (n : Nat) :
    ((p.tree ends offset).placeholders place n).map (fun x => Operand.token x.1) =
      (p.tree ends offset).items.filter Operand.isSynthetic := by
  induction p generalizing offset place n with
  | absent =>
    have hmissing : (Operand.token (.missing offset)).isSynthetic = true :=
      Token.isSynthetic_missing offset
    rw [tree, placeholders_missing, missing, SyntaxTree.items, List.filter_cons_of_pos hmissing]
    rfl
  | leaf item i =>
    have hitem : item.isSynthetic = false := hs (item, i) (by simp [places])
    rw [tree, placeholders_leaf hitem, SyntaxTree.items,
      List.filter_cons_of_neg (Bool.eq_false_iff.mp hitem)]
    rfl
  | before o i rhs ih => exact ih (List.forall_mem_cons.mp hs).2 ..
  | after o i lhs ih =>
    rw [tree, placeholders, SyntaxTree.items, List.filter_append,
      ih (List.forall_mem_append.mp hs).1]
    exact (List.append_nil _).symm
  | between o i lhs rhs ihl ihr =>
    obtain ⟨hlhs, hrest⟩ := List.forall_mem_append.mp hs
    rw [tree, placeholders, SyntaxTree.items, List.filter_append, List.map_append, ihl hlhs,
      ihr (List.forall_mem_cons.mp hrest).2]
    rfl

/-- There is one fault for each placeholder in the tree of the phrase, in the same order, wherever
the phrase stands among the items. -/
def ErrorsReport (items : List Operand) (p : Phrase) : Prop :=
  ∀ pre rest offset place fault, solid items.zipIdx = pre ++ (p.places ++ rest) →
    (∀ x ∈ p.places, x.1.isSynthetic = false) → p.RightsLast rest →
    (p.isAbsent = true → fault.Reports items (.missing offset, place)) →
    List.Forall₂ (ParseError.Reports items) (p.errors items.length fault)
      ((p.tree (endOffset items) offset).placeholders place pre.length)

section Operands

variable {o : Instance} {i : Nat} {lhs rhs : Phrase}

theorem getElem?_number (hitems : solid items.zipIdx = pre ++ (.operator o, i) :: rest) :
    (solid items.zipIdx)[pre.length]? = some (.operator o, i) := by
  rw [hitems, List.getElem?_append_right (Nat.le_refl _), Nat.sub_self]
  rfl

theorem ErrorsReport.left (h : ErrorsReport items lhs)
    (hitems : solid items.zipIdx = pre ++ (lhs.places ++ (.operator o, i) :: rest))
    (hs : ∀ x ∈ lhs.places, x.1.isSynthetic = false)
    (hlast : lhs.RightsLast ((.operator o, i) :: rest)) :
    List.Forall₂ (ParseError.Reports items)
      (lhs.errors items.length ⟨i, .invalidLeadingOperator o.op⟩)
      ((lhs.tree (endOffset items) o.span.start).placeholders
        (.leftOf (.operator o) (pre.length + lhs.places.length)) pre.length) := by
  refine h pre _ _ _ _ hitems hs hlast fun _ => ?_
  rw [← List.append_assoc] at hitems
  rw [← List.length_append]
  exact .left (getElem?_number hitems)

theorem ErrorsReport.right (h : ErrorsReport items rhs)
    (hitems : solid items.zipIdx = pre ++ (.operator o, i) :: (rhs.places ++ rest))
    (hs : ∀ x ∈ rhs.places, x.1.isSynthetic = false) (hend : rhs.isAbsent = true → rest = [])
    (hlast : rhs.RightsLast rest) :
    List.Forall₂ (ParseError.Reports items) (rhs.errors items.length ⟨items.length, .valueExpected⟩)
      ((rhs.tree (endOffset items) (endOffset items)).placeholders
        (.rightOf (.operator o) pre.length) (pre.length + 1)) := by
  have hpre : solid items.zipIdx = (pre ++ [(.operator o, i)]) ++ (rhs.places ++ rest) := by
    rw [hitems, List.append_assoc]
    rfl
  have hright := h _ rest (endOffset items) (.rightOf (.operator o) pre.length)
    ⟨items.length, .valueExpected⟩ hpre hs hlast fun ha => ?_
  · rwa [List.length_append] at hright
  · refine .right (getElem?_number hitems) ?_
    rw [hitems, isAbsent_iff.mp ha, hend ha, List.length_append]
    rfl

end Operands

theorem errors_report (items : List Operand) (p : Phrase) : ErrorsReport items p := by
  induction p with
  | absent =>
    intro pre rest offset place fault _ _ _ hp
    rw [tree, placeholders_missing]
    exact .cons (hp rfl) .nil
  | leaf item i =>
    intro pre rest offset place fault _ hs _ _
    rw [tree, placeholders_leaf (hs (item, i) (by simp [places]))]
    exact .nil
  | before o i rhs ih =>
    rintro pre rest offset place fault hitems hs ⟨hend, hlast⟩ -
    exact ih.right hitems (List.forall_mem_cons.mp hs).2 hend hlast
  | after o i lhs ih =>
    intro pre rest offset place fault hitems hs hlast _
    have hlhs := (List.forall_mem_append.mp hs).1
    rw [places, List.append_assoc] at hitems
    rw [tree, placeholders, size_tree hlhs]
    exact ih.left hitems hlhs hlast
  | between o i lhs rhs ihl ihr =>
    rintro pre rest offset place fault hitems hs ⟨hleft, hend, hlast⟩ -
    obtain ⟨hlhs, hrest⟩ := List.forall_mem_append.mp hs
    rw [places, List.append_assoc] at hitems
    have hpre : solid items.zipIdx =
        (pre ++ lhs.places) ++ (.operator o, i) :: (rhs.places ++ rest) := by
      rw [hitems, List.append_assoc]
      rfl
    have hright := ihr.right hpre (List.forall_mem_cons.mp hrest).2 hend hlast
    rw [List.length_append] at hright
    rw [tree, placeholders, size_tree hlhs]
    exact List.rel_append (ihl.left hitems hlhs hleft) hright

/-- The indices of the faults are numbers of items of the phrase in their order, and then one of
those in `ending`, if that has what an absent operand at the end of the phrase needs. -/
theorem errors_indices (count : Nat) (fault : ParseError) (ending : List Nat)
    (hlast : p.RightsLast rest) (hp : p.isAbsent = true → [fault.index].Sublist ending)
    (hrest : rest = [] → [count].Sublist ending) :
    ((p.errors count fault).map ParseError.index).Sublist (p.places.map Prod.snd ++ ending) := by
  induction p generalizing rest fault ending with
  | absent => exact hp rfl
  | leaf item i => exact List.nil_sublist _
  | before o i rhs ih =>
    obtain ⟨hend, hlast⟩ := hlast
    exact (ih ⟨count, .valueExpected⟩ ending hlast (fun ha => hrest (hend ha)) hrest).cons i
  | after o i lhs ih =>
    have hlhs := ih ⟨i, .invalidLeadingOperator o.op⟩ [i] hlast (fun _ => .refl _)
      fun hnil => absurd hnil (List.cons_ne_nil _ _)
    rw [places, List.map_append]
    exact hlhs.trans (List.sublist_append_left _ _)
  | between o i lhs rhs ihl ihr =>
    obtain ⟨hleft, hend, hlast⟩ := hlast
    have hlhs := ihl ⟨i, .invalidLeadingOperator o.op⟩ [i] hleft (fun _ => .refl _)
      fun hnil => absurd hnil (List.cons_ne_nil _ _)
    have hrhs := ihr ⟨count, .valueExpected⟩ ending hlast (fun ha => hrest (hend ha)) hrest
    rw [errors, List.map_append, places, List.map_append, List.map_cons, List.append_assoc,
      List.cons_append, List.append_cons]
    exact hlhs.append hrhs

end Tree

def OpenAtEnd : List Phrase → Prop
  | [] => True
  | p :: ps => p.isAbsent = false ∧ p.RightsLast (ps.flatMap places) ∧ OpenAtEnd ps

theorem ReadsAll.openAtEnd {xs : List (Operand × Nat)} {ps : List Phrase} (h : ReadsAll xs ps) :
    OpenAtEnd ps := by
  induction h with
  | nil => trivial
  | blank hb h ih => exact ih
  | phrase hb hp h ih =>
    refine ⟨Bool.eq_false_iff.mpr fun ha => ?_, ?_, ih⟩
    · have hnil := (hp.nothing_left ha).1
      rw [solid_cons_item hb] at hnil
      exact absurd hnil (List.cons_ne_nil _ _)
    · rw [h.places_eq]
      exact hp.rightsLast nofun

section Trees

variable {items : List Operand} {ps : List Phrase}

theorem OpenAtEnd.errors_report (h : OpenAtEnd ps) (pre : List (Operand × Nat))
    (hitems : solid items.zipIdx = pre ++ ps.flatMap places)
    (hs : ∀ x ∈ ps.flatMap places, x.1.isSynthetic = false) :
    List.Forall₂ (ParseError.Reports items)
      (ps.flatMap (errors items.length · ⟨items.length, .valueExpected⟩))
      (placeholdersOf (ps.map fun p => p.tree (endOffset items) (endOffset items)) pre.length) := by
  induction ps generalizing pre with
  | nil => exact .nil
  | cons p ps ih =>
    obtain ⟨hp, hlast, hps⟩ := h
    rw [List.flatMap_cons] at hitems hs
    obtain ⟨hsp, hsps⟩ := List.forall_mem_append.mp hs
    have hrest := ih hps (pre ++ p.places) (by rw [hitems, List.append_assoc]) hsps
    rw [List.length_append] at hrest
    rw [List.flatMap_cons, List.map_cons, placeholdersOf, size_tree hsp]
    refine List.rel_append ?_ hrest
    exact Phrase.errors_report items p pre _ _ _ _ hitems hsp hlast fun ha =>
      absurd (hp.symm.trans ha) Bool.false_ne_true

theorem OpenAtEnd.errors_indices (h : OpenAtEnd ps) (count : Nat) :
    ((ps.flatMap (errors count · ⟨count, .valueExpected⟩)).map ParseError.index).Sublist
      ((ps.flatMap places).map Prod.snd ++ [count]) := by
  induction ps with
  | nil => exact List.nil_sublist _
  | cons p ps ih =>
    obtain ⟨hp, hlast, hps⟩ := h
    have hone (ending : List Nat) (hrest : ps.flatMap places = [] → [count].Sublist ending) :=
      Phrase.errors_indices count ⟨count, .valueExpected⟩ ending hlast
        (fun ha => absurd (hp.symm.trans ha) Bool.false_ne_true) hrest
    cases ps with
    | nil =>
      simpa using hone [count] fun _ => .refl _
    | cons q ps =>
      -- the items of the next phrase follow, so that the count is left to the phrases behind
      have hq : q.places ≠ [] := fun hnil =>
        Bool.false_ne_true (hps.1.symm.trans (isAbsent_iff.mpr hnil))
      have hfirst := hone [] fun hnil => absurd (List.append_eq_nil_iff.mp hnil).1 hq
      rw [List.append_nil] at hfirst
      have hboth := hfirst.append (ih hps)
      rwa [← List.map_append, ← List.append_assoc, ← List.map_append] at hboth

theorem present_trees (hs : ∀ x ∈ ps.flatMap places, x.1.isSynthetic = false) (ends : Nat) :
    (ps.map fun p => p.tree ends ends).flatMap (Operand.present ·.items) =
      (ps.flatMap places).map Prod.fst := by
  rw [List.flatMap_map, List.map_flatMap]
  exact List.flatMap_congr fun p hp =>
    present_tree (fun x hx => hs x (List.mem_flatMap.mpr ⟨p, hp, hx⟩)) ends ends

theorem placeholdersOf_trees (hs : ∀ x ∈ ps.flatMap places, x.1.isSynthetic = false)
    (ends n : Nat) :
    (placeholdersOf (ps.map fun p => p.tree ends ends) n).map (fun x => Operand.token x.1) =
      (ps.map fun p => p.tree ends ends).flatMap (·.items.filter Operand.isSynthetic) := by
  induction ps generalizing n with
  | nil => rfl
  | cons p ps ih =>
    rw [List.flatMap_cons] at hs
    obtain ⟨hp, hps⟩ := List.forall_mem_append.mp hs
    rw [List.map_cons, placeholdersOf, List.map_append, placeholders_tree hp, ih hps,
      List.flatMap_cons]

end Trees

theorem solid_zipIdx_lt {items : List Operand} {x : Operand × Nat} (hx : x ∈ solid items.zipIdx) :
    x.2 < items.length := by
  have h := List.snd_lt_add_of_mem_zipIdx (List.mem_filter.mp hx).1
  omega

theorem ascending_solid (items : List Operand) :
    ((solid items.zipIdx).map Prod.snd ++ [items.length]).Pairwise (· < ·) := by
  have hsub : (solid items.zipIdx).Sublist items.zipIdx := List.filter_sublist
  refine List.pairwise_append.mpr ⟨?_, List.pairwise_singleton _ _, fun i hi j hj => ?_⟩
  · exact List.pairwise_map.mpr ((ascending_zipIdx items).sublist hsub)
  · obtain ⟨x, hx, rfl⟩ := List.mem_map.mp hi
    rw [List.mem_singleton.mp hj]
    exact solid_zipIdx_lt hx

end Phrase

namespace ParseError.Reports

variable {items : List Operand} {e : ParseError} {x : Token × Place}

theorem index_le (h : e.Reports items x) : e.index ≤ items.length := by
  cases h with
  | left h => exact Nat.le_of_lt (Phrase.solid_zipIdx_lt (List.mem_of_getElem? h))
  | right => exact Nat.le_refl _

theorem index_eq (h : e.Reports items x) (he : e.fault = .valueExpected) :
    e.index = items.length := by
  cases h with
  | left => cases he
  | right => rfl

theorem ne_valueExpected {es : List ParseError} {xs : List (Token × Place)}
    (h : List.Forall₂ (ParseError.Reports items) es xs)
    (hasc : es.Pairwise fun e e' => e.index < e'.index) (he : e ∈ es.dropLast) :
    e.fault ≠ .valueExpected := by
  obtain rfl | ⟨init, last, rfl⟩ := List.eq_nil_or_concat es
  · cases he
  · rw [List.concat_eq_append] at h hasc he
    rw [List.dropLast_concat] at he
    have hlast : last ∈ [last] := List.mem_singleton_self last
    have hlt := (List.pairwise_append.mp hasc).2.2 e he last hlast
    obtain ⟨x, hx⟩ := exists_of_forall₂ h.flip (List.mem_append_left _ he)
    obtain ⟨y, hy⟩ := exists_of_forall₂ h.flip (List.mem_append_right _ hlast)
    have hle := hy.index_le
    intro hfault
    have hindex := hx.index_eq hfault
    omega

end ParseError.Reports

theorem SyntaxTree.hasPlaceholder_eq_false_iff (t : SyntaxTree) :
    t.hasPlaceholder = false ↔ t.items.filter Operand.isSynthetic = [] := by
  rw [hasPlaceholder, List.any_eq_false, List.filter_eq_nil_iff]

/-- Placeholders and faults belong together one by one and in order. What the trees hold besides
placeholders are the items that are not blank, so that an item has the same number in the text as in
the trees. The faults have ascending indices, the end of the items is reported last if at all, and a
text is free of faults if its trees are free of placeholders. -/
theorem resolveAll_reports_placeholders {items : List Operand}
    (hs : ∀ o ∈ items, o.isSynthetic = false) :
    let r := resolveAll items
    (SyntaxTree.placeholdersOf r.value 0).map (fun x => Operand.token x.1) =
        r.value.flatMap (·.items.filter Operand.isSynthetic) ∧
      r.value.flatMap (Operand.present ·.items) = (Phrase.solid items.zipIdx).map Prod.fst ∧
      List.Forall₂ (ParseError.Reports items) r.errors (SyntaxTree.placeholdersOf r.value 0) ∧
      (∀ e ∈ r.errors.dropLast, e.fault ≠ .valueExpected) ∧
      r.errors.Pairwise (fun e e' => e.index < e'.index) ∧
      (r.isOk = true ↔ ∀ t ∈ r.value, t.hasPlaceholder = false) := by
  obtain ⟨ps, hps, hr⟩ := Phrase.exists_describeAll items
  have hplaces : Phrase.solid items.zipIdx = ps.flatMap Phrase.places := hps.places_eq.symm
  have hsps : ∀ x ∈ ps.flatMap Phrase.places, x.1.isSynthetic = false := fun x hx =>
    hs x.1 (List.fst_mem_of_mem_zipIdx (List.mem_filter.mp (hplaces ▸ hx)).1)
  have hleaves := Phrase.placeholdersOf_trees hsps (endOffset items) 0
  have hpresent := Phrase.present_trees hsps (endOffset items)
  have hreports := hr.openAtEnd.errors_report [] hplaces hsps
  have hindices := hr.openAtEnd.errors_indices items.length
  rw [← hplaces, ← hps.errors_eq] at hindices
  rw [← hps.value_eq] at hleaves hpresent hreports
  rw [← hps.errors_eq] at hreports
  have hascending := List.pairwise_map.mp ((Phrase.ascending_solid items).sublist hindices)
  refine ⟨hleaves, hplaces ▸ hpresent, hreports, fun e he => ?_, hascending, ?_⟩
  · exact ParseError.Reports.ne_valueExpected hreports hascending he
  · have hnone : (resolveAll items).errors = [] ↔
        SyntaxTree.placeholdersOf (resolveAll items).value 0 = [] := by
      rw [← List.length_eq_zero_iff, hreports.length_eq, List.length_eq_zero_iff]
      rfl
    rw [Outcome.isOk, List.isEmpty_iff, hnone, ← List.map_eq_nil_iff, hleaves,
      List.flatMap_eq_nil_iff]
    simp only [SyntaxTree.hasPlaceholder_eq_false_iff]

namespace Sample

def signAt (start : Nat) (c : Char) (fixity : Fixity) (keepsNewline : Bool := false) : Operand :=
  let keyword : Token := ⟨.symbol, String.singleton c, ⟨start, start + 1⟩⟩
  .operator { sign c fixity keepsNewline with leading := keyword, children := [⟨0, keyword, []⟩] }

/-- Two lines in which all three operators lack operands. The first operator keeps newlines, so that
the second one begins a line without an operand. -/
def gaps : List Operand :=
  [signAt 0 '=' (.between 2 1) true, .token ⟨.ident, "x", ⟨1, 2⟩⟩, .token ⟨.newline, "\n", ⟨2, 3⟩⟩,
    signAt 3 '+' (.between 10 11), signAt 4 '~' (.before 1)]

end Sample

theorem resolveAll_reports_gaps :
    (∀ o ∈ Sample.gaps, o.isSynthetic = false) ∧
      (resolveAll Sample.gaps).errors =
        [⟨0, .invalidLeadingOperator "="⟩, ⟨3, .invalidLeadingOperator "+"⟩, ⟨5, .valueExpected⟩] ∧
      (SyntaxTree.placeholdersOf (resolveAll Sample.gaps).value 0).map Prod.fst =
        [.missing 0, .missing 3, .missing 5] ∧
      List.Forall₂ (ParseError.Reports Sample.gaps) (resolveAll Sample.gaps).errors
        (SyntaxTree.placeholdersOf (resolveAll Sample.gaps).value 0) := by
  have hs : ∀ o ∈ Sample.gaps, o.isSynthetic = false := by decide
  exact ⟨hs, rfl, rfl, (resolveAll_reports_placeholders hs).2.2.1⟩

end Distfix
