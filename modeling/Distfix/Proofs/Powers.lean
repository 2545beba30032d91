import Distfix.Proofs.Phrasing
import Distfix.Proofs.Structure

namespace Distfix

namespace SyntaxTree

/-- Every node is of the kind that the fixity of its item asks for. -/
def Shaped : SyntaxTree → Prop
  | leaf item => item.isBlank = false ∧ item.fixity = .closed
  | before item rhs => (∃ right, item.fixity = .before right) ∧ rhs.Shaped
  | after item lhs => (∃ left, item.fixity = .after left) ∧ lhs.Shaped
  | between item lhs rhs =>
    (∃ left right, item.fixity = .between left right) ∧ lhs.Shaped ∧ rhs.Shaped

/-- The left powers of the nodes with a left operand on the left spine. -/
def leftPowers : SyntaxTree → List Nat
  | leaf _ | before _ _ => []
  | after item lhs | between item lhs _ => item.fixity.left?.toList ++ lhs.leftPowers

/-- The right powers of the nodes with a right operand on the right spine. -/
def rightPowers : SyntaxTree → List Nat
  | leaf _ | after _ _ => []
  | before item rhs | between item _ rhs => item.fixity.right?.toList ++ rhs.rightPowers

/-- An operator binds its right operand less tightly than all operators that begin in it at the
left, and its left operand not more tightly than any that end in it at the right. -/
def Respects : SyntaxTree → Prop
  | leaf _ => True
  | before item rhs =>
    (∀ right, item.fixity.right? = some right → ∀ l ∈ rhs.leftPowers, right < l) ∧ rhs.Respects
  | after item lhs =>
    (∀ left, item.fixity.left? = some left → ∀ r ∈ lhs.rightPowers, left ≤ r) ∧ lhs.Respects
  | between item lhs rhs =>
    (∀ left, item.fixity.left? = some left → ∀ r ∈ lhs.rightPowers, left ≤ r) ∧
      (∀ right, item.fixity.right? = some right → ∀ l ∈ rhs.leftPowers, right < l) ∧
      lhs.Respects ∧ rhs.Respects

end SyntaxTree

namespace Phrase

/-- The expression in which an operator that lacks its left operand has none: it stands before its
right operand, or for itself. -/
def trimmed : Phrase → SyntaxTree
  | absent => .missing 0
  | leaf item _ => .leaf item
  | before o _ rhs => .before (.operator o) rhs.trimmed
  | after o _ absent => .leaf (.operator o)
  | after o _ lhs => .after (.operator o) lhs.trimmed
  | between o _ absent rhs => .before (.operator o) rhs.trimmed
  | between o _ lhs rhs => .between (.operator o) lhs.trimmed rhs.trimmed

theorem trimmed_after {lhs : Phrase} (h : lhs.isAbsent = false) (o : Instance) (i : Nat) :
    (after o i lhs).trimmed = .after (.operator o) lhs.trimmed := by
  cases lhs with
  | absent => cases h
  | leaf _ _ | before _ _ _ | after _ _ _ | between _ _ _ _ => rfl

theorem trimmed_between {lhs : Phrase} (h : lhs.isAbsent = false) (o : Instance) (i : Nat)
    (rhs : Phrase) :
    (between o i lhs rhs).trimmed = .between (.operator o) lhs.trimmed rhs.trimmed := by
  cases lhs with
  | absent => cases h
  | leaf _ _ | before _ _ _ | after _ _ _ | between _ _ _ _ => rfl

/-- The powers are respected in a phrase, its left spine is above `min`, and what follows extends
none of the operators on its right spine. -/
structure Bounded (min : Nat) (p : Phrase) (following : List Operand) : Prop where
  respects : p.trimmed.Respects
  above : ∀ l ∈ p.trimmed.leftPowers, min < l
  ends : ∀ r ∈ p.trimmed.rightPowers, Halts r false following

theorem Halts.le {min : Nat} {stop : Bool} {blanks : List (Operand × Nat)} {o : Instance} {i : Nat}
    {xs : List (Operand × Nat)}
    (h : Halts min stop ((blanks ++ (.operator o, i) :: xs).map Prod.fst))
    (hb : ∀ b ∈ blanks, b.1.isSkipped stop = true) {left : Nat}
    (hl : o.definition.fixity.left? = some left) : left ≤ min := by
  refine h (blanks.map Prod.fst) (.operator o) (xs.map Prod.fst) ?_ ?_ left hl
  · rw [List.map_append, List.map_cons]
  · simpa using hb

namespace Bounded

variable {min left right : Nat} {q rhs : Phrase} {o : Instance} {i : Nat}
  {blanks xs ys : List (Operand × Nat)} {following : List Operand}

theorem before (hf : o.definition.fixity.right? = some right) (hr : rhs.Bounded right following)
    (hh : Halts right false following) : (before o i rhs).Bounded min following where
  respects := by
    refine ⟨fun right' hright => ?_, hr.respects⟩
    obtain rfl := Option.some.inj (hf.symm.trans hright)
    exact hr.above
  above := nofun
  ends := by
    intro r hmem
    obtain hmem | hmem := List.mem_append.mp hmem
    · obtain rfl := Option.some.inj (hf.symm.trans (Option.mem_toList.mp hmem))
      exact hh
    · exact hr.ends r hmem

theorem leading (hf : o.definition.fixity.right? = some right) (hr : rhs.Bounded right following)
    (hh : Halts right false following) : (Phrase.between o i .absent rhs).Bounded min following :=
  have h : (Phrase.before o i rhs).Bounded min following := hr.before hf hh
  ⟨h.respects, h.above, h.ends⟩

theorem after (hq : q.isAbsent = false)
    (h : q.Bounded min ((blanks ++ (.operator o, i) :: xs).map Prod.fst))
    (hb : ∀ b ∈ blanks, b.1.isSkipped false = true) (hf : o.definition.fixity.left? = some left)
    (hl : min < left) : (Phrase.after o i q).Bounded min following where
  respects := by
    rw [trimmed_after hq]
    exact ⟨fun _ hleft r hr => (h.ends r hr).le hb hleft, h.respects⟩
  above := by
    rw [trimmed_after hq]
    intro l hmem
    obtain hmem | hmem := List.mem_append.mp hmem
    · obtain rfl := Option.some.inj (hf.symm.trans (Option.mem_toList.mp hmem))
      exact hl
    · exact h.above l hmem
  ends := by
    rw [trimmed_after hq]
    exact nofun

theorem between (hq : q.isAbsent = false)
    (h : q.Bounded min ((blanks ++ (.operator o, i) :: xs).map Prod.fst))
    (hb : ∀ b ∈ blanks, b.1.isSkipped false = true) (hf : o.definition.fixity = .between left right)
    (hl : min < left) (hr : rhs.Bounded right following) (hh : Halts right false following) :
    (between o i q rhs).Bounded min following := by
  -- on the left it is an operator after its operand, on the right one before it
  have hafter : (Phrase.after o i q).Bounded min following :=
    h.after hq hb (by simp [hf, Fixity.left?]) hl
  have hbefore : (Phrase.before o i rhs).Bounded min following :=
    hr.before (by simp [hf, Fixity.right?]) hh
  have ha := hafter.respects
  have habove := hafter.above
  rw [trimmed_after hq] at ha habove
  refine ⟨?_, ?_, ?_⟩ <;> rw [trimmed_between hq]
  · exact ⟨ha.1, hbefore.respects.1, ha.2, hbefore.respects.2⟩
  · exact habove
  · exact hbefore.ends

end Bounded

theorem stop_of_keeps {o : Instance} {stop : Bool} (hs : stop = false)
    (hk : (Operand.operator o).fixity ≠ .closed → (Operand.operator o).keepsNewline = false)
    (hf : o.definition.fixity ≠ .closed) : (stop || o.definition.keepsNewline) = false := by
  rw [hs]
  exact hk hf

/-- Reading keeps a phrase bounded, and ends where nothing extends it. Only the operators of the
phrase itself matter. -/
theorem Reads.bounded_of_places {lhs : Option Phrase} {min : Nat} {stop : Bool}
    {xs ys : List (Operand × Nat)} {p : Phrase} (h : Reads lhs min stop xs p ys)
    (hstop : stop = false)
    (hk : ∀ x ∈ xs, x ∈ p.places → x.1.fixity ≠ .closed → x.1.keepsNewline = false)
    (hl : ∀ q, lhs = some q → q.isAbsent = false ∧ q.Bounded min (xs.map Prod.fst)) :
    p.Bounded min (ys.map Prod.fst) ∧ Halts min false (ys.map Prod.fst) := by
  induction h with
  | absent => exact ⟨⟨trivial, nofun, nofun⟩, halts_nil _ _⟩
  | blank hb h ih => exact ih hstop (List.forall_mem_cons.mp hk).2 nofun
  | leaf hb hf h ih =>
    refine ih hstop (List.forall_mem_cons.mp hk).2 ?_
    rintro q ⟨⟩
    exact ⟨rfl, trivial, nofun, nofun⟩
  | before hf hr h ihr ih =>
    obtain ⟨ho, hxs⟩ := List.forall_mem_cons.mp hk
    have hsub := List.cons_subset.mp h.places_subset
    have hstop' := stop_of_keeps hstop (ho hsub.1) (by simp [hf])
    obtain ⟨hrhs, hh⟩ := ihr hstop' (fun x hx hp => hxs x hx (hsub.2 hp)) nofun
    refine ih hstop' (fun x hx => hxs x (hr.suffix.subset hx)) ?_
    rintro q ⟨⟩
    exact ⟨rfl, hrhs.before (by simp [hf, Fixity.right?]) hh⟩
  | leadingAfter hf h ih =>
    refine ih hstop (List.forall_mem_cons.mp hk).2 ?_
    rintro q ⟨⟩
    exact ⟨rfl, trivial, nofun, nofun⟩
  | leadingBetween hf hr h ihr ih =>
    obtain ⟨ho, hxs⟩ := List.forall_mem_cons.mp hk
    have hsub := List.cons_subset.mp h.places_subset
    have hstop' := stop_of_keeps hstop (ho hsub.1) (by simp [hf])
    obtain ⟨hrhs, hh⟩ := ihr hstop' (fun x hx hp => hxs x hx (hsub.2 hp)) nofun
    refine ih hstop' (fun x hx => hxs x (hr.suffix.subset hx)) ?_
    rintro q ⟨⟩
    exact ⟨rfl, hrhs.leading (by simp [hf, Fixity.right?]) hh⟩
  | done h =>
    subst hstop
    exact ⟨(hl _ rfl).2, h⟩
  | after blanks hb hf hmin h ih =>
    subst hstop
    obtain ⟨hq, hbounded⟩ := hl _ rfl
    refine ih rfl (List.forall_mem_cons.mp (List.forall_mem_append.mp hk).2).2 ?_
    rintro q ⟨⟩
    exact ⟨rfl, hbounded.after hq hb (by simp [hf, Fixity.left?]) hmin⟩
  | between blanks hb hf hmin hr h ihr ih =>
    obtain ⟨hq, hbounded⟩ := hl _ rfl
    obtain ⟨ho, hxs⟩ := List.forall_mem_cons.mp (List.forall_mem_append.mp hk).2
    have hsub := List.cons_subset.mp (List.append_subset.mp h.places_subset).2
    have hstop' := stop_of_keeps hstop (ho hsub.1) (by simp [hf])
    obtain ⟨hrhs, hh⟩ := ihr hstop' (fun x hx hp => hxs x hx (hsub.2 hp)) nofun
    refine ih hstop' (fun x hx => hxs x (hr.suffix.subset hx)) ?_
    rintro q ⟨⟩
    subst hstop
    exact ⟨rfl, hbounded.between hq hb hf hmin hrhs hh⟩

theorem Reads.bounded {lhs : Option Phrase} {min : Nat} {stop : Bool}
    {xs ys : List (Operand × Nat)} {p : Phrase} (h : Reads lhs min stop xs p ys)
    (hstop : stop = false) (hk : ∀ x ∈ xs, x.1.fixity ≠ .closed → x.1.keepsNewline = false)
    (hl : ∀ q, lhs = some q → q.isAbsent = false ∧ q.Bounded min (xs.map Prod.fst)) :
    p.Bounded min (ys.map Prod.fst) ∧ Halts min false (ys.map Prod.fst) :=
  h.bounded_of_places hstop (fun x hx _ => hk x hx) hl

theorem Reads.shaped {lhs : Option Phrase} {min : Nat} {stop : Bool} {xs ys : List (Operand × Nat)}
    {p : Phrase} (h : Reads lhs min stop xs p ys) (ends : Nat)
    (hl : ∀ q, lhs = some q → ∀ offset, (q.tree ends offset).Shaped) (offset : Nat) :
    (p.tree ends offset).Shaped := by
  induction h generalizing offset with
  | absent => exact ⟨rfl, rfl⟩
  | blank hb h ih => exact ih nofun offset
  | leaf hb hf h ih =>
    refine ih ?_ offset
    rintro q ⟨⟩ offset
    exact ⟨hb, hf⟩
  | before hf hr h ihr ih =>
    refine ih ?_ offset
    rintro q ⟨⟩ offset
    exact ⟨⟨_, hf⟩, ihr nofun _⟩
  | leadingAfter hf h ih =>
    refine ih ?_ offset
    rintro q ⟨⟩ offset
    exact ⟨⟨_, hf⟩, rfl, rfl⟩
  | leadingBetween hf hr h ihr ih =>
    refine ih ?_ offset
    rintro q ⟨⟩ offset
    exact ⟨⟨_, _, hf⟩, ⟨rfl, rfl⟩, ihr nofun _⟩
  | done h => exact hl _ rfl offset
  | after blanks hb hf hmin h ih =>
    refine ih ?_ offset
    rintro q ⟨⟩ offset
    exact ⟨⟨_, hf⟩, hl _ rfl _⟩
  | between blanks hb hf hmin hr h ihr ih =>
    refine ih ?_ offset
    rintro q ⟨⟩ offset
    exact ⟨⟨_, _, hf⟩, hl _ rfl _, ihr nofun _⟩

end Phrase

/-- If no operator keeps newlines, the expression that the resolver reads respects the powers of
its operators, an operator that is reported for its missing left operand being taken as one that
has none, and nothing that follows the expression extends it. -/
theorem resolve_respects {items : List Operand} (hk : ∀ o ∈ items, o.keepsNewline = false)
    (index min : Nat) :
    ∃ p : Phrase, p.Describes items index (resolve items index min false) ∧
      (∀ q : Phrase, q.Describes items index (resolve items index min false) → q = p) ∧
      (resolve items index min false).value.Shaped ∧
      (∀ l ∈ p.trimmed.leftPowers, min < l) ∧ p.trimmed.Respects ∧
      ∀ o ∈ (items.drop (resolve items index min false).next).find? (!·.isBlank),
        ∀ l ∈ o.fixity.left?, l ≤ min := by
  obtain ⟨p, hp, hr⟩ := Phrase.exists_describes items index min false
  obtain ⟨hbounded, hhalts⟩ := hr.bounded rfl
    (fun x hx _ => hk x.1 (List.fst_mem_of_mem_zipIdx (List.mem_of_mem_drop hx))) nofun
  rw [List.map_drop, List.zipIdx_map_fst] at hhalts
  refine ⟨p, hp, fun q hq => hq.unique hp, ?_, hbounded.above, hbounded.respects, fun o ho => ?_⟩
  · rw [hp.value_eq]
    exact hr.shaped _ nofun _
  · obtain ⟨-, blanks, rest, hitems, hblanks⟩ := List.find?_eq_some_iff_append.mp ho
    refine hhalts blanks o rest hitems fun b hb => ?_
    rw [Operand.isSkipped_false]
    simpa using hblanks b hb

namespace Sample

def sign (c : Char) (fixity : Fixity) (keepsNewline : Bool := false) : Instance where
  op := String.singleton c
  definition := {
    leading := .one (String.singleton c) String.singleton_ne_empty
    rest := []
    fixity
    keepsNewline }
  leading := symbol (String.singleton c)
  children := [⟨0, symbol (String.singleton c), []⟩]

def letter (text : String) : Operand := .token ⟨.ident, text, ⟨0, 0⟩⟩

def plus : Operand := .operator (sign '+' (.between 10 11))

def times : Operand := .operator (sign '*' (.between 20 21))

def percent : Operand := .operator (sign '%' (.after 30))

def sum : List Operand := [plus, letter "x", times, letter "y", percent, plus, letter "z"]

end Sample

theorem resolve_respects_sum :
    (∀ o ∈ Sample.sum, o.keepsNewline = false) ∧
      (resolve Sample.sum 0 0 false).errors = [⟨0, .invalidLeadingOperator "+"⟩] ∧
      ∃ p : Phrase, p.Describes Sample.sum 0 (resolve Sample.sum 0 0 false) ∧
        (∀ q : Phrase, q.Describes Sample.sum 0 (resolve Sample.sum 0 0 false) → q = p) ∧
        (resolve Sample.sum 0 0 false).value.Shaped ∧
        (∀ l ∈ p.trimmed.leftPowers, 0 < l) ∧ p.trimmed.Respects ∧
        ∀ o ∈ (Sample.sum.drop (resolve Sample.sum 0 0 false).next).find? (!·.isBlank),
          ∀ l ∈ o.fixity.left?, l ≤ 0 := by
  have hk : ∀ o ∈ Sample.sum, o.keepsNewline = false := by
    simp [Sample.sum, Sample.plus, Sample.times, Sample.percent, Sample.letter, Sample.sign,
      Operand.keepsNewline]
  exact ⟨hk, rfl, resolve_respects hk 0 0⟩

end Distfix
