import Distfix.Proofs.Items

namespace Distfix

namespace Operand

def fixity : Operand → Fixity
  | token _ => .closed
  | operator o => o.definition.fixity

def keepsNewline : Operand → Bool
  | token _ => false
  | operator o => o.definition.keepsNewline

end Operand

/-- An expression as it is read. Its items are numbered as in the text, and `absent` stands for an
operand that is not there. -/
inductive Phrase where
  | absent
  | leaf (item : Operand) (i : Nat)
  | before (o : Instance) (i : Nat) (rhs : Phrase)
  | after (o : Instance) (i : Nat) (lhs : Phrase)
  | between (o : Instance) (i : Nat) (lhs rhs : Phrase)

namespace Phrase

def isAbsent : Phrase → Bool
  | absent => true
  | leaf _ _ | before _ _ _ | after _ _ _ | between _ _ _ _ => false

/-- The expression, if the last item ends at offset `ends`. An absent operand lies at `offset`. -/
def tree (ends : Nat) : Phrase → Nat → SyntaxTree
  | absent, offset => .missing offset
  | leaf item _, _ => .leaf item
  | before o _ rhs, _ => .before (.operator o) (rhs.tree ends ends)
  | after o _ lhs, _ => .after (.operator o) (lhs.tree ends o.span.start)
  | between o _ lhs rhs, _ =>
    .between (.operator o) (lhs.tree ends o.span.start) (rhs.tree ends ends)

/-- The faults, of which there is one for each absent operand, if there are `count` items. -/
def errors (count : Nat) : Phrase → ParseError → List ParseError
  | absent, fault => [fault]
  | leaf _ _, _ => []
  | before _ _ rhs, _ => rhs.errors count ⟨count, .valueExpected⟩
  | after o i lhs, _ => lhs.errors count ⟨i, .invalidLeadingOperator o.op⟩
  | between o i lhs rhs, _ =>
    lhs.errors count ⟨i, .invalidLeadingOperator o.op⟩ ++ rhs.errors count ⟨count, .valueExpected⟩

def places : Phrase → List (Operand × Nat)
  | absent => []
  | leaf item i => [(item, i)]
  | before o i rhs => (.operator o, i) :: rhs.places
  | after o i lhs => lhs.places ++ [(.operator o, i)]
  | between o i lhs rhs => lhs.places ++ (.operator o, i) :: rhs.places

/-- Nothing to the right of the expression extends it: there is no operator with a left power above
`min` after blanks that are skipped. -/
def Halts (min : Nat) (stop : Bool) (items : List Operand) : Prop :=
  ∀ blanks o rest, items = blanks ++ o :: rest → (∀ b ∈ blanks, b.isSkipped stop = true) →
    ∀ l, o.fixity.left? = some l → l ≤ min

/-- How a phrase is read from numbered items: with no operand yet, or as the extension of a phrase
that is there. What is left of the items comes last. -/
inductive Reads : Option Phrase → Nat → Bool → List (Operand × Nat) → Phrase →
    List (Operand × Nat) → Prop
  | absent {min stop} : Reads none min stop [] .absent []
  | blank {min stop x xs p ys} (hb : x.1.isBlank = true) (h : Reads none min stop xs p ys) :
    Reads none min stop (x :: xs) p ys
  | leaf {min stop x xs p ys} (hb : x.1.isBlank = false) (hf : x.1.fixity = .closed)
      (h : Reads (some (.leaf x.1 x.2)) min stop xs p ys) : Reads none min stop (x :: xs) p ys
  | before {min stop o i right xs rhs ys p zs} (hf : o.definition.fixity = .before right)
      (hr : Reads none right (stop || o.definition.keepsNewline) xs rhs ys)
      (h : Reads (some (.before o i rhs)) min (stop || o.definition.keepsNewline) ys p zs) :
    Reads none min stop ((.operator o, i) :: xs) p zs
  | leadingAfter {min stop o i left xs p ys} (hf : o.definition.fixity = .after left)
      (h : Reads (some (.after o i .absent)) min stop xs p ys) :
    Reads none min stop ((.operator o, i) :: xs) p ys
  | leadingBetween {min stop o i left right xs rhs ys p zs}
      (hf : o.definition.fixity = .between left right)
      (hr : Reads none right (stop || o.definition.keepsNewline) xs rhs ys)
      (h : Reads (some (.between o i .absent rhs)) min (stop || o.definition.keepsNewline)
        ys p zs) :
    Reads none min stop ((.operator o, i) :: xs) p zs
  | done {min stop lhs xs} (h : Halts min stop (xs.map Prod.fst)) :
    Reads (some lhs) min stop xs lhs xs
  | after {min stop lhs o i left xs p ys} (blanks : List (Operand × Nat))
      (hb : ∀ b ∈ blanks, b.1.isSkipped stop = true)
      (hf : o.definition.fixity = .after left) (hl : min < left)
      (h : Reads (some (.after o i lhs)) min stop xs p ys) :
    Reads (some lhs) min stop (blanks ++ (.operator o, i) :: xs) p ys
  | between {min stop lhs o i left right xs rhs ys p zs} (blanks : List (Operand × Nat))
      (hb : ∀ b ∈ blanks, b.1.isSkipped stop = true)
      (hf : o.definition.fixity = .between left right) (hl : min < left)
      (hr : Reads none right (stop || o.definition.keepsNewline) xs rhs ys)
      (h : Reads (some (.between o i lhs rhs)) min (stop || o.definition.keepsNewline) ys p zs) :
    Reads (some lhs) min stop (blanks ++ (.operator o, i) :: xs) p zs

inductive ReadsAll : List (Operand × Nat) → List Phrase → Prop
  | nil : ReadsAll [] []
  | blank {x xs ps} (hb : x.1.isBlank = true) (h : ReadsAll xs ps) : ReadsAll (x :: xs) ps
  | phrase {x xs p ys ps} (hb : x.1.isBlank = false) (hp : Reads none 0 false (x :: xs) p ys)
      (h : ReadsAll ys ps) : ReadsAll (x :: xs) (p :: ps)

def solid (xs : List (Operand × Nat)) : List (Operand × Nat) := xs.filter (!·.1.isBlank)

theorem solid_cons_blank {x : Operand × Nat} (h : x.1.isBlank = true) (xs : List (Operand × Nat)) :
    solid (x :: xs) = solid xs := by
  simp [solid, h]

theorem solid_cons_item {x : Operand × Nat} (h : x.1.isBlank = false) (xs : List (Operand × Nat)) :
    solid (x :: xs) = x :: solid xs := by
  simp [solid, h]

theorem solid_append (xs ys : List (Operand × Nat)) : solid (xs ++ ys) = solid xs ++ solid ys :=
  List.filter_append ..

theorem solid_skipped {blanks : List (Operand × Nat)} {stop : Bool}
    (h : ∀ b ∈ blanks, b.1.isSkipped stop = true) (xs : List (Operand × Nat)) :
    solid (blanks ++ xs) = solid xs := by
  rw [solid_append, solid, List.filter_eq_nil_iff.mpr fun b hb => ?_, List.nil_append]
  simp [Operand.isBlank_of_isSkipped (h b hb)]

/-- The resolver's answer is the expression and the faults of the phrase, and its items are those
from `index` to where the answer ends, without the blank ones. -/
structure Describes (p : Phrase) (items : List Operand) (index : Nat) (r : Outcome SyntaxTree) :
    Prop where
  value_eq : r.value = p.tree (endOffset items) (endOffset items)
  errors_eq : r.errors =
    p.errors (max index items.length) ⟨max index items.length, .valueExpected⟩
  places_eq : p.places = solid ((items.zipIdx.take r.next).drop index)

structure DescribeAll (ps : List Phrase) (items : List Operand) (r : Outcome (List SyntaxTree)) :
    Prop where
  value_eq : r.value = ps.map fun p => p.tree (endOffset items) (endOffset items)
  errors_eq : r.errors = ps.flatMap fun p => p.errors items.length ⟨items.length, .valueExpected⟩
  places_eq : ps.flatMap places = solid items.zipIdx

def FirstOperator (xs : List (Operand × Nat)) : Prop :=
  ∀ x, xs.head? = some x → ∃ o, x.1 = .operator o

/-- A phrase is determined by its expression and its items. A leaf is told from an absent operand by
its item, for what follows is no token. -/
theorem eq_of_tree_places {p q : Phrase} {ends a b : Nat} {xs ys : List (Operand × Nat)}
    (ht : p.tree ends a = q.tree ends b) (hp : p.places ++ xs = q.places ++ ys)
    (hx : FirstOperator xs) (hy : FirstOperator ys) : p = q ∧ xs = ys := by
  induction p generalizing q a b xs ys with
  | absent =>
    cases q with
    | absent => exact ⟨rfl, hp⟩
    | leaf item i =>
      obtain ⟨o, ho⟩ := hx (item, i) (by rw [places, List.nil_append] at hp; rw [hp]; rfl)
      obtain rfl : item = .operator o := ho
      cases ht
    | before o i rhs | after o i lhs | between o i lhs rhs => cases ht
  | leaf item i =>
    cases q with
    | absent =>
      obtain ⟨o, ho⟩ := hy (item, i) (by rw [places, places, List.nil_append] at hp; rw [← hp]; rfl)
      obtain rfl : item = .operator o := ho
      cases ht
    | leaf item' i' =>
      obtain ⟨hi, rfl⟩ := List.cons.inj hp
      cases hi
      exact ⟨rfl, rfl⟩
    | before o i rhs | after o i lhs | between o i lhs rhs => cases ht
  | before o i rhs ih =>
    cases q with
    | before o' i' rhs' =>
      obtain ⟨hi, htail⟩ := List.cons.inj hp
      obtain ⟨rfl, rfl⟩ := ih (SyntaxTree.before.inj ht).2 htail hx hy
      cases hi
      exact ⟨rfl, rfl⟩
    | absent | leaf item i | after o i lhs | between o i lhs rhs => cases ht
  | after o i lhs ih =>
    cases q with
    | after o' i' lhs' =>
      rw [places, places, List.append_assoc, List.append_assoc] at hp
      obtain ⟨rfl, htail⟩ := ih (SyntaxTree.after.inj ht).2 hp
        (by rintro x ⟨⟩; exact ⟨o, rfl⟩) (by rintro x ⟨⟩; exact ⟨o', rfl⟩)
      cases htail
      exact ⟨rfl, rfl⟩
    | absent | leaf item i | before o i rhs | between o i lhs rhs => cases ht
  | between o i lhs rhs ihl ihr =>
    cases q with
    | between o' i' lhs' rhs' =>
      obtain ⟨-, htl, htr⟩ := SyntaxTree.between.inj ht
      rw [places, places, List.append_assoc, List.append_assoc] at hp
      obtain ⟨rfl, htail⟩ := ihl htl hp
        (by rintro x ⟨⟩; exact ⟨o, rfl⟩) (by rintro x ⟨⟩; exact ⟨o', rfl⟩)
      obtain ⟨hi, htail⟩ := List.cons.inj htail
      obtain ⟨rfl, rfl⟩ := ihr htr htail hx hy
      cases hi
      exact ⟨rfl, rfl⟩
    | absent | leaf item i | before o i rhs | after o i lhs => cases ht

theorem Describes.unique {p q : Phrase} {items : List Operand} {index : Nat}
    {r : Outcome SyntaxTree} (hp : p.Describes items index r) (hq : q.Describes items index r) :
    p = q := by
  have ht := hp.value_eq.symm.trans hq.value_eq
  have hplaces := congrArg (· ++ []) (hp.places_eq.trans hq.places_eq.symm)
  exact (eq_of_tree_places ht hplaces nofun nofun).1

end Phrase

end Distfix
