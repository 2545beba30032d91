import Distfix.Proofs.Powers

namespace Distfix

/-- The part of an item in expressions. Of the powers of an operator it tells only whether the left
one is above zero, for with zero an operator extends no expression. -/
inductive Role where
  | blank
  | operand
  | before
  | after (op : OperatorId) (extending : Bool)
  | between (op : OperatorId) (extending : Bool)
deriving DecidableEq

def Role.isExtending : Role → Bool
  | after _ extending | between _ extending => extending
  | blank | operand | before => false

def Operand.role : Operand → Role
  | token t => if t.isBlank then .blank else .operand
  | operator o =>
    match o.definition.fixity with
    | .closed => .operand
    | .before _ => .before
    | .after left => .after o.op (decide (0 < left))
    | .between left _ => .between o.op (decide (0 < left))

/-- What a scan of the items has come to: an operand is expected, for an operator that needs it or
for a new expression, or there is one. -/
inductive ScanState where
  | expected (needed : Bool)
  | present
deriving DecidableEq

namespace ScanState

def step (s : ScanState) : Role → ScanState
  | .blank => s
  | .operand | .after _ _ => present
  | .before | .between _ _ => expected true

def leading (s : ScanState) (op : OperatorId) (extending : Bool) (i : Nat) : List ParseError :=
  if s = present ∧ extending = true then [] else [⟨i, .invalidLeadingOperator op⟩]

/-- The faults at an item. An operator that has no left operand goes on as if it had one. -/
def faultsAt (s : ScanState) : Role → Nat → List ParseError
  | .after op extending, i | .between op extending, i => s.leading op extending i
  | .blank, _ | .operand, _ | .before, _ => []

def faultsAtEnd (count : Nat) : ScanState → List ParseError
  | expected true => [⟨count, .valueExpected⟩]
  | expected false | present => []

/-- The faults from a state on, if there are `count` items in all. -/
def faults (count : Nat) (s : ScanState) : List (Role × Nat) → List ParseError
  | [] => s.faultsAtEnd count
  | r :: rs => s.faultsAt r.1 r.2 ++ (s.step r.1).faults count rs

end ScanState

/-- The faults that one scan from left to right finds. -/
def Role.faults (roles : List Role) : List ParseError :=
  ScanState.faults roles.length (.expected false) roles.zipIdx

namespace Operand

variable {o : Operand} {i : Instance} {left right : Nat}

theorem role_blank (h : o.isBlank = true) : o.role = .blank := by
  cases o with
  | token t => exact if_pos h
  | operator i => cases h

theorem role_closed (hb : o.isBlank = false) (hf : o.fixity = .closed) : o.role = .operand := by
  cases o with
  | token t => exact if_neg (Bool.eq_false_iff.mp hb)
  | operator i =>
    have hf : i.definition.fixity = .closed := hf
    rw [role, hf]

theorem role_ne_blank (h : o.isBlank = false) : o.role ≠ .blank := by
  cases o with
  | token t =>
    have h : t.isBlank = false := h
    rw [role, h]
    exact nofun
  | operator i =>
    rw [role]
    split <;> exact nofun

theorem not_isExtending (h : ∀ left, o.fixity.left? = some left → left ≤ 0) :
    o.role.isExtending = false := by
  cases o with
  | token t =>
    rw [role]
    split <;> rfl
  | operator i =>
    rw [role]
    split
    · rfl
    · rfl
    · rename_i left hf
      exact decide_eq_false (Nat.not_lt.mpr (h left (by rw [fixity, hf]; rfl)))
    · rename_i left right hf
      exact decide_eq_false (Nat.not_lt.mpr (h left (by rw [fixity, hf]; rfl)))

theorem isSkipped_of_isBlank (h : o.isBlank = true) : o.isSkipped false = true := by
  cases o with
  | token t => simpa [isSkipped, isBlank, Token.isBlank] using h
  | operator i => cases h

theorem role_before (hf : i.definition.fixity = .before right) :
    (operator i).role = .before := by
  rw [role, hf]

theorem role_after (hf : i.definition.fixity = .after left) :
    (operator i).role = .after i.op (decide (0 < left)) := by
  rw [role, hf]

theorem role_between (hf : i.definition.fixity = .between left right) :
    (operator i).role = .between i.op (decide (0 < left)) := by
  rw [role, hf]

end Operand

namespace ScanState

theorem leading_expected (needed : Bool) (op : OperatorId) (extending : Bool) (i : Nat) :
    (expected needed).leading op extending i = [⟨i, .invalidLeadingOperator op⟩] :=
  if_neg nofun

theorem leading_present_of_lt {min left : Nat} (h : min < left) (op : OperatorId) (i : Nat) :
    present.leading op (decide (0 < left)) i = [] :=
  if_pos ⟨rfl, decide_eq_true (Nat.zero_lt_of_lt h)⟩

theorem faultsAt_present {r : Role} (h : r.isExtending = false) (needed : Bool) (i : Nat) :
    present.faultsAt r i = (expected needed).faultsAt r i := by
  cases r with
  | blank | operand | before => rfl
  | after op extending | between op extending =>
    obtain rfl : extending = false := h
    rfl

theorem step_eq {r : Role} (h : r ≠ .blank) (s s' : ScanState) : s.step r = s'.step r := by
  cases r with
  | blank => exact absurd rfl h
  | operand | before | after op extending | between op extending => rfl

end ScanState

namespace Phrase

def scan (count : Nat) (s : ScanState) (xs : List (Operand × Nat)) : List ParseError :=
  s.faults count (xs.map fun x => (x.1.role, x.2))

variable {count : Nat} {s : ScanState} {x : Operand × Nat} {xs ys : List (Operand × Nat)}

theorem scan_cons : scan count s (x :: xs) =
    s.faultsAt x.1.role x.2 ++ scan count (s.step x.1.role) xs := rfl

theorem scan_cons_blank (h : x.1.isBlank = true) : scan count s (x :: xs) = scan count s xs := by
  rw [scan_cons, Operand.role_blank h]
  rfl

theorem scan_skipped {blanks : List (Operand × Nat)} {stop : Bool}
    (h : ∀ b ∈ blanks, b.1.isSkipped stop = true) :
    scan count s (blanks ++ xs) = scan count s xs := by
  induction blanks with
  | nil => rfl
  | cons b blanks ih =>
    obtain ⟨hb, h⟩ := List.forall_mem_cons.mp h
    rw [List.cons_append, scan_cons_blank (Operand.isBlank_of_isSkipped hb), ih h]

theorem scan_expected (h : x.1.isBlank = false) :
    scan count (.expected true) (x :: xs) = scan count (.expected false) (x :: xs) := by
  have hstep := ScanState.step_eq (Operand.role_ne_blank h) (.expected true) (.expected false)
  rw [scan_cons, scan_cons, hstep]
  rfl

/-- The state of the scan when an operand is read, and when a phrase is there. -/
def stateAt : Option Phrase → ScanState
  | none => .expected true
  | some _ => .present

/-- The faults of a phrase are those that the scan finds in its items. -/
theorem Reads.errors_scan {lhs : Option Phrase} {min : Nat} {stop : Bool} {p : Phrase}
    (h : Reads lhs min stop xs p ys) (hl : ∀ q, lhs = some q → q.isAbsent = false) :
    lhs.elim [] (errors count · ⟨count, .valueExpected⟩) ++ scan count (stateAt lhs) xs =
      p.errors count ⟨count, .valueExpected⟩ ++ scan count .present ys := by
  -- an operator extends a phrase only if its left power is above zero, as in the scan
  induction h with
  | absent => rfl
  | blank hb h ih => rw [scan_cons_blank hb, ih nofun]
  | leaf hb hf h ih =>
    rw [scan_cons, Operand.role_closed hb hf]
    exact ih (by rintro q ⟨⟩; rfl)
  | before hf hr h ihr ih =>
    rw [scan_cons, Operand.role_before hf]
    exact (ihr nofun).trans (ih (by rintro q ⟨⟩; rfl))
  | leadingAfter hf h ih =>
    rw [scan_cons, Operand.role_after hf, ScanState.faultsAt, stateAt, ScanState.leading_expected]
    exact ih (by rintro q ⟨⟩; rfl)
  | leadingBetween hf hr h ihr ih =>
    rw [scan_cons, Operand.role_between hf, ScanState.faultsAt, stateAt, ScanState.leading_expected]
    refine Eq.trans ?_ (ih (by rintro q ⟨⟩; rfl))
    exact congrArg (_ :: ·) (ihr nofun)
  | done h => rfl
  | @after _ _ lhs o i left _ _ _ blanks hb hf hmin h ih =>
    rw [scan_skipped hb, scan_cons, Operand.role_after hf, ScanState.faultsAt, stateAt,
      ScanState.leading_present_of_lt hmin, Option.elim_some,
      errors_fault (hl lhs rfl) count _ ⟨i, .invalidLeadingOperator o.op⟩]
    exact ih (by rintro q ⟨⟩; rfl)
  | @between _ _ lhs o i left _ _ _ _ _ _ blanks hb hf hmin hr h ihr ih =>
    rw [scan_skipped hb, scan_cons, Operand.role_between hf, ScanState.faultsAt, stateAt,
      ScanState.leading_present_of_lt hmin, Option.elim_some,
      errors_fault (hl lhs rfl) count _ ⟨i, .invalidLeadingOperator o.op⟩]
    refine Eq.trans ?_ (ih (by rintro q ⟨⟩; rfl))
    rw [Option.elim_some, errors, List.append_assoc]
    exact congrArg (lhs.errors count _ ++ ·) (ihr nofun)

theorem Halts.tail {min : Nat} {stop : Bool} {o : Operand} {items : List Operand}
    (h : Halts min stop (o :: items)) (ho : o.isSkipped stop = true) : Halts min stop items := by
  intro blanks o' rest hs hb
  exact h (o :: blanks) o' rest (by rw [hs, List.cons_append]) (List.forall_mem_cons.mpr ⟨ho, hb⟩)

theorem scan_of_halts (h : Halts 0 false (xs.map Prod.fst)) :
    scan count .present xs = scan count (.expected false) xs := by
  induction xs with
  | nil => rfl
  | cons x xs ih =>
    cases hb : x.1.isBlank with
    | true =>
      have htail : Halts 0 false (xs.map Prod.fst) := h.tail (Operand.isSkipped_of_isBlank hb)
      rw [scan_cons_blank hb, scan_cons_blank hb, ih htail]
    | false =>
      have hx : x.1.role.isExtending = false := Operand.not_isExtending (h [] x.1 _ rfl nofun)
      rw [scan_cons, scan_cons, ScanState.faultsAt_present hx,
        ScanState.step_eq (Operand.role_ne_blank hb) .present (.expected false)]

theorem ReadsAll.errors_scan {ps : List Phrase} (h : ReadsAll xs ps)
    (hk : ∀ x ∈ xs, x.1.fixity ≠ .closed → x.1.keepsNewline = false) :
    ps.flatMap (errors count · ⟨count, .valueExpected⟩) = scan count (.expected false) xs := by
  induction h with
  | nil => rfl
  | blank hb h ih => rw [scan_cons_blank hb, ih (List.forall_mem_cons.mp hk).2]
  | @phrase x xs p ys ps hb hp h ih =>
    have hys : ∀ y ∈ ys, y.1.fixity ≠ .closed → y.1.keepsNewline = false := fun y hy =>
      hk y (hp.suffix.subset hy)
    have hhalts : Halts 0 false (ys.map Prod.fst) := (hp.bounded rfl hk nofun).2
    rw [List.flatMap_cons, ih hys, ← scan_of_halts hhalts, ← hp.errors_scan nofun,
      ← scan_expected hb]
    rfl

end Phrase

/-- The faults of a text in which no operator keeps newlines are those that one scan from left to
right finds. It knows of no power but whether it is zero. -/
theorem resolveAll_errors_eq_scan {items : List Operand}
    (hk : ∀ o ∈ items, o.keepsNewline = false) :
    (resolveAll items).errors = Role.faults (items.map Operand.role) := by
  obtain ⟨ps, hps, hr⟩ := Phrase.exists_describeAll items
  rw [hps.errors_eq, hr.errors_scan fun x hx _ => hk x.1 (List.fst_mem_of_mem_zipIdx hx),
    Role.faults, List.length_map, List.zipIdx_map]
  rfl

/-- Two operators that lack their left operands, of which the second one has left power zero, and
one that lacks its right operand. -/
def Sample.unfinished : List Operand :=
  [plus, letter "x", .operator (sign '=' (.between 0 5)), .token ⟨.newline, "\n", ⟨0, 0⟩⟩,
    .operator (sign '~' (.before 1))]

theorem resolveAll_errors_unfinished :
    (∀ o ∈ Sample.unfinished, o.keepsNewline = false) ∧
      Role.faults (Sample.unfinished.map Operand.role) =
        [⟨0, .invalidLeadingOperator "+"⟩, ⟨2, .invalidLeadingOperator "="⟩, ⟨5, .valueExpected⟩] ∧
      (resolveAll Sample.unfinished).errors = Role.faults (Sample.unfinished.map Operand.role) := by
  have hk : ∀ o ∈ Sample.unfinished, o.keepsNewline = false := by
    simp [Sample.unfinished, Sample.plus, Sample.letter, Sample.sign, Operand.keepsNewline]
  exact ⟨hk, rfl, resolveAll_errors_eq_scan hk⟩

end Distfix
