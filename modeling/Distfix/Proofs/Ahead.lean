import Distfix.Flattening

namespace Distfix

def firstOk {α ε β : Type} (f : α → Except ε β) : List α → Except (List (α × ε)) β
  | [] => .error []
  | a :: as =>
    match f a with
    | .ok b => .ok b
    | .error e =>
      match firstOk f as with
      | .ok b => .ok b
      | .error es => .error ((a, e) :: es)

structure Body where
  children : List Child
  length : Nat

/-- The separator that the end of the input leaves required, and how many tokens come before that
end. -/
structure Shortfall where
  separator : Nat
  length : Nat
deriving DecidableEq

abbrev Reading := Except Shortfall Body

namespace Body

def empty : Body := ⟨[], 0⟩

def close (b : Body) (index : Nat) (keyword : Token) : Body :=
  ⟨⟨index, keyword, []⟩ :: b.children, b.length + 1⟩

/-- Put an operand of `width` tokens in front. An operand that no keyword follows belongs to
no group, and is handed back. -/
def grow (b : Body) (operand : Operand) (width : Nat) : Body :=
  match b.children with
  | [] => empty
  | c :: cs => ⟨{ c with operands := operand :: c.operands } :: cs, b.length + width⟩

end Body

namespace Reading

def close (r : Reading) (index : Nat) (keyword : Token) : Reading :=
  match r with
  | .ok b => .ok (b.close index keyword)
  | .error e => .error ⟨e.separator, e.length + 1⟩

def grow (r : Reading) (operand : Operand) (width : Nat) : Reading :=
  match r with
  | .ok b => .ok (b.grow operand width)
  | .error e => .error ⟨e.separator, e.length + width⟩

end Reading

def Instance.ofBody (o : OperatorId × Definition) (leading : Token) (b : Body) : Instance :=
  ⟨o.1, o.2, leading, ⟨0, leading, []⟩ :: b.children⟩

def ParseError.unfinished (i : Nat) (failure : (OperatorId × Definition) × Shortfall) :
    ParseError :=
  ⟨i + 1 + failure.2.length, .unexpectedEnd failure.1.1 failure.2.separator⟩

namespace Catalog

variable (c : Catalog)

def openedBy (s : Scope) (t : Token) : List (OperatorId × Definition) :=
  (c.operators s).filter (·.2.leading.accepts t.text)

/-- Reads the groups of an operator, of which the first `skip` tokens are the rest of an operand.
A token that closes an open separator does so. Any other is tried as the beginning of an operator
of the region, and is an operand itself if there is none. It fails only when the input ends while
a separator is required. -/
def readBody : List Token → Nat → Pending → Scope → Reading
  | [], _, p, _ =>
    match p.required with
    | some separator => .error ⟨separator, 0⟩
    | none => .ok .empty
  | _ :: ts, skip + 1, p, scope => readBody ts skip p scope
  | t :: ts, 0, p, scope =>
    if p.slots.isEmpty then .ok .empty
    else
      match p.close t.text with
      | some (index, q) => (readBody ts 0 q scope).close index t
      | none =>
        let region := c.derive p.region scope
        let attempt := fun o =>
          (readBody ts 0 (.initial o.2) region).map fun b => (Instance.ofBody o t b, b.length)
        match firstOk attempt (c.openedBy region t) with
        | .ok (i, n) => (readBody ts n p scope).grow (.operator i) (n + 1)
        | .error _ => (readBody ts 0 p scope).grow (.token t) 1

def attempt (t : Token) (ts : List Token) (scope : Scope) (o : OperatorId × Definition) :
    Except Shortfall (Instance × Nat) :=
  (c.readBody ts 0 (.initial o.2) scope).map fun b => (Instance.ofBody o t b, b.length)

def firstMatch (t : Token) (ts : List Token) (scope : Scope) :
    Except (List ((OperatorId × Definition) × Shortfall)) (Instance × Nat) :=
  firstOk (c.attempt t ts scope) (c.openedBy scope t)

theorem readBody_cons (t : Token) (ts : List Token) (p : Pending) (scope : Scope) :
    c.readBody (t :: ts) 0 p scope =
      if p.slots.isEmpty then .ok .empty
      else
        match p.close t.text with
        | some (index, q) => (c.readBody ts 0 q scope).close index t
        | none =>
          match c.firstMatch t ts (c.derive p.region scope) with
          | .ok (i, n) => (c.readBody ts n p scope).grow (.operator i) (n + 1)
          | .error _ => (c.readBody ts 0 p scope).grow (.token t) 1 := by
  rw [readBody]
  rfl

/-- The operators and the other tokens of a text, of which the first `skip` tokens belong to the
operator before and the next one has number `i`. A fault is an operator that began and was not
finished. -/
def flattenItems (scope : Scope) :
    List Token → Nat → Nat → Outcome (List Operand)
  | [], _, i => ⟨i, [], []⟩
  | _ :: ts, skip + 1, i => flattenItems scope ts skip i
  | t :: ts, 0, i =>
    match c.firstMatch t ts scope with
    | .ok (found, n) => (flattenItems scope ts n (i + 1 + n)).emit (.operator found) []
    | .error failures =>
      (flattenItems scope ts 0 (i + 1)).emit (.token t) (failures.map (.unfinished i))

theorem flattenItems_drop (scope : Scope) (ts : List Token) (skip i : Nat) :
    c.flattenItems scope ts skip i = c.flattenItems scope (ts.drop skip) 0 i := by
  induction ts generalizing skip with
  | nil => rw [List.drop_nil, flattenItems, flattenItems]
  | cons t ts ih =>
    cases skip with
    | zero => rfl
    | succ skip => exact ih skip

end Catalog

end Distfix
