import Distfix.Catalog
import Distfix.Matching.Memo
import Distfix.Matching.Pending
import Distfix.Operand

namespace Distfix

abbrev Found := Nat × Instance

/-- A way to look for an operator of a scope that begins at an index, given how to attempt one. -/
abbrev Search (m : Type → Type) :=
  Nat → Scope → (OperatorId × Definition → m (Except ParseError Found)) →
    m (Except (List ParseError) Found)

/-- The groups of an operator that have been read, and the operands after them, the first of which
is at `start`. -/
structure Gathered where
  pending : Pending
  children : Array Child
  operands : Array Operand
  start : Nat

namespace Gathered

def initial (d : Definition) (leading : Token) (start : Nat) : Gathered :=
  ⟨.initial d, #[⟨0, leading, []⟩], #[], start⟩

def close (g : Gathered) (index : Nat) (pending : Pending) (keyword : Token)
    (start : Nat) : Gathered :=
  ⟨pending, g.children.push ⟨index, keyword, g.operands.toList⟩, #[], start⟩

def push (g : Gathered) (operand : Operand) : Gathered :=
  { g with operands := g.operands.push operand }

def toInstance (g : Gathered) (o : OperatorId × Definition) (leading : Token) : Instance :=
  ⟨o.1, o.2, leading, g.children.toList⟩

end Gathered

namespace Matcher

def EndsBehind {ε : Type} (index : Nat) (r : Except ε Found) : Prop :=
  ∀ next i, r = .ok (next, i) → index < next

theorem endsBehind_ok {ε : Type} {index next : Nat} {i : Instance} (h : index < next) :
    EndsBehind index (.ok (next, i) : Except ε Found) :=
  fun _ _ heq => (Prod.mk.inj (Except.ok.inj heq)).1 ▸ h

theorem endsBehind_error {ε : Type} (index : Nat) (e : ε) :
    EndsBehind index (.error e : Except ε Found) := nofun

variable {m : Type → Type} [Monad m]

/-- The first success in order, or else every failure in order. -/
def tryEach {α ε β : Type} (f : α → m (Except ε β)) : List α → m (Except (List ε) β)
  | [] => pure (.error [])
  | a :: as => do
    match ← f a with
    | .ok b => return .ok b
    | .error e => return (← tryEach f as).mapError (e :: ·)

variable (c : Catalog) (search : Search m) (tokens : Array Token)

def openAt (index : Nat) (o : OperatorId × Definition)
    (read : Token → m (Except ParseError Found)) :
    m (Except ParseError Found) :=
  match tokens[index]? with
  | some t =>
    if o.2.leading.accepts t.text then read t else pure (.error ⟨index, .leadingMismatch o.1⟩)
  | none => pure (.error ⟨index, .leadingMismatch o.1⟩)

/-- Reads the groups of an operator. A token that closes an open separator does so. Any other is
tried as the beginning of an operator of the region, and is an operand itself if there is none.
Operands that no keyword follows are handed back. -/
def readGroups (o : OperatorId × Definition) (leading : Token) (scope : Scope) (g : Gathered)
    (cursor : Nat) : m (Except ParseError Found) :=
  if g.pending.slots.isEmpty then pure (.ok (cursor, g.toInstance o leading))
  else if h : cursor < tokens.size then
    let t := tokens[cursor]
    match g.pending.close t.text with
    | some (index, pending) =>
      readGroups o leading scope (g.close index pending t (cursor + 1)) (cursor + 1)
    | none => do
      let region := c.derive g.pending.region scope
      match ← search cursor region fun o => openAt tokens cursor o fun leading =>
          readGroups o leading region (.initial o.2 leading (cursor + 1)) (cursor + 1) with
      | .ok (next, i) =>
        if next ≤ cursor then return .error ⟨cursor, .noProgress i.op⟩
        else readGroups o leading scope (g.push (.operator i)) next
      | .error _ => readGroups o leading scope (g.push (.token t)) (cursor + 1)
  else
    match g.pending.required with
    | some separator => pure (.error ⟨cursor, .unexpectedEnd o.1 separator⟩)
    | none => pure (.ok (g.start, g.toInstance o leading))
termination_by tokens.size - cursor

def matchIn (index : Nat) (scope : Scope) (o : OperatorId × Definition) :
    m (Except ParseError Found) :=
  openAt tokens index o fun leading =>
    readGroups c search tokens o leading scope (.initial o.2 leading (index + 1)) (index + 1)

def firstMatch (index : Nat) (scope : Scope) : m (Except (List ParseError) Found) :=
  search index scope (matchIn c search tokens index scope)

section

variable {c search tokens} {o : OperatorId × Definition} {leading : Token} {scope : Scope}
  {g : Gathered} {cursor : Nat}

theorem readGroups_of_isEmpty (h : g.pending.slots.isEmpty = true) :
    readGroups c search tokens o leading scope g cursor =
      pure (.ok (cursor, g.toInstance o leading)) := by
  rw [readGroups, if_pos h]

theorem readGroups_of_close (hs : ¬ g.pending.slots.isEmpty = true) (h : cursor < tokens.size)
    {index : Nat} {pending : Pending}
    (hc : g.pending.close tokens[cursor].text = some (index, pending)) :
    readGroups c search tokens o leading scope g cursor =
      readGroups c search tokens o leading scope
        (g.close index pending tokens[cursor] (cursor + 1)) (cursor + 1) := by
  rw [readGroups, if_neg hs, dif_pos h]
  simp only [hc]

theorem readGroups_of_open (hs : ¬ g.pending.slots.isEmpty = true) (h : cursor < tokens.size)
    (hc : g.pending.close tokens[cursor].text = none) :
    readGroups c search tokens o leading scope g cursor =
      (firstMatch c search tokens cursor (c.derive g.pending.region scope) >>= fun
        | .ok (next, i) =>
          if next ≤ cursor then pure (.error ⟨cursor, .noProgress i.op⟩)
          else readGroups c search tokens o leading scope (g.push (.operator i)) next
        | .error _ =>
          readGroups c search tokens o leading scope
            (g.push (.token tokens[cursor])) (cursor + 1)) := by
  rw [readGroups, if_neg hs, dif_pos h]
  simp only [hc]
  rfl

theorem readGroups_of_end (hs : ¬ g.pending.slots.isEmpty = true) (h : ¬ cursor < tokens.size) :
    readGroups c search tokens o leading scope g cursor =
      match g.pending.required with
      | some separator => pure (.error ⟨cursor, .unexpectedEnd o.1 separator⟩)
      | none => pure (.ok (g.start, g.toInstance o leading)) := by
  rw [readGroups, if_neg hs, dif_neg h]

end

end Matcher

end Distfix
