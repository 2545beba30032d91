import Distfix.Outcome
import Distfix.Scope
import Std.Data.TreeMap.Basic

namespace Distfix

/-- An attempt that failed. The scope in which it was made is known by its number. -/
structure Memo.Failure where
  scope : Nat
  op : OperatorId
  error : ParseError

/-- The scopes in which operators were looked for, in the order of their numbers, and the failures
met so far by the index of the token at which they began. -/
structure Memo where
  scopes : List Scope
  failures : Std.TreeMap Nat (List Memo.Failure) compare

namespace Memo

def empty : Memo := ⟨[], .empty⟩

/-- Scopes that share their definitions have the same number. -/
def intern (scope : Scope) : StateM Memo Nat := fun m =>
  match m.scopes.findIdx? (·.shares scope) with
  | some number => (number, m)
  | none => (m.scopes.length, { m with scopes := m.scopes ++ [scope] })

def find? (m : Memo) (index number : Nat) (op : OperatorId) : Option ParseError :=
  ((m.failures.getD index []).find? fun f => f.op = op && f.scope = number).map (·.error)

def insert (m : Memo) (index : Nat) (f : Failure) : Memo :=
  { m with failures := m.failures.insert index (f :: m.failures.getD index []) }

/-- Make an attempt unless it is known to fail, and remember its failure. -/
def remember {α : Type} (index number : Nat) (op : OperatorId)
    (attempt : StateM Memo (Except ParseError α)) : StateM Memo (Except ParseError α) := fun m =>
  match m.find? index number op with
  | some e => (.error e, m)
  | none =>
    match attempt m with
    | (.ok a, m) => (.ok a, m)
    | (.error e, m) => (.error e, m.insert index ⟨number, op, e⟩)

end Memo

end Distfix
