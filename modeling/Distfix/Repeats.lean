import Distfix.GrammarError

namespace Distfix

inductive Bound where
  | finite (n : Nat)
  | unbounded
deriving DecidableEq

namespace Bound

def ofOption : Option Nat → Bound
  | some n => finite n
  | none => unbounded

def admits : Bound → Nat → Bool
  | finite m, n => n ≤ m
  | unbounded, _ => true

def compare : Bound → Bound → Ordering
  | finite m, finite n => Ord.compare m n
  | finite _, unbounded => .lt
  | unbounded, finite _ => .gt
  | unbounded, unbounded => .eq

def render : Bound → String
  | finite n => toString n
  | unbounded => "∞"

theorem admits_of_le {b : Bound} {m n : Nat} (h : b.admits n) (hm : m ≤ n) : b.admits m := by
  cases b with
  | finite k => simp only [admits, decide_eq_true_eq] at h ⊢; omega
  | unbounded => rfl

end Bound

structure Repeats where
  min : Nat
  max : Bound
  positive : max ≠ .finite 0
  ordered : max.admits min = true
deriving DecidableEq

namespace Repeats

def once : Repeats := ⟨1, .finite 1, by simp, rfl⟩
def optional : Repeats := ⟨0, .finite 1, by simp, rfl⟩
def many : Repeats := ⟨0, .unbounded, by simp, rfl⟩
def atLeastOnce : Repeats := ⟨1, .unbounded, by simp, rfl⟩

/-- A zero maximum is reported before an inverted range. -/
def between (min : Nat) : Bound → Except GrammarError Repeats
  | .unbounded => .ok ⟨min, .unbounded, by simp, rfl⟩
  | .finite m =>
    if hm : m = 0 then .error .zeroMaximum
    else if h : min ≤ m then
      .ok ⟨min, .finite m, by simpa using hm, by simpa [Bound.admits] using h⟩
    else .error (.invertedRepeats min m)

def contains (r : Repeats) (n : Nat) : Bool := r.min ≤ n && r.max.admits n

def exhaustedBy (r : Repeats) (n : Nat) : Bool := !r.max.admits (n + 1)

def render (r : Repeats) : String := toString r.min ++ ".." ++ r.max.render

theorem contains_iff (r : Repeats) (n : Nat) :
    r.contains n = true ↔ r.min ≤ n ∧ r.max.admits n = true := by
  simp [contains]

end Repeats

end Distfix
