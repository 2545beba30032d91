namespace Distfix.Unicode

/-- Membership in a class given by its ranges of code points, in ascending order. -/
def inRanges : List (Nat × Nat) → Nat → Bool
  | [], _ => false
  | (low, high) :: rest, n => if n < low then false else n ≤ high || inRanges rest n

end Distfix.Unicode
