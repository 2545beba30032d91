import Distfix.Definition

namespace Distfix

/-- The separators of an operator that are still open, each with its number, and how often the
first of them has occurred so far. -/
structure Pending where
  slots : List (Separator × Nat)
  count : Nat

namespace Pending

def initial (d : Definition) : Pending := ⟨d.rest.zipIdx 1, 0⟩

/-- After one more occurrence of `s`, it stays open unless that was its last. -/
def advance (s : Separator) (index count : Nat) (slots : List (Separator × Nat)) : Pending :=
  if s.repeats.exhaustedBy (count + 1) then ⟨slots, 0⟩ else ⟨(s, index) :: slots, count + 1⟩

/-- The first open separator that accepts a text, where none that is still required may be
passed over. The separators before it are open no longer. -/
def closeIn (text : String) : List (Separator × Nat) → Nat → Option (Nat × Pending)
  | [], _ => none
  | (s, index) :: slots, count =>
    if s.accepts text then some (index, advance s index count slots)
    else if count < s.repeats.min then none
    else closeIn text slots 0

def close (p : Pending) (text : String) : Option (Nat × Pending) := closeIn text p.slots p.count

def requiredIn : List (Separator × Nat) → Nat → Option Nat
  | [], _ => none
  | (s, index) :: slots, count => if count < s.repeats.min then some index else requiredIn slots 0

def required (p : Pending) : Option Nat := requiredIn p.slots p.count

def region (p : Pending) : Option GeneratorRef := p.slots.head?.bind (·.1.region)

end Pending

end Distfix
