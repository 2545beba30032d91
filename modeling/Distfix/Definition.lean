import Distfix.Separator

namespace Distfix

/-- Where an operator takes operands outside its keywords, with the binding power on each side:
it stands before its operand, after it, between two of them, or it is closed on both sides. -/
inductive Fixity where
  | before (right : Nat)
  | after (left : Nat)
  | between (left right : Nat)
  | closed
deriving DecidableEq

namespace Fixity

def ofPowers : Option Nat → Option Nat → Fixity
  | none, some right => before right
  | some left, none => after left
  | some left, some right => between left right
  | none, none => closed

def left? : Fixity → Option Nat
  | after left | between left _ => some left
  | before _ | closed => none

def right? : Fixity → Option Nat
  | before right | between _ right => some right
  | after _ | closed => none

theorem left?_ofPowers (l r : Option Nat) : (ofPowers l r).left? = l := by
  cases l <;> cases r <;> rfl

theorem right?_ofPowers (l r : Option Nat) : (ofPowers l r).right? = r := by
  cases l <;> cases r <;> rfl

end Fixity

/-- An operator. Its leading keyword stands exactly once and has no region of its own; the
other separators follow in order. -/
structure Definition where
  leading : Spellings
  rest : List Separator
  fixity : Fixity
  keepsNewline : Bool := false
deriving DecidableEq

namespace Definition

def new (leading : List String) (rest : List Separator) (fixity : Fixity) :
    Except GrammarError Definition := do
  let leading ← Spellings.ofList leading
  return { leading, rest, fixity }

def ofSeparators (separators : List Separator) (fixity : Fixity) :
    Except GrammarError Definition :=
  match separators with
  | [] => .error .noSeparators
  | lead :: rest =>
    if lead.repeats ≠ .once then .error .leadingNotOnce
    else if lead.region.isSome then .error .leadingScoped
    else .ok { leading := lead.spellings, rest, fixity }

def before (text : String) (right : Nat) : Except GrammarError Definition :=
  new [text] [] (.before right)

def after (text : String) (left : Nat) : Except GrammarError Definition :=
  new [text] [] (.after left)

def between (text : String) (left right : Nat) : Except GrammarError Definition :=
  new [text] [] (.between left right)

def closed (text : String) (rest : List Separator) : Except GrammarError Definition :=
  new [text] rest .closed

def keepNewline (d : Definition) : Definition := { d with keepsNewline := true }

def separators (d : Definition) : List Separator := ⟨d.leading, .once, none⟩ :: d.rest

def render (d : Definition) : String :=
  let power (p : Option Nat) := (p.map toString).getD "-"
  " ".intercalate (d.separators.map Separator.render)
    ++ " <" ++ power d.fixity.left? ++ ", " ++ power d.fixity.right? ++ ">"

theorem ofSeparators_ok {separators : List Separator} {fixity : Fixity} {d : Definition}
    (h : ofSeparators separators fixity = .ok d) :
    ∃ lead rest, separators = lead :: rest ∧ lead.repeats = .once ∧ lead.region = none ∧
      d = { leading := lead.spellings, rest, fixity } := by
  unfold ofSeparators at h
  split at h
  · contradiction
  · rename_i lead rest
    split at h
    · contradiction
    · split at h
      · contradiction
      · rename_i hr hs
        injection h with h
        exact ⟨lead, rest, rfl, Decidable.not_not.mp hr, by simpa using hs, h.symm⟩

theorem separators_ofSeparators {separators : List Separator} {fixity : Fixity} {d : Definition}
    (h : ofSeparators separators fixity = .ok d) : d.separators = separators := by
  obtain ⟨⟨spellings, repeats, region⟩, rest, rfl, rfl, rfl, rfl⟩ := ofSeparators_ok h
  rfl

end Definition

end Distfix
