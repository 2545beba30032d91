import Distfix.Matching.Search

namespace Distfix

def Outcome.emit (r : Outcome (List Operand)) (item : Operand) (errors : List ParseError) :
    Outcome (List Operand) :=
  ⟨r.next, item :: r.value, errors ++ r.errors⟩

namespace Matcher

/-- The operators and the other tokens from `cursor` on, where `first` looks for an operator. A
fault is an operator that began and was not finished. -/
def flattenFrom {σ : Type} (first : Nat → StateM σ (Except (List ParseError) Found))
    (behind : ∀ cursor s, EndsBehind cursor (first cursor s).1) (tokens : Array Token)
    (cursor : Nat) (s : σ) : Outcome (List Operand) :=
  if h : cursor < tokens.size then
    match hm : first cursor s with
    | (.ok (next, i), s) => (flattenFrom first behind tokens next s).emit (.operator i) []
    | (.error failures, s) =>
      (flattenFrom first behind tokens (cursor + 1) s).emit (.token tokens[cursor])
        (failures.filter (!·.isMismatch))
  else ⟨cursor, [], []⟩
termination_by tokens.size - cursor
decreasing_by
  · have hnext := behind cursor _ next i (congrArg Prod.fst hm)
    omega
  · omega

section

variable {σ : Type} {first : Nat → StateM σ (Except (List ParseError) Found)}
  {behind : ∀ cursor s, EndsBehind cursor (first cursor s).1} {tokens : Array Token}
  {cursor next : Nat} {s s' : σ} {i : Instance} {es : List ParseError}

theorem flattenFrom_of_ok (h : cursor < tokens.size) (hm : first cursor s = (.ok (next, i), s')) :
    flattenFrom first behind tokens cursor s =
      (flattenFrom first behind tokens next s').emit (.operator i) [] := by
  rw [flattenFrom, dif_pos h]
  split
  · rename_i hfound
    obtain ⟨hr, rfl⟩ := Prod.mk.inj (hm.symm.trans hfound)
    obtain ⟨rfl, rfl⟩ := Prod.mk.inj (Except.ok.inj hr)
    rfl
  · rename_i herror
    cases (Prod.mk.inj (hm.symm.trans herror)).1

theorem flattenFrom_of_error (h : cursor < tokens.size) (hm : first cursor s = (.error es, s')) :
    flattenFrom first behind tokens cursor s =
      (flattenFrom first behind tokens (cursor + 1) s').emit (.token tokens[cursor])
        (es.filter (!·.isMismatch)) := by
  rw [flattenFrom, dif_pos h]
  split
  · rename_i hfound
    cases (Prod.mk.inj (hm.symm.trans hfound)).1
  · rename_i herror
    obtain ⟨hr, rfl⟩ := Prod.mk.inj (hm.symm.trans herror)
    rw [Except.error.inj hr]

theorem flattenFrom_of_end (h : ¬ cursor < tokens.size) :
    flattenFrom first behind tokens cursor s = ⟨cursor, [], []⟩ := by
  rw [flattenFrom, dif_neg h]

end

end Matcher

namespace Catalog

variable (c : Catalog)

def flatten (tokens : List Token) (index : Nat) (scope : Scope) : Outcome (List Operand) :=
  Matcher.flattenFrom (Memo.firstMatch c tokens.toArray · scope)
    (fun cursor m => Memo.ensures_firstMatch cursor scope m) tokens.toArray index .empty

def matchOperator (tokens : List Token) (index : Nat) (o : OperatorId × Definition)
    (scope : Scope) :
    Except ParseError Found :=
  (Matcher.matchIn c (Memo.search c) tokens.toArray index scope o .empty).1

end Catalog

end Distfix
