import Distfix.Proofs.RoundTrip
import Distfix.Proofs.Unfinished

namespace Distfix

def ParseError.shift (e : ParseError) (n : Nat) : ParseError := ⟨e.index + n, e.fault⟩

def Outcome.shift {α : Type} (r : Outcome α) (n : Nat) : Outcome α :=
  ⟨r.next + n, r.value, r.errors.map (·.shift n)⟩

theorem ParseError.unfinished_add (i n : Nat) (failure : (OperatorId × Definition) × Shortfall) :
    ParseError.unfinished (i + n) failure = (ParseError.unfinished i failure).shift n := by
  have hindex : i + n + 1 + failure.2.length = i + 1 + failure.2.length + n := by omega
  rw [unfinished, hindex]
  rfl

theorem Outcome.shift_emit (r : Outcome (List Operand)) (item : Operand) (errors : List ParseError)
    (n : Nat) : (r.emit item errors).shift n = (r.shift n).emit item (errors.map (·.shift n)) := by
  simp [emit, shift]

namespace Operand

theorem tokenPlaces_cons (item : Operand) (os : List Operand) (i : Nat) :
    tokenPlaces (item :: os) i =
      tokenPlaces [item] i ++ tokenPlaces os (i + item.tokens.length) := by
  cases item <;> rfl

theorem length_tokensOf_cons {item : Operand} {n : Nat} (h : item.tokens.length = n + 1)
    (os : List Operand) : (tokensOf (item :: os)).length = n + (tokensOf os).length + 1 := by
  rw [tokensOf, List.length_append, h, Nat.add_right_comm]

end Operand

namespace Catalog

variable {c : Catalog} {scope : Scope}

theorem flattenItems_shift (ts : List Token) (skip i n : Nat) :
    c.flattenItems scope ts skip (i + n) = (c.flattenItems scope ts skip i).shift n := by
  induction ts generalizing skip i with
  | nil => rfl
  | cons t ts ih =>
    cases skip with
    | succ skip => exact ih skip i
    | zero =>
      rw [flattenItems, flattenItems]
      cases c.firstMatch t ts scope with
      | ok found =>
        have hi : i + n + 1 + found.2 = i + 1 + found.2 + n := by omega
        dsimp only
        rw [hi, ih, Outcome.shift_emit]
        rfl
      | error failures =>
        have hfaults : failures.map (ParseError.unfinished (i + n)) =
            (failures.map (ParseError.unfinished i)).map (·.shift n) := by
          rw [List.map_map]
          exact List.map_congr_left fun failure _ => ParseError.unfinished_add i n failure
        dsimp only
        rw [Nat.add_right_comm i n 1, ih, Outcome.shift_emit, hfaults]

/-- After the items `before`, the first of which begins at `i`, a run goes on as `rest`. The faults
before are those of the operators that begin at the tokens among these items. -/
structure Resumes (c : Catalog) (tokens : List Token) (scope : Scope) (i : Nat)
    (before : List Operand) (r rest : Outcome (List Operand)) : Prop where
  next_eq : r.next = rest.next
  value_eq : r.value = before ++ rest.value
  errors_eq : ∃ early, r.errors = early ++ rest.errors ∧
    List.Forall₂ (c.Unfinished tokens scope) (c.begun scope (Operand.tokenPlaces before i)) early

variable {tokens : List Token} {i : Nat} {before : List Operand} {r rest : Outcome (List Operand)}

theorem Resumes.refl (r : Outcome (List Operand)) : c.Resumes tokens scope i [] r r :=
  ⟨rfl, rfl, [], rfl, .nil⟩

theorem Resumes.emit {item : Operand} {n : Nat} {errors : List ParseError}
    (h : c.Resumes tokens scope (i + 1 + n) before r rest) (hn : item.tokens.length = n + 1)
    (he : List.Forall₂ (c.Unfinished tokens scope) (c.begun scope (Operand.tokenPlaces [item] i))
      errors) :
    c.Resumes tokens scope i (item :: before) (r.emit item errors) rest := by
  obtain ⟨hnext, hvalue, early, herrors, hearly⟩ := h
  refine ⟨hnext, ?_, errors ++ early, ?_, ?_⟩
  · rw [Outcome.emit, hvalue, List.cons_append]
  · rw [Outcome.emit, herrors, List.append_assoc]
  · rw [Operand.tokenPlaces_cons, hn, ← Nat.add_assoc, Nat.add_right_comm, begun,
      List.flatMap_append]
    exact List.rel_append he hearly

/-- A run can be taken up again after any of its items, the tokens of which it has passed. -/
theorem flattenItems_resumes {ts : List Token} {skip : Nat} {after : List Operand}
    (hd : tokens.drop i = ts.drop skip)
    (h : (c.flattenItems scope ts skip i).value = before ++ after) :
    c.Resumes tokens scope i before (c.flattenItems scope ts skip i)
      (c.flattenItems scope (ts.drop (skip + (Operand.tokensOf before).length)) 0
        (i + (Operand.tokensOf before).length)) := by
  induction ts generalizing skip i before with
  | nil =>
    obtain ⟨rfl, rfl⟩ := List.append_eq_nil_iff.mp h.symm
    rw [List.drop_nil]
    exact .refl _
  | cons t ts ih =>
    cases skip with
    | succ skip =>
      rw [Nat.add_right_comm, List.drop_succ_cons]
      exact ih hd h
    | zero =>
      cases before with
      | nil => exact .refl _
      | cons item before =>
        have hrest (n : Nat) : tokens.drop (i + 1 + n) = ts.drop n := by
          rw [← List.drop_drop, (drop_eq_cons hd).2]
        have hi (n k : Nat) : i + (n + k + 1) = i + 1 + n + k := by omega
        rw [flattenItems] at h ⊢
        cases hm : c.firstMatch t ts scope with
        | ok found =>
          obtain ⟨found, n⟩ := found
          rw [hm] at h
          obtain ⟨rfl, htail⟩ := List.cons.inj h
          have hn : (Operand.operator found).tokens.length = n + 1 := length_tokens_of_firstMatch hm
          rw [Operand.length_tokensOf_cons hn, Nat.zero_add, List.drop_succ_cons, hi]
          exact (ih (hrest n) htail).emit hn .nil
        | error failures =>
          rw [hm] at h
          obtain ⟨rfl, htail⟩ := List.cons.inj h
          have hn : (Operand.token t).tokens.length = 0 + 1 := rfl
          rw [Operand.length_tokensOf_cons hn, Nat.zero_add, List.drop_succ_cons, hi]
          have hfaults := unfinished_of_firstMatch hd hm
          refine (ih (hrest 0) htail).emit hn ?_
          rwa [Operand.tokenPlaces, Operand.tokenPlaces, begun, List.flatMap_singleton]

variable (c scope)

theorem located_add (i n : Nat) (o : OperatorId × Definition)
    (r : Except Shortfall (Instance × Nat)) :
    located (i + n) o r =
      ((located i o r).map fun m => (m.1 + n, m.2)).mapError (·.shift n) := by
  cases r with
  | ok found =>
    have hnext : i + n + 1 + found.2 = i + 1 + found.2 + n := by omega
    rw [located, hnext]
    rfl
  | error e => exact congrArg Except.error (ParseError.unfinished_add i n (o, e))

theorem matchOperator_append (front : List Token) (i : Nat) (o : OperatorId × Definition) :
    c.matchOperator (front ++ tokens) (front.length + i) o scope =
      ((c.matchOperator tokens i o scope).map fun m => (m.1 + front.length, m.2)).mapError
        (·.shift front.length) := by
  rw [matchOperator_eq_matchAhead, matchOperator_eq_matchAhead, matchAhead, matchAhead,
    List.drop_length_add_append, Nat.add_comm front.length]
  cases tokens.drop i with
  | nil => rfl
  | cons t ts =>
    dsimp only
    split
    · exact located_add i front.length o (c.attempt t ts scope o)
    · rfl

theorem flatten_append (front : List Token) (i : Nat) :
    c.flatten (front ++ tokens) (front.length + i) scope =
      (c.flatten tokens i scope).shift front.length := by
  rw [flatten_eq_flattenAhead, flatten_eq_flattenAhead, flattenAhead, flattenAhead,
    List.drop_length_add_append, Nat.add_comm front.length, flattenItems_shift]

variable {c scope}

theorem flatten_resumes {after : List Operand}
    (h : (c.flatten tokens 0 scope).value = before ++ after) :
    let p := (Operand.tokensOf before).length
    c.Resumes tokens scope 0 before (c.flatten tokens 0 scope)
      ((c.flatten (tokens.drop p) 0 scope).shift p) := by
  rw [flatten_eq_flattenAhead, flattenAhead, List.drop_zero] at h
  simp only [flatten_eq_flattenAhead, flattenAhead, List.drop_zero]
  have hd : tokens.drop 0 = tokens.drop 0 := rfl
  have hresumes := flattenItems_resumes hd h
  rwa [flattenItems_shift, Nat.zero_add] at hresumes

variable (c scope)

/-- Reading depends only on the tokens ahead. Flattening can begin anew after any item, and whatever
stands in front of a text only moves the positions in it. -/
theorem reading_restarts (tokens : List Token) :
    (∀ before after, (c.flatten tokens 0 scope).value = before ++ after →
      let p := (Operand.tokensOf before).length
      let rest := c.flatten (tokens.drop p) 0 scope
      Operand.tokensOf before = tokens.take p ∧ after = rest.value ∧
        c.Resumes tokens scope 0 before (c.flatten tokens 0 scope) (rest.shift p)) ∧
      ∀ front i,
        (∀ o, c.matchOperator (front ++ tokens) (front.length + i) o scope =
          ((c.matchOperator tokens i o scope).map fun m => (m.1 + front.length, m.2)).mapError
            (·.shift front.length)) ∧
        c.flatten (front ++ tokens) (front.length + i) scope =
          (c.flatten tokens i scope).shift front.length := by
  refine ⟨fun before after h => ⟨?_, ?_, flatten_resumes h⟩, fun front i =>
    ⟨c.matchOperator_append scope front i, c.flatten_append scope front i⟩⟩
  · have ht := c.tokensOf_flatten tokens scope
    rw [h, Operand.tokensOf_eq_flatMap, List.flatMap_append, ← Operand.tokensOf_eq_flatMap] at ht
    rw [← ht, List.take_left]
  · have hvalue := (flatten_resumes h).value_eq
    rw [h] at hvalue
    exact List.append_cancel_left hvalue

theorem unclosed_restarts :
    let tokens := ["<", "[", "<", "]", "<", "b"].map Sample.symbol
    let rest := ["<", "b"].map Sample.symbol
    let before := [.token (Sample.symbol "<"), .operator Sample.quoted]
    let r := Sample.catalog.flatten tokens 0 Sample.scope
    let q := Sample.catalog.flatten rest 0 Sample.scope
    r.value = before ++ rest.map .token ∧ q.errors = [⟨2, .unexpectedEnd "group" 2⟩] ∧
      Sample.catalog.Resumes tokens Sample.scope 0 before r (q.shift 4) := by
  intro tokens rest before r q
  have hvalue : r.value = before ++ rest.map .token := by
    rw [show r = _ from flatten_eq_flattenAhead ..]
    rfl
  have herrors : q.errors = [⟨2, .unexpectedEnd "group" 2⟩] := by
    rw [show q = _ from flatten_eq_flattenAhead ..]
    rfl
  exact ⟨hvalue, herrors, ((reading_restarts Sample.catalog Sample.scope tokens).1 _ _ hvalue).2.2⟩

end Catalog

end Distfix
