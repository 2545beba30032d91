import Distfix.Proofs.Essence

namespace Distfix

inductive Agree {ε ε' α α' : Type} (E : ε → ε' → Prop) (S : α → α' → Prop) :
    Except ε α → Except ε' α' → Prop
  | ok {a b} (h : S a b) : Agree E S (.ok a) (.ok b)
  | error {e e'} (h : E e e') : Agree E S (.error e) (.error e')

section

variable {ε ε' α α' β β' γ : Type} {E : ε → ε' → Prop} {S : α → α' → Prop} {T : β → β' → Prop}

theorem Agree.map {x : Except ε α} {y : Except ε' α'} (h : Agree E S x y) {f : α → β}
    {g : α' → β'} (hfg : ∀ a b, x = .ok a → S a b → T (f a) (g b)) :
    Agree E T (x.map f) (y.map g) := by
  cases h with
  | ok h => exact .ok (hfg _ _ rfl h)
  | error h => exact .error h

theorem agree_firstOk {f : γ → Except ε β} {g : γ → Except ε' β'} {as : List γ}
    (h : ∀ a ∈ as, Agree E T (f a) (g a)) :
    Agree (List.Forall₂ fun x y => x.1 = y.1 ∧ E x.2 y.2) T (firstOk f as) (firstOk g as) := by
  induction as with
  | nil => exact .error .nil
  | cons a as ih =>
    obtain ⟨ha, has⟩ := List.forall_mem_cons.mp h
    rw [firstOk, firstOk]
    generalize f a = x, g a = y at ha ⊢
    have hrest := ih has
    generalize firstOk f as = xs, firstOk g as = ys at hrest ⊢
    cases ha with
    | ok hb => exact .ok hb
    | error he =>
      cases hrest with
      | ok hb => exact .ok hb
      | error hes => exact .error (.cons ⟨rfl, he⟩ hes)

end

namespace Catalog

variable (c : Catalog)

/-- The scopes that hold in the regions of operators, at any depth. -/
inductive Reaches (scope : Scope) : Scope → Prop
  | self : Reaches scope scope
  | region {s : Scope} {o : OperatorId × Definition} {separator : Separator} (h : Reaches scope s)
      (ho : o ∈ c.operators s) (hs : separator ∈ o.2.separators) :
      Reaches scope (c.derive separator.region s)

/-- The text is no keyword, neither in a scope nor in any region that it leads to. -/
def Ignores (scope : Scope) (text : String) : Prop :=
  ∀ s, c.Reaches scope s → ∀ o ∈ c.operators s, ∀ separator ∈ o.2.separators,
    separator.accepts text = false

variable {c} {top scope : Scope} {lines : Bool}

theorem openedBy_eq_nil {t : Token} (hs : c.Reaches top scope) (ht : c.Ignores top t.text) :
    c.openedBy scope t = [] := by
  refine List.filter_eq_nil_iff.mpr fun o ho => ?_
  have hl : (⟨o.2.leading, .once, none⟩ : Separator) ∈ o.2.separators := List.mem_cons_self ..
  exact Bool.eq_false_iff.mp (ht scope hs o ho _ hl)

def Opens (c : Catalog) (scope : Scope) (p : Pending) : Prop :=
  ∃ o ∈ c.operators scope, ∀ s ∈ p.slots, s.1 ∈ o.2.separators

theorem opens_initial {o : OperatorId × Definition} (ho : o ∈ c.operators scope) :
    c.Opens scope (.initial o.2) :=
  ⟨o, ho, fun _ hs => List.mem_cons_of_mem _ (List.fst_mem_of_mem_zipIdx hs)⟩

theorem Opens.close {p q : Pending} {text : String} {index : Nat} (h : c.Opens scope p)
    (hc : p.close text = some (index, q)) : c.Opens scope q := by
  obtain ⟨o, ho, hp⟩ := h
  exact ⟨o, ho, fun s hs => hp s (Pending.close_slots hc hs)⟩

theorem Opens.reaches {p : Pending} (h : c.Opens scope p) (hs : c.Reaches top scope) :
    c.Reaches top (c.derive p.region scope) := by
  obtain ⟨o, ho, hp⟩ := h
  rw [Pending.region]
  cases hh : p.slots.head? with
  | none => exact hs
  | some s => exact .region hs ho (hp s (List.mem_of_mem_head? hh))

theorem Opens.close_eq_none {p : Pending} {text : String} (h : c.Opens scope p)
    (hs : c.Reaches top scope) (ht : c.Ignores top text) : p.close text = none := by
  obtain ⟨o, ho, hp⟩ := h
  exact Pending.close_eq_none fun s hs' => ht scope hs o ho s.1 (hp s hs')

end Catalog

structure Body.Essence (lines : Bool) (ts : List Token) (b b' : Body) : Prop where
  children_eq : b'.children = Child.essences lines b.children
  length_eq : b'.length = (Token.essence lines (ts.take b.length)).length

namespace Body.Essence

variable {lines : Bool} {ts : List Token} {b b' : Body}

theorem empty (lines : Bool) (ts : List Token) : Essence lines ts .empty .empty := ⟨rfl, rfl⟩

theorem close (h : Essence lines ts b b') {t : Token}
    (ht : (Operand.token t).isSkipped lines = false) (index : Nat) :
    Essence lines (t :: ts) (b.close index t) (b'.close index t.unplaced) where
  children_eq := by
    rw [Body.close, h.children_eq]
    rfl
  length_eq := by
    rw [Body.close, h.length_eq, Body.close, List.take_succ_cons, Token.essence_cons, ht]
    rfl

theorem grow {o : Operand} {width width' : Nat} (h : Essence lines (ts.drop width) b b')
    (ho : o.isSkipped lines = false)
    (hw : width' = (Token.essence lines (ts.take width)).length) :
    Essence lines ts (b.grow o width) (b'.grow (o.essence lines) width') := by
  obtain ⟨cs, n⟩ := b
  obtain ⟨cs', n'⟩ := b'
  obtain ⟨rfl, rfl⟩ := h
  cases cs with
  | nil => exact empty lines ts
  | cons k cs =>
    obtain ⟨index, keyword, operands⟩ := k
    refine ⟨?_, ?_⟩
    · simp [Body.grow, Child.essences, Operand.essences_cons_kept ho]
    · simp only [Body.grow, Child.essences]
      rw [Nat.add_comm n, List.take_add, Token.essence_append, List.length_append, hw,
        Nat.add_comm]

theorem grow_skipped {t : Token} (h : Essence lines ts b b') (hb : b.Covers ts)
    (ht : (Operand.token t).isSkipped lines = true) :
    Essence lines (t :: ts) (b.grow (.token t) 1) b' := by
  obtain ⟨cs, n⟩ := b
  obtain ⟨cs', n'⟩ := b'
  obtain ⟨rfl, rfl⟩ := h
  cases cs with
  | nil =>
    obtain ⟨hl, htokens⟩ := hb
    have hn : n = 0 := by
      have hlen := congrArg List.length htokens
      simp only [Body.tokens, Child.tokensOf, List.length_nil, List.length_take] at hlen hl
      omega
    subst hn
    exact empty lines _
  | cons k cs =>
    obtain ⟨index, keyword, operands⟩ := k
    refine ⟨?_, ?_⟩
    · simp [Body.grow, Child.essences, Operand.essences_cons_skipped ht]
    · simp [Body.grow, List.take_succ_cons, Token.essence_cons, ht]

end Body.Essence

namespace Catalog

variable {c : Catalog} {top : Scope} {lines : Bool}

structure FoundEssence (lines : Bool) (ts : List Token) (x x' : Instance × Nat) : Prop where
  instance_eq : x'.1 = x.1.essence lines
  length_eq : x'.2 = (Token.essence lines (ts.take x.2)).length

def SameSeparator (e e' : Shortfall) : Prop := e.separator = e'.separator

section

variable {S T : Body → Body → Prop} {r r' : Reading}

theorem agree_close {index : Nat} {t t' : Token} (h : Agree SameSeparator S r r')
    (hST : ∀ b b', S b b' → T (b.close index t) (b'.close index t')) :
    Agree SameSeparator T (r.close index t) (r'.close index t') := by
  cases h with
  | ok h => exact .ok (hST _ _ h)
  | error h => exact .error h

theorem agree_grow {o o' : Operand} {width width' : Nat} (h : Agree SameSeparator S r r')
    (hST : ∀ b b', S b b' → T (b.grow o width) (b'.grow o' width')) :
    Agree SameSeparator T (r.grow o width) (r'.grow o' width') := by
  cases h with
  | ok h => exact .ok (hST _ _ h)
  | error h => exact .error h

theorem agree_grow_left {o : Operand} {width : Nat} (h : Agree SameSeparator S r r')
    (hST : ∀ b b', r = .ok b → S b b' → T (b.grow o width) b') :
    Agree SameSeparator T (r.grow o width) r' := by
  cases h with
  | ok h => exact .ok (hST _ _ rfl h)
  | error h => exact .error h

end

def ReadsAlike (c : Catalog) (lines : Bool) (ts : List Token) (p : Pending) (scope : Scope) :
    Prop :=
  Agree SameSeparator (Body.Essence lines ts) (c.readBody ts 0 p scope)
    (c.readBody (Token.essence lines ts) 0 p scope)

section

variable {ts : List Token} {scope : Scope} (hscope : c.Reaches top scope)
  (h : ∀ p s, c.Reaches top s → c.Opens s p → c.ReadsAlike lines ts p s)
include hscope h

theorem firstMatch_essence_of (t : Token) :
    Agree (List.Forall₂ fun x y => x.1 = y.1 ∧ SameSeparator x.2 y.2) (FoundEssence lines ts)
      (c.firstMatch t ts scope) (c.firstMatch t.unplaced (Token.essence lines ts) scope) := by
  refine agree_firstOk fun o ho => ?_
  refine (h (.initial o.2) scope hscope (opens_initial (mem_openedBy.mp ho).1)).map ?_
  rintro b b' - ⟨hc, hl⟩
  exact ⟨by simp [Instance.ofBody, Instance.essence, Child.essences, Operand.essences, hc], hl⟩

end

/-- The matcher does not see layout. -/
theorem readBody_essence {ts : List Token}
    (hts : ∀ t ∈ ts, (Operand.token t).isSkipped lines = true → c.Ignores top t.text)
    {scope : Scope} (hscope : c.Reaches top scope) {p : Pending} (hp : c.Opens scope p)
    (skip : Nat) :
    Agree SameSeparator (Body.Essence lines (ts.drop skip)) (c.readBody ts skip p scope)
      (c.readBody (Token.essence lines (ts.drop skip)) 0 p scope) := by
  -- after an operand it goes on behind the tokens that the operand takes: hence `skip`
  induction ts generalizing skip p scope with
  | nil =>
    rw [List.drop_nil]
    change Agree _ _ (c.readBody [] skip p scope) (c.readBody [] 0 p scope)
    rw [readBody, readBody]
    cases p.required with
    | none => exact .ok (.empty lines [])
    | some separator => exact .error rfl
  | cons t ts ih =>
    obtain ⟨ht, hts⟩ := List.forall_mem_cons.mp hts
    cases skip with
    | succ skip => exact ih hts hscope hp skip
    | zero =>
      rw [List.drop_zero]
      by_cases hslots : p.slots = []
      · rw [readBody_of_slots_nil hslots, readBody_of_slots_nil hslots]
        exact .ok (.empty lines _)
      · have hslots' : ¬ p.slots.isEmpty = true := fun hs => hslots (List.isEmpty_iff.mp hs)
        rw [readBody_cons, if_neg hslots', Token.essence_cons]
        cases hskip : (Operand.token t).isSkipped lines with
        | true =>
          have hignored := ht hskip
          rw [hp.close_eq_none hscope hignored, firstMatch,
            openedBy_eq_nil (hp.reaches hscope) hignored, if_pos rfl]
          refine agree_grow_left (ih hts hscope hp 0) fun b b' hb h => ?_
          have hcovers : b.Covers ts := readBody_covers hb
          exact h.grow_skipped hcovers hskip
        | false =>
          rw [if_neg Bool.false_ne_true, readBody_cons, if_neg hslots', Token.unplaced]
          cases hclose : p.close t.text with
          | some closed =>
            exact agree_close (ih hts hscope (hp.close hclose) 0) fun b b' h => h.close hskip _
          | none =>
            have halike : ∀ p s, c.Reaches top s → c.Opens s p → c.ReadsAlike lines ts p s :=
              fun p s hs hp => ih hts hs hp 0
            have hm := firstMatch_essence_of (hp.reaches hscope) halike t
            rw [Token.unplaced] at hm
            generalize c.firstMatch t ts (c.derive p.region scope) = x,
              c.firstMatch ⟨t.kind, t.text, ⟨0, 0⟩⟩ (Token.essence lines ts)
                (c.derive p.region scope) = y at hm ⊢
            cases hm with
            | error hes =>
              refine agree_grow (ih hts hscope hp 0) fun b b' h => ?_
              have hrest : Body.Essence lines ((t :: ts).drop 1) b b' := h
              refine hrest.grow hskip ?_
              rw [List.take_succ_cons, Token.essence_cons, hskip]
              rfl
            | ok hfound =>
              rename_i found found'
              obtain ⟨i, n⟩ := found
              obtain ⟨i', n'⟩ := found'
              obtain ⟨rfl, rfl⟩ := hfound
              have hsplit : Token.essence lines (ts.take n ++ ts.drop n) = _ :=
                Token.essence_append _ _
              rw [List.take_append_drop] at hsplit
              have hrest := ih hts hscope hp n
              rw [← readBody_append (Token.essence lines (ts.take n)), ← hsplit] at hrest
              refine agree_grow hrest fun b b' h => Body.Essence.grow h rfl ?_
              rw [List.take_succ_cons, Token.essence_cons, hskip]
              rfl

structure SameItems (lines : Bool) (r r' : Outcome (List Operand)) : Prop where
  value_eq : r'.value = Operand.essences lines r.value
  faults_eq : r'.errors.map ParseError.fault = r.errors.map ParseError.fault

namespace SameItems

variable {r r' : Outcome (List Operand)} {o : Operand} {errors errors' : List ParseError}

theorem emit (h : SameItems lines r r') (ho : o.isSkipped lines = false)
    (he : errors'.map ParseError.fault = errors.map ParseError.fault) :
    SameItems lines (r.emit o errors) (r'.emit (o.essence lines) errors') where
  value_eq := by
    rw [Outcome.emit, Outcome.emit, h.value_eq, Operand.essences_cons_kept ho]
  faults_eq := by
    rw [Outcome.emit, Outcome.emit, List.map_append, List.map_append, he, h.faults_eq]

theorem emit_skipped (h : SameItems lines r r') (ho : o.isSkipped lines = true) :
    SameItems lines (r.emit o []) r' where
  value_eq := by rw [Outcome.emit, h.value_eq, Operand.essences_cons_skipped ho]
  faults_eq := h.faults_eq

end SameItems

theorem faults_unfinished {es es' : List ((OperatorId × Definition) × Shortfall)}
    (h : List.Forall₂ (fun x y => x.1 = y.1 ∧ SameSeparator x.2 y.2) es es') (i i' : Nat) :
    (es'.map (.unfinished i')).map ParseError.fault =
      (es.map (.unfinished i)).map ParseError.fault := by
  induction h with
  | nil => rfl
  | cons h _ ih =>
    obtain ⟨ho, hs⟩ := h
    rw [List.map_cons, List.map_cons, List.map_cons, List.map_cons, ih, ParseError.unfinished,
      ParseError.unfinished, ho, hs]

theorem flattenItems_append (xs ys : List Token) (scope : Scope) (i : Nat) :
    c.flattenItems scope (xs ++ ys) xs.length i = c.flattenItems scope ys 0 i := by
  rw [flattenItems_drop, List.drop_left]

theorem flattenItems_essence {ts : List Token}
    (hts : ∀ t ∈ ts, (Operand.token t).isSkipped lines = true → c.Ignores top t.text)
    (skip i i' : Nat) :
    SameItems lines (c.flattenItems top ts skip i)
      (c.flattenItems top (Token.essence lines (ts.drop skip)) 0 i') := by
  induction ts generalizing skip i i' with
  | nil =>
    rw [List.drop_nil]
    exact ⟨rfl, rfl⟩
  | cons t ts ih =>
    obtain ⟨ht, hts⟩ := List.forall_mem_cons.mp hts
    cases skip with
    | succ skip => exact ih hts skip i i'
    | zero =>
      rw [flattenItems, List.drop_zero, Token.essence_cons]
      cases hskip : (Operand.token t).isSkipped lines with
      | true =>
        rw [firstMatch, openedBy_eq_nil .self (ht hskip), if_pos rfl]
        exact (ih hts 0 (i + 1) i').emit_skipped hskip
      | false =>
        have halike : ∀ p s, c.Reaches top s → c.Opens s p → c.ReadsAlike lines ts p s :=
          fun p s hs hp => readBody_essence hts hs hp 0
        have hm := firstMatch_essence_of .self halike t
        rw [if_neg Bool.false_ne_true, flattenItems]
        generalize c.firstMatch t ts top = x,
          c.firstMatch t.unplaced (Token.essence lines ts) top = y at hm ⊢
        cases hm with
        | error hes =>
          exact (ih hts 0 (i + 1) (i' + 1)).emit hskip (faults_unfinished hes i i')
        | ok hfound =>
          rename_i found found'
          obtain ⟨f, n⟩ := found
          obtain ⟨f', n'⟩ := found'
          obtain ⟨rfl, rfl⟩ := hfound
          have hsplit : Token.essence lines (ts.take n ++ ts.drop n) = _ := Token.essence_append _ _
          rw [List.take_append_drop] at hsplit
          have hrest := ih hts n (i + 1 + n) (i' + 1 + (Token.essence lines (ts.take n)).length)
          rw [← flattenItems_append (Token.essence lines (ts.take n)), ← hsplit] at hrest
          exact hrest.emit rfl rfl

theorem flatten_essence {tokens : List Token}
    (hts : ∀ t ∈ tokens, (Operand.token t).isSkipped lines = true → c.Ignores top t.text) :
    SameItems lines (c.flatten tokens 0 top) (c.flatten (Token.essence lines tokens) 0 top) := by
  rw [flatten_eq_flattenAhead, flatten_eq_flattenAhead]
  exact flattenItems_essence hts 0 0 0

end Catalog

end Distfix
