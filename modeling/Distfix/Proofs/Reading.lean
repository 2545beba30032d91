import Distfix.Proofs.Ahead
import Mathlib.Data.List.Forall2

namespace Distfix

section

variable {α ε β : Type} {f : α → Except ε β} {as : List α}

theorem firstOk_ok {b : β} (h : firstOk f as = .ok b) :
    ∃ before a after, as = before ++ a :: after ∧ f a = .ok b ∧
      ∀ a' ∈ before, ∃ e, f a' = .error e := by
  induction as with
  | nil => cases h
  | cons a as ih =>
    rw [firstOk] at h
    cases ha : f a with
    | ok b' =>
      rw [ha] at h
      obtain rfl := Except.ok.inj h
      exact ⟨[], a, as, rfl, ha, by simp⟩
    | error e =>
      rw [ha] at h
      cases hr : firstOk f as with
      | error es => simp [hr] at h
      | ok b' =>
        obtain ⟨before, a', after, rfl, ha', hb⟩ := ih (by simpa [hr] using h)
        refine ⟨a :: before, a', after, rfl, ha', fun x hx => ?_⟩
        obtain rfl | hx := List.mem_cons.mp hx
        · exact ⟨e, ha⟩
        · exact hb x hx

theorem firstOk_error_forall₂ {es : List (α × ε)} (h : firstOk f as = .error es) :
    List.Forall₂ (fun a x => x.1 = a ∧ f a = .error x.2) as es := by
  induction as generalizing es with
  | nil =>
    obtain rfl := Except.error.inj h
    exact .nil
  | cons a as ih =>
    rw [firstOk] at h
    cases ha : f a with
    | ok b => simp [ha] at h
    | error e =>
      cases hr : firstOk f as with
      | ok b => simp [ha, hr] at h
      | error es' =>
        simp only [ha, hr, Except.error.injEq] at h
        subst h
        exact .cons ⟨rfl, ha⟩ (ih hr)

theorem exists_of_forall₂ {R : α → β → Prop} {bs : List β} {b : β} (h : List.Forall₂ R as bs)
    (hb : b ∈ bs) : ∃ a, R a b := by
  induction h with
  | nil => cases hb
  | cons hR _ ih =>
    obtain rfl | hb := List.mem_cons.mp hb
    · exact ⟨_, hR⟩
    · exact ih hb

theorem firstOk_error {es : List (α × ε)} (h : firstOk f as = .error es) :
    ∀ a ∈ as, ∃ e, f a = .error e := by
  intro a ha
  obtain ⟨x, -, hx⟩ := exists_of_forall₂ (firstOk_error_forall₂ h).flip ha
  exact ⟨x.2, hx⟩

end

def Shortfall.after (e : Shortfall) (n : Nat) : Shortfall := ⟨e.separator, e.length + n⟩

namespace Pending

variable {p q : Pending} {text : String} {index : Nat}

theorem closeIn_slots {slots : List (Separator × Nat)} {count : Nat}
    (h : closeIn text slots count = some (index, q)) : q.slots ⊆ slots := by
  induction slots generalizing count with
  | nil => cases h
  | cons s slots ih =>
    rw [closeIn] at h
    split at h
    · obtain ⟨-, rfl⟩ := Prod.mk.inj (Option.some.inj h)
      rw [advance]
      split
      · exact List.subset_cons_self _ _
      · exact List.Subset.refl _
    · split at h
      · cases h
      · exact List.Subset.trans (ih h) (List.subset_cons_self _ _)

theorem close_slots (h : p.close text = some (index, q)) : q.slots ⊆ p.slots := closeIn_slots h

theorem close_eq_none (h : ∀ s ∈ p.slots, s.1.accepts text = false) : p.close text = none := by
  unfold close
  generalize p.slots = slots at h
  generalize p.count = count
  induction slots generalizing count with
  | nil => rfl
  | cons s slots ih =>
    obtain ⟨hs, hslots⟩ := List.forall_mem_cons.mp h
    rw [closeIn, hs, if_neg Bool.false_ne_true]
    split
    · rfl
    · exact ih hslots 0

end Pending

namespace Reading

theorem close_eq_ok {r : Reading} {index : Nat} {keyword : Token} {b : Body}
    (h : r.close index keyword = .ok b) : ∃ b', r = .ok b' ∧ b = b'.close index keyword := by
  cases r with
  | ok b' => exact ⟨b', rfl, (Except.ok.inj h).symm⟩
  | error e => cases h

theorem grow_eq_ok {r : Reading} {operand : Operand} {width : Nat} {b : Body}
    (h : r.grow operand width = .ok b) : ∃ b', r = .ok b' ∧ b = b'.grow operand width := by
  cases r with
  | ok b' => exact ⟨b', rfl, (Except.ok.inj h).symm⟩
  | error e => cases h

theorem close_eq_error {r : Reading} {index : Nat} {keyword : Token} {e : Shortfall}
    (h : r.close index keyword = .error e) : ∃ e', r = .error e' ∧ e = e'.after 1 := by
  cases r with
  | ok b => cases h
  | error e' => exact ⟨e', rfl, (Except.error.inj h).symm⟩

theorem grow_eq_error {r : Reading} {operand : Operand} {width : Nat} {e : Shortfall}
    (h : r.grow operand width = .error e) : ∃ e', r = .error e' ∧ e = e'.after width := by
  cases r with
  | ok b => cases h
  | error e' => exact ⟨e', rfl, (Except.error.inj h).symm⟩

end Reading

namespace Catalog

variable {c : Catalog} {scope : Scope} {p : Pending} {t : Token} {ts : List Token} {b : Body}

theorem attempt_ok {o : OperatorId × Definition} {i : Instance} {n : Nat}
    (h : c.attempt t ts scope o = .ok (i, n)) :
    ∃ b, c.readBody ts 0 (.initial o.2) scope = .ok b ∧ i = .ofBody o t b ∧ n = b.length := by
  unfold attempt at h
  cases hb : c.readBody ts 0 (.initial o.2) scope with
  | error e => rw [hb] at h; cases h
  | ok b =>
    rw [hb] at h
    obtain ⟨rfl, rfl⟩ := Prod.mk.inj (Except.ok.inj h)
    exact ⟨b, rfl, rfl, rfl⟩

theorem mem_openedBy {o : OperatorId × Definition} :
    o ∈ c.openedBy scope t ↔ o ∈ c.operators scope ∧ o.2.leading.accepts t.text = true :=
  List.mem_filter

theorem firstMatch_ok {i : Instance} {n : Nat} (h : c.firstMatch t ts scope = .ok (i, n)) :
    ∃ o ∈ c.openedBy scope t, c.attempt t ts scope o = .ok (i, n) := by
  obtain ⟨before, o, after, hs, ho, -⟩ := firstOk_ok h
  exact ⟨o, by simp [hs], ho⟩

theorem readBody_cons_ok (h : c.readBody (t :: ts) 0 p scope = .ok b) :
    (p.slots = [] ∧ b = .empty) ∨
      (∃ index q b', p.close t.text = some (index, q) ∧ c.readBody ts 0 q scope = .ok b' ∧
        b = b'.close index t) ∨
      (∃ i n b', p.close t.text = none ∧ c.firstMatch t ts (c.derive p.region scope) = .ok (i, n) ∧
        c.readBody ts n p scope = .ok b' ∧ b = b'.grow (.operator i) (n + 1)) ∨
      ∃ es b', p.close t.text = none ∧ c.firstMatch t ts (c.derive p.region scope) = .error es ∧
        c.readBody ts 0 p scope = .ok b' ∧ b = b'.grow (.token t) 1 := by
  rw [readBody_cons] at h
  split at h
  · rename_i hs
    exact .inl ⟨List.isEmpty_iff.mp hs, (Except.ok.inj h).symm⟩
  · cases hc : p.close t.text with
    | some closed =>
      rw [hc] at h
      obtain ⟨b', hb, rfl⟩ := Reading.close_eq_ok h
      exact .inr (.inl ⟨closed.1, closed.2, b', rfl, hb, rfl⟩)
    | none =>
      rw [hc] at h
      cases hm : c.firstMatch t ts (c.derive p.region scope) with
      | ok found =>
        obtain ⟨b', hb, rfl⟩ := Reading.grow_eq_ok (by simpa only [hm] using h)
        exact .inr (.inr (.inl ⟨found.1, found.2, b', rfl, rfl, hb, rfl⟩))
      | error es =>
        obtain ⟨b', hb, rfl⟩ := Reading.grow_eq_ok (by simpa only [hm] using h)
        exact .inr (.inr (.inr ⟨es, b', rfl, rfl, hb, rfl⟩))

theorem readBody_nil_ok {skip : Nat} (h : c.readBody [] skip p scope = .ok b) :
    p.required = none ∧ b = .empty := by
  rw [readBody] at h
  cases hr : p.required with
  | some separator => rw [hr] at h; cases h
  | none =>
    rw [hr] at h
    exact ⟨rfl, (Except.ok.inj h).symm⟩

theorem readBody_drop (ts : List Token) (skip : Nat) (p : Pending) (scope : Scope) :
    c.readBody ts skip p scope = c.readBody (ts.drop skip) 0 p scope := by
  induction ts generalizing skip with
  | nil => rw [List.drop_nil, readBody, readBody]
  | cons t ts ih =>
    cases skip with
    | zero => rfl
    | succ skip => exact ih skip

theorem readBody_append (xs ys : List Token) (p : Pending) (scope : Scope) :
    c.readBody (xs ++ ys) xs.length p scope = c.readBody ys 0 p scope := by
  rw [readBody_drop, List.drop_left]

theorem readBody_of_slots_nil {p : Pending} (h : p.slots = []) (ts : List Token) :
    c.readBody ts 0 p scope = .ok .empty := by
  cases ts with
  | nil => rw [readBody, Pending.required, h, Pending.requiredIn]
  | cons t ts => rw [readBody_cons, h, List.isEmpty_nil, if_pos rfl]

theorem firstMatch_of_rest_nil {t : Token} {o : OperatorId × Definition}
    {os : List (OperatorId × Definition)} (ho : c.openedBy scope t = o :: os)
    (hr : o.2.rest = []) (ts : List Token) :
    c.firstMatch t ts scope = .ok (.ofBody o t .empty, 0) := by
  have hslots : (Pending.initial o.2).slots = [] := by
    rw [Pending.initial, hr]
    rfl
  rw [firstMatch, ho, firstOk, attempt, readBody_of_slots_nil hslots]
  rfl

end Catalog

end Distfix
