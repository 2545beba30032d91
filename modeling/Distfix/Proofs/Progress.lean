import Distfix.Proofs.Openness

namespace Distfix

namespace Child

theorem countIn_append (index : Nat) (cs ds : List Child) :
    countIn index (cs ++ ds) = countIn index cs + countIn index ds :=
  List.countP_append

theorem countIn_singleton (index : Nat) (k : Child) :
    countIn index [k] = if k.index = index then 1 else 0 := by
  simp [countIn, List.countP_cons]

theorem countIn_eq_zero {index : Nat} {cs : List Child} (h : ∀ k ∈ cs, k.index ≠ index) :
    countIn index cs = 0 := by
  simpa [countIn, List.countP_eq_zero] using h

end Child

theorem Repeats.not_exhaustedBy_zero (r : Repeats) : r.exhaustedBy 0 = false := by
  obtain ⟨min, max, hp, ho⟩ := r
  cases max with
  | unbounded => rfl
  | finite n =>
    have hn : n ≠ 0 := fun h => hp (h ▸ rfl)
    simp only [exhaustedBy, Bound.admits, Bool.not_eq_false', decide_eq_true_eq]
    omega

theorem Repeats.min_le_of_exhaustedBy {r : Repeats} {n : Nat} (h : r.exhaustedBy n = true) :
    r.min ≤ n := by
  refine Nat.not_lt.mp fun hlt => ?_
  have ha := Bound.admits_of_le r.ordered (m := n + 1) hlt
  simp [exhaustedBy, ha] at h

namespace Definition

variable (d : Definition)

/-- The first separator that is open after some children: that of the last one, unless no
repetition of it is left. -/
def opened (cs : List Child) : Nat :=
  match cs.getLast? with
  | none => 0
  | some last =>
    match d.separators[last.index]? with
    | some s =>
      if s.repeats.exhaustedBy (Child.countIn last.index cs) then last.index + 1 else last.index
    | none => last.index + 1

def pendingAfter (cs : List Child) : Pending :=
  ⟨(d.separators.drop (d.opened cs)).zipIdx (d.opened cs), Child.countIn (d.opened cs) cs⟩

/-- What holds of the children of an operator at any time while they are read. -/
structure Begun (cs : List Child) : Prop where
  ordered : cs.Pairwise fun k l => k.index ≤ l.index
  accepted : ∀ k ∈ cs, ∃ s, d.separators[k.index]? = some s ∧ s.accepts k.keyword.text = true
  bounded : ∀ j (s : Separator), d.separators[j]? = some s →
    s.repeats.max.admits (Child.countIn j cs) = true
  passed : ∀ j (s : Separator), j < d.opened cs → d.separators[j]? = some s →
    s.repeats.min ≤ Child.countIn j cs

variable {d} {cs : List Child} {k : Child} {s : Separator}

theorem opened_append (cs : List Child) (hs : d.separators[k.index]? = some s) :
    d.opened (cs ++ [k]) =
      if s.repeats.exhaustedBy (Child.countIn k.index cs + 1) then k.index + 1 else k.index := by
  simp [opened, hs, Child.countIn_append, Child.countIn_singleton]

theorem Begun.last (h : d.Begun cs) (hne : cs ≠ []) :
    ∃ last s, (∀ k ∈ cs, k.index ≤ last) ∧ d.separators[last]? = some s ∧
      d.opened cs = if s.repeats.exhaustedBy (Child.countIn last cs) then last + 1 else last := by
  obtain ⟨ds, k, rfl⟩ := (List.eq_nil_or_concat cs).resolve_left hne
  rw [List.concat_eq_append] at *
  obtain ⟨s, hs, -⟩ := h.accepted k (by simp)
  refine ⟨k.index, s, fun l hl => ?_, hs, by simp [opened, hs]⟩
  obtain hl | hl := List.mem_append.mp hl
  · exact (List.pairwise_append.mp h.ordered).2.2 l hl k (by simp)
  · exact Nat.le_of_eq (congrArg Child.index (List.mem_singleton.mp hl))

theorem Begun.index_le_opened (h : d.Begun cs) (hk : k ∈ cs) : k.index ≤ d.opened cs := by
  obtain ⟨last, s, hmax, -, ho⟩ := h.last (List.ne_nil_of_mem hk)
  have hl := hmax k hk
  rw [ho]
  split <;> omega

theorem Begun.countIn_of_opened_lt (h : d.Begun cs) {j : Nat} (hj : d.opened cs < j) :
    Child.countIn j cs = 0 :=
  Child.countIn_eq_zero fun _ hk => Nat.ne_of_lt (Nat.lt_of_le_of_lt (h.index_le_opened hk) hj)

theorem Begun.not_exhausted (h : d.Begun cs) {j : Nat} (hj : d.opened cs ≤ j)
    (hs : d.separators[j]? = some s) : s.repeats.exhaustedBy (Child.countIn j cs) = false := by
  by_cases hc : Child.countIn j cs = 0
  · rw [hc, Repeats.not_exhaustedBy_zero]
  · have hne : cs ≠ [] := fun hnil => hc (hnil ▸ rfl)
    obtain ⟨last, s', hmax, hs', ho⟩ := h.last hne
    have hjl : j ≤ last := by
      refine Nat.not_lt.mp fun hlt => hc (Child.countIn_eq_zero fun k hk => ?_)
      exact Nat.ne_of_lt (Nat.lt_of_le_of_lt (hmax k hk) hlt)
    rw [ho] at hj
    split at hj
    · omega
    · rename_i he
      obtain rfl : j = last := Nat.le_antisymm hjl hj
      obtain rfl := Option.some.inj (hs.symm.trans hs')
      simpa using he

/-- One more child keeps the invariant, if it is of a separator that may close now. -/
theorem Begun.append (h : d.Begun cs)
    (hk : Closes d.separators (Child.countIn · cs) (d.opened cs) k.keyword.text k.index) :
    d.Begun (cs ++ [k]) := by
  obtain ⟨⟨hle, hmin⟩, ⟨s, hs, ha⟩, -⟩ := hk
  refine ⟨?_, ?_, ?_, ?_⟩
  · refine List.pairwise_append.mpr ⟨h.ordered, List.pairwise_singleton _ _, fun l hl k' hk' => ?_⟩
    rw [List.mem_singleton.mp hk']
    exact Nat.le_trans (h.index_le_opened hl) hle
  · intro l hl
    obtain hl | hl := List.mem_append.mp hl
    · exact h.accepted l hl
    · rw [List.mem_singleton.mp hl]
      exact ⟨s, hs, ha⟩
  · intro j s' hs'
    rw [Child.countIn_append, Child.countIn_singleton]
    split
    · rename_i hkj
      subst hkj
      obtain rfl := Option.some.inj (hs.symm.trans hs')
      simpa [Repeats.exhaustedBy] using h.not_exhausted hle hs
    · exact h.bounded j s' hs'
  · intro j s' hj hs'
    rw [Child.countIn_append, Child.countIn_singleton]
    rw [opened_append cs hs] at hj
    by_cases hjk : j < k.index
    · have hold : s'.repeats.min ≤ Child.countIn j cs := by
        by_cases hjo : j < d.opened cs
        · exact h.passed j s' hjo hs'
        · exact hmin j s' (Nat.not_lt.mp hjo) hjk hs'
      omega
    · split at hj
      · rename_i he
        obtain rfl : j = k.index := by omega
        obtain rfl := Option.some.inj (hs.symm.trans hs')
        rw [if_pos rfl]
        exact Repeats.min_le_of_exhaustedBy he
      · omega

theorem Begun.pendingAfter_append (h : d.Begun cs)
    (hk : Closes d.separators (Child.countIn · cs) (d.opened cs) k.keyword.text k.index)
    (hs : d.separators[k.index]? = some s) :
    d.pendingAfter (cs ++ [k]) = Pending.advance s k.index (Child.countIn k.index cs)
      ((d.separators.drop (k.index + 1)).zipIdx (k.index + 1)) := by
  have ho := opened_append cs hs
  unfold pendingAfter Pending.advance
  split
  · rename_i he
    rw [if_pos he] at ho
    have hz := h.countIn_of_opened_lt (Nat.lt_succ_of_le hk.legal.1)
    have hne : k.index ≠ k.index + 1 := Nat.ne_of_lt (Nat.lt_succ_self _)
    rw [ho, Child.countIn_append, Child.countIn_singleton, hz, if_neg hne]
  · rename_i he
    rw [if_neg he] at ho
    obtain ⟨hlt, rfl⟩ := List.getElem?_eq_some_iff.mp hs
    rw [ho, Child.countIn_append, Child.countIn_singleton, if_pos rfl,
      List.drop_eq_getElem_cons hlt]
    rfl

theorem Begun.close_some (h : d.Begun cs) {text : String} {index : Nat} {q : Pending}
    (hc : (d.pendingAfter cs).close text = some (index, q)) :
    Closes d.separators (Child.countIn · cs) (d.opened cs) text index ∧
      ∀ operands (keyword : Token), keyword.text = text →
        q = d.pendingAfter (cs ++ [⟨index, keyword, operands⟩]) := by
  obtain ⟨hk, hq⟩ := closeIn_some (Child.countIn · cs) (fun _ => h.countIn_of_opened_lt) hc
  refine ⟨hk, fun operands keyword ht => ?_⟩
  obtain ⟨s, hs, -⟩ := hk.accepts
  subst ht
  exact (hq s hs).trans (h.pendingAfter_append (k := ⟨index, keyword, operands⟩) hk hs).symm

theorem Begun.close_none (h : d.Begun cs) {text : String}
    (hc : (d.pendingAfter cs).close text = none) :
    ClosesNothing d.separators (Child.countIn · cs) (d.opened cs) text :=
  closeIn_none (Child.countIn · cs) (fun _ => h.countIn_of_opened_lt) hc

theorem Begun.complete (h : d.Begun cs) (hr : (d.pendingAfter cs).required = none) (j : Nat)
    (hs : d.separators[j]? = some s) : s.repeats.contains (Child.countIn j cs) = true := by
  rw [Repeats.contains_iff]
  refine ⟨?_, h.bounded j s hs⟩
  by_cases hj : j < d.opened cs
  · exact h.passed j s hj hs
  · exact requiredIn_none (Child.countIn · cs) (fun _ => h.countIn_of_opened_lt) hr j s
      (Nat.not_lt.mp hj) hs

variable (d)

theorem opened_leading (t : Token) : d.opened [⟨0, t, []⟩] = 1 := by
  simp [opened, separators, Child.countIn_singleton, Repeats.exhaustedBy, Repeats.once,
    Bound.admits]

theorem pendingAfter_leading (t : Token) : d.pendingAfter [⟨0, t, []⟩] = .initial d := by
  rw [pendingAfter, opened_leading, Child.countIn_singleton]
  rfl

variable {d}

theorem begun_leading {t : Token} (ht : d.leading.accepts t.text = true) :
    d.Begun [⟨0, t, []⟩] := by
  refine ⟨List.pairwise_singleton _ _, fun k hk => ?_, fun j s hs => ?_, fun j s hj hs => ?_⟩
  · rw [List.mem_singleton.mp hk]
    exact ⟨⟨d.leading, .once, none⟩, rfl, ht⟩
  · rw [Child.countIn_singleton]
    split
    · simpa [Repeats.exhaustedBy] using s.repeats.not_exhaustedBy_zero
    · exact Bound.admits_of_le s.repeats.ordered (Nat.zero_le _)
  · rw [opened_leading] at hj
    obtain rfl : j = 0 := Nat.lt_one_iff.mp hj
    obtain rfl := Option.some.inj hs
    exact Nat.le_refl 1

end Definition

end Distfix
