import Distfix.Proofs.Greedy

namespace Distfix

theorem Child.getLast?_tokensOf (cs : List Child) :
    (Child.tokensOf cs).getLast? = cs.getLast?.map Child.keyword := by
  obtain rfl | ⟨before, k, rfl⟩ := List.eq_nil_or_concat cs
  · rfl
  · obtain ⟨index, keyword, operands⟩ := k
    simp [Child.tokensOf_eq_flatMap, Child.tokens]

theorem getLast?_slice {α : Type} {l : List α} {start stop : Nat} (hs : start < stop)
    (hl : stop ≤ l.length) : ((l.take stop).drop start).getLast? = l[stop - 1]? := by
  have hcount : start + (((l.take stop).drop start).length - 1) = stop - 1 := by
    rw [List.length_drop, List.length_take]
    omega
  rw [List.getLast?_eq_getElem?, List.getElem?_drop, hcount, List.getElem?_take_of_lt (by omega)]

/-- The operator is read off the tokens from `start` on and before `stop`, of which the last one
is its last keyword. -/
structure Instance.Covers (i : Instance) (tokens : List Token) (start stop : Nat) : Prop where
  start_lt : start < stop
  stop_le : stop ≤ tokens.length
  tokens_eq : i.tokens = (tokens.take stop).drop start
  last : ∃ k, i.children.getLast? = some k ∧ tokens[stop - 1]? = some k.keyword
  span_eq : ∃ first last, tokens[start]? = some first ∧ tokens[stop - 1]? = some last ∧
    i.span = ⟨first.span.start, last.span.stop⟩

theorem Instance.Covers.stop_eq {i : Instance} {tokens : List Token} {start stop : Nat}
    (h : i.Covers tokens start stop) : stop = start + i.tokens.length := by
  have hlt := h.start_lt
  have hle := h.stop_le
  rw [h.tokens_eq, List.length_drop, List.length_take]
  omega

namespace Catalog

variable {c : Catalog} {tokens : List Token}

theorem covers_of_matchOperator {index next : Nat} {o : OperatorId × Definition} {scope : Scope}
    {found : Instance} (h : c.matchOperator tokens index o scope = .ok (next, found)) :
    found.Covers tokens index next := by
  obtain ⟨t, ts, n, hd, -, ha, rfl⟩ := c.matchOperator_ok tokens index h
  obtain ⟨hn, ht⟩ := attempt_spans ha
  obtain ⟨cs, rfl, -⟩ := attempt_reads ha
  have hlen := congrArg List.length hd
  rw [List.length_drop, List.length_cons] at hlen
  have htokens : Child.tokensOf (⟨0, t, []⟩ :: cs) = (tokens.take (index + 1 + n)).drop index := by
    have hcount : index + 1 + n - index = n + 1 := by omega
    rw [List.drop_take, hd, hcount]
    exact ht
  obtain ⟨k, hk⟩ : ∃ k, (⟨0, t, []⟩ :: cs : List Child).getLast? = some k :=
    ⟨_, List.getLast?_eq_some_getLast (List.cons_ne_nil _ _)⟩
  have hlast : tokens[index + 1 + n - 1]? = some k.keyword := by
    have hg := Child.getLast?_tokensOf (⟨0, t, []⟩ :: cs)
    rwa [htokens, hk, getLast?_slice (by omega) (by omega)] at hg
  exact
    { start_lt := by omega
      stop_le := by omega
      tokens_eq := htokens
      last := ⟨k, hk, hlast⟩
      span_eq := ⟨t, k.keyword, (drop_eq_cons hd).1, hlast, by simp [Instance.span, hk]⟩ }

/-- What is read covers the text: a match the tokens up to the position that it answers with, each
operator inside it those from the position where it begins, and flattening all that are left. -/
theorem reading_covers_tokens (c : Catalog) (tokens : List Token) (index : Nat) (scope : Scope) :
    (∀ o next found, c.matchOperator tokens index o scope = .ok (next, found) →
      found.Covers tokens index next ∧
        ∀ s : Site, s.Within c ⟨found, index, scope⟩ →
          s.found.Covers tokens s.start (s.start + s.found.tokens.length)) ∧
      Operand.tokensOf (c.flatten tokens index scope).value = tokens.drop index ∧
      (c.flatten tokens index scope).next = max index tokens.length := by
  refine ⟨fun o next found h => ⟨covers_of_matchOperator h, fun s hs => ?_⟩, ?_⟩
  · obtain ⟨t, ts, cs, -, -, rfl, -⟩ := matchOperator_reads h
    have hm : c.Matched tokens ⟨⟨o.1, o.2, t, ⟨0, t, []⟩ :: cs⟩, index, scope⟩ := ⟨next, h⟩
    obtain ⟨stop, hstop⟩ := hm.within hs
    have hcovers := covers_of_matchOperator hstop
    exact hcovers.stop_eq ▸ hcovers
  · obtain ⟨hnext, htokens⟩ :=
      c.flattenItems_covers scope (tokens.drop index) 0 index (Nat.zero_le _)
    rw [c.flatten_eq_flattenAhead tokens index scope]
    refine ⟨htokens, hnext.trans ?_⟩
    rw [List.length_drop]
    omega

theorem quoted_covers :
    Sample.catalog.matchOperator Sample.tokens 0 ("group", Sample.group) Sample.scope =
        .ok (7, Sample.found) ∧
      Sample.found.Covers Sample.tokens 0 7 ∧ Sample.quoted.Covers Sample.tokens 1 4 := by
  have hw : Site.Within Sample.catalog ⟨Sample.quoted, 1, Sample.scope⟩
      ⟨Sample.found, 0, Sample.scope⟩ := .nested (n := 1) (k := 0) rfl rfl .self
  obtain ⟨hfound, hnested⟩ :=
    (reading_covers_tokens Sample.catalog Sample.tokens 0 Sample.scope).1 _ _ _
      Sample.matchOperator_tokens
  exact ⟨Sample.matchOperator_tokens, hfound, hnested _ hw⟩

end Catalog

end Distfix
