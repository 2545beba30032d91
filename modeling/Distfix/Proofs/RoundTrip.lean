import Distfix.Parse
import Distfix.Proofs.Items
import Distfix.Proofs.Relexing
import Distfix.Proofs.Structure

namespace Distfix

theorem Lexer.IsLexeme.not_isSynthetic {classes : CharClasses} {t : Token}
    (h : Lexer.IsLexeme classes t) : t.isSynthetic = false := by
  obtain ⟨c, w, rest, ht, -⟩ := h
  have hne : t.text ≠ "" := by simp [ht]
  simp [Token.isSynthetic, hne]

theorem Instance.tokens_eq (i : Instance) : i.tokens = Child.tokensOf i.children := by
  cases i
  rfl

theorem Instance.tokens_subset (i : Instance) {k : Child} (h : k ∈ i.children) :
    Operand.tokensOf k.operands ++ [k.keyword] ⊆ i.tokens := by
  obtain ⟨index, keyword, operands⟩ := k
  rw [i.tokens_eq, Child.tokensOf_eq_flatMap]
  exact fun t ht => List.mem_flatMap.mpr ⟨_, h, ht⟩

namespace Operand

theorem tokens_subset {o : Operand} {os : List Operand} (h : o ∈ os) : o.tokens ⊆ tokensOf os := by
  rw [tokensOf_eq_flatMap]
  exact fun t ht => List.mem_flatMap.mpr ⟨o, h, ht⟩

theorem not_isSynthetic_of_tokens {o : Operand} (h : ∀ t ∈ o.tokens, t.isSynthetic = false) :
    o.isSynthetic = false := by
  cases o with
  | token t => exact h t (by simp [tokens])
  | operator i => rfl

theorem visible_solid (os : List Operand) :
    Token.visible (tokensOf (solid os)) = Token.visible (tokensOf os) := by
  induction os with
  | nil => rfl
  | cons o os ih =>
    rw [solid_cons, tokensOf, Token.visible_append]
    split
    · rename_i hb
      cases o with
      | operator i => cases hb
      | token t =>
        have ht : t.isBlank = true := hb
        rw [ih, tokens, Token.visible_cons, if_pos ht]
        rfl
    · rw [tokensOf, Token.visible_append, ih]

theorem tokens_present (os : List Operand)
    (h : ∀ o ∈ present os, ∀ t ∈ o.tokens, t.isSynthetic = false) :
    (tokensOf os).filter (!·.isSynthetic) = tokensOf (present os) := by
  induction os with
  | nil => rfl
  | cons o os ih =>
    rw [tokensOf, List.filter_append]
    cases hs : o.isSynthetic with
    | true =>
      have hp : present (o :: os) = present os := by simp [present, hs]
      rw [hp] at h ⊢
      cases o with
      | operator i => cases hs
      | token t =>
        have ht : t.isSynthetic = true := hs
        rw [ih h]
        simp [tokens, ht]
    | false =>
      rw [present_cons hs] at h ⊢
      obtain ⟨ho, hos⟩ := List.forall_mem_cons.mp h
      rw [ih hos, tokensOf]
      congr 1
      exact List.filter_eq_self.mpr fun t ht => by simp [ho t ht]

end Operand

/-- The tokens of some trees in order, without the placeholders. -/
def SyntaxTree.leaves (trees : List SyntaxTree) : List Token :=
  (trees.flatMap tokens).filter (!·.isSynthetic)

theorem leaves_resolveAll {items : List Operand}
    (h : ∀ t ∈ Operand.tokensOf items, t.isSynthetic = false) :
    SyntaxTree.leaves (resolveAll items).value = Operand.tokensOf (Operand.solid items) := by
  have hs : ∀ o ∈ items, o.isSynthetic = false := fun o ho =>
    Operand.not_isSynthetic_of_tokens fun t ht => h t (Operand.tokens_subset ho ht)
  have hpresent := (resolveAll_uses hs).2
  generalize (resolveAll items).value = trees at hpresent ⊢
  have hitems : trees.flatMap SyntaxTree.tokens =
      Operand.tokensOf (trees.flatMap SyntaxTree.items) := by
    rw [Operand.tokensOf_eq_flatMap, List.flatMap_assoc]
    rfl
  rw [SyntaxTree.leaves, hitems, Operand.tokens_present, hpresent]
  intro o ho t ht
  rw [hpresent] at ho
  exact h t (Operand.tokens_subset (List.mem_filter.mp ho).1 ht)

def Sample.unclosed : List Token :=
  [⟨.symbol, "<", ⟨0, 1⟩⟩, ⟨.symbol, "[", ⟨1, 2⟩⟩, ⟨.symbol, "<", ⟨2, 3⟩⟩, ⟨.symbol, "]", ⟨3, 4⟩⟩,
    ⟨.newline, "\n", ⟨4, 5⟩⟩, ⟨.str, "\"a b\"", ⟨5, 10⟩⟩]

namespace Catalog

theorem tokensOf_flatten (c : Catalog) (tokens : List Token) (scope : Scope) :
    Operand.tokensOf (c.flatten tokens 0 scope).value = tokens := by
  rw [flatten_eq_flattenAhead]
  exact (c.flattenItems_covers scope tokens 0 0 (Nat.zero_le _)).2

/-- The expressions of a text hold its visible tokens, in order: the leaves, joined with spaces,
are read as the same tokens again. -/
theorem lex_leaves_parse {classes : CharClasses} (hs : classes.SpaceSeparates) (c : Catalog)
    (scope : Scope) {source : String} {tokens : List Token}
    (h : lexWith classes source = .ok tokens) :
    (∃ again, lexWith classes
        (" ".intercalate ((SyntaxTree.leaves (c.parse tokens scope).value).map Token.text)) =
          .ok again ∧
        Token.visible again = Token.visible tokens) ∧
      (c.parse tokens scope).next = tokens.length := by
  have hlex := Lexer.isLexeme_of_scan (lexWith_ok.mp h)
  have hflat := c.flatten_eq_flattenAhead tokens 0 scope
  obtain ⟨hnext, hitems⟩ := c.flattenItems_covers scope tokens 0 0 (Nat.zero_le _)
  have htokens : Operand.tokensOf (c.flatten tokens 0 scope).value = tokens := by
    rw [hflat]
    exact hitems
  have hreal : ∀ t ∈ Operand.tokensOf (c.flatten tokens 0 scope).value, t.isSynthetic = false := by
    rw [htokens]
    exact fun t ht => (hlex t ht).not_isSynthetic
  have hleaves : SyntaxTree.leaves (c.parse tokens scope).value =
      Operand.tokensOf (Operand.solid (c.flatten tokens 0 scope).value) := leaves_resolveAll hreal
  refine ⟨?_, ?_⟩
  · rw [hleaves]
    have hsub : ∀ t ∈ Operand.tokensOf (Operand.solid (c.flatten tokens 0 scope).value),
        Lexer.IsLexeme classes t := by
      intro t ht
      rw [Operand.tokensOf_eq_flatMap] at ht
      obtain ⟨o, ho, ht⟩ := List.mem_flatMap.mp ht
      exact hlex t (htokens ▸ Operand.tokens_subset (List.mem_filter.mp ho).1 ht)
    obtain ⟨again, hscan, hv⟩ := Lexer.shows_join hs hsub 0
    refine ⟨again, lexWith_ok.mpr hscan, ?_⟩
    rw [hv, Operand.visible_solid, htokens]
  · change (c.flatten tokens 0 scope).next = _
    rw [hflat, flattenAhead, List.drop_zero, hnext]
    simp

theorem lex_leaves_parse_unclosed :
    CharClasses.unicode.SpaceSeparates ∧ lex "<[<]\n\"a b\"" = .ok Sample.unclosed ∧
      (∃ again, lex (" ".intercalate ((SyntaxTree.leaves
          (Sample.catalog.parse Sample.unclosed Sample.scope).value).map Token.text)) = .ok again ∧
        Token.visible again = Token.visible Sample.unclosed) ∧
      (Sample.catalog.parse Sample.unclosed Sample.scope).next = 6 := by
  have h : lex "<[<]\n\"a b\"" = .ok Sample.unclosed := rfl
  have hs := CharClasses.unicode_spaceSeparates
  exact ⟨hs, h, lex_leaves_parse hs Sample.catalog Sample.scope h⟩

end Catalog

end Distfix
