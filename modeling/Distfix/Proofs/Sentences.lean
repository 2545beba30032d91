import Distfix.Proofs.Calculation

namespace Distfix.Calculator

open Catalog

/-- The visible tokens of a text are a sum, which has the value. -/
def Expression.Sentence (ts : List Token) (n : Nat) : Prop :=
  ∃ e : Expression, Token.visible ts = e.lexemes.map Lexeme.shown ∧ e.value = n

def Term.Sentence (ts : List Token) (n : Nat) : Prop :=
  ∃ t : Term, Token.visible ts = t.lexemes.map Lexeme.shown ∧ t.value = n

def Factor.Sentence (ts : List Token) (n : Nat) : Prop :=
  ∃ f : Factor, Token.visible ts = f.lexemes.map Lexeme.shown ∧ f.value = n

section

variable {xs ys : List Token} {t t' : List Token} {m n : Nat}

theorem Factor.Sentence.term (h : Factor.Sentence xs n) : Term.Sentence xs n := by
  obtain ⟨f, hv, rfl⟩ := h
  exact ⟨.factor f, hv, rfl⟩

theorem Term.Sentence.expression (h : Term.Sentence xs n) : Expression.Sentence xs n := by
  obtain ⟨t, hv, rfl⟩ := h
  exact ⟨.term t, hv, rfl⟩

theorem Term.Sentence.times (h : Term.Sentence xs m) (h' : Factor.Sentence ys n)
    (ht : Token.visible t = [Lexeme.times.shown]) : Term.Sentence (xs ++ (t ++ ys)) (m * n) := by
  obtain ⟨t, hv, rfl⟩ := h
  obtain ⟨f, hv', rfl⟩ := h'
  refine ⟨.times t f, ?_, rfl⟩
  rw [Token.visible_append, Token.visible_append, hv, ht, hv', Term.lexemes, List.map_append]
  rfl

theorem Expression.Sentence.plus (h : Expression.Sentence xs m) (h' : Term.Sentence ys n)
    (ht : Token.visible t = [Lexeme.plus.shown]) :
    Expression.Sentence (xs ++ (t ++ ys)) (m + n) := by
  obtain ⟨e, hv, rfl⟩ := h
  obtain ⟨t, hv', rfl⟩ := h'
  refine ⟨.plus e t, ?_, rfl⟩
  rw [Token.visible_append, Token.visible_append, hv, ht, hv', Expression.lexemes, List.map_append]
  rfl

theorem Expression.Sentence.group (h : Expression.Sentence xs n)
    (ht : Token.visible t = [Lexeme.opening.shown])
    (ht' : Token.visible t' = [Lexeme.closing.shown]) :
    Factor.Sentence (t ++ (xs ++ t')) n := by
  obtain ⟨e, hv, rfl⟩ := h
  refine ⟨.group e, ?_, rfl⟩
  rw [Token.visible_append, Token.visible_append, hv, ht, ht', Factor.lexemes, List.map_cons,
    List.map_append]
  rfl

end

theorem Expression.value_unique {e e' : Expression}
    (h : e.lexemes.map Lexeme.shown = e'.lexemes.map Lexeme.shown) : e.value = e'.value := by
  have hsolid : ∀ t ∈ e.tokens, t.isBlank = false := by
    intro t ht
    obtain ⟨x, -, rfl⟩ := List.mem_map.mp ht
    cases x <;> rfl
  have hv : Token.visible e.tokens = e.lexemes.map Lexeme.shown := by
    rw [Token.visible, List.filter_eq_self.mpr fun t ht => by simp [hsolid t ht], tokens,
      List.map_map]
    rfl
  have hb : ∀ t ∈ e.tokens, t.isBlank = true → catalog.Ignores scope t.text := fun t ht hb =>
    absurd ((hsolid t ht).symm.trans hb) Bool.false_ne_true
  -- both are what the tokens of `e` are read as
  obtain ⟨tree, next, hp, hvalue⟩ := e.parse_eq parsesNumerals_parseDecimal hv hb
  obtain ⟨tree', next', hp', hvalue'⟩ := e'.parse_eq parsesNumerals_parseDecimal (hv.trans h) hb
  have htrees : [tree] = [tree'] := congrArg Outcome.value (hp.symm.trans hp')
  obtain rfl := List.singleton_inj.mp htrees
  exact Option.some.inj (hvalue.symm.trans hvalue')

theorem treeValue_between {leaf : Operand → Option Nat} {o : Operand} {lhs rhs : SyntaxTree}
    {n : Nat} (h : treeValue leaf (.between o lhs rhs) = some n) :
    ∃ i l r, o = .operator i ∧ treeValue leaf lhs = some l ∧ treeValue leaf rhs = some r ∧
      (i.op = "plus" ∧ n = l + r ∨ i.op = "times" ∧ n = l * r) := by
  cases o with
  | token t => cases h
  | operator i =>
    rw [treeValue] at h
    split at h
    · rename_i hop
      obtain ⟨l, hl, h⟩ := Option.bind_eq_some_iff.mp h
      obtain ⟨r, hr, h⟩ := Option.bind_eq_some_iff.mp h
      exact ⟨i, l, r, rfl, hl, hr, .inl ⟨hop, (Option.some.inj h).symm⟩⟩
    · split at h
      · rename_i hop
        obtain ⟨l, hl, h⟩ := Option.bind_eq_some_iff.mp h
        obtain ⟨r, hr, h⟩ := Option.bind_eq_some_iff.mp h
        exact ⟨i, l, r, rfl, hl, hr, .inr ⟨hop, (Option.some.inj h).symm⟩⟩
      · cases h

variable {classes : CharClasses}

namespace Lexeme

theorem kind_of_text (hc : classes.SplitsArithmetic) {x : Lexeme} (hx : x.kind = .symbol)
    {t : Token}
    (h : Lexer.IsLexeme classes t) (ht : t.text = String.ofList x.chars) :
    (t.kind, t.text) = x.shown := by
  obtain ⟨c, w, rest, htext, hm⟩ := h
  have hchars : c :: w = x.chars := String.ofList_injective (htext.symm.trans ht)
  have hclass : Lexer.classOf classes c = .operator ∨ Lexer.classOf classes c = .delimiter := by
    cases x with
    | number n => cases hx
    | plus | times =>
      obtain ⟨rfl, rfl⟩ := List.cons.inj hchars
      exact .inl (Lexer.classOf_sign hc (by decide))
    | opening | closing =>
      obtain ⟨rfl, rfl⟩ := List.cons.inj hchars
      exact .inr (Lexer.classOf_parenthesis hc (by decide))
  have hkind : t.kind = .symbol := by
    rw [Lexer.munch] at hm
    obtain hop | hdelim := hclass
    · rw [hop] at hm
      exact (Prod.mk.inj (Except.ok.inj hm)).1.symm
    · rw [hdelim] at hm
      exact (Prod.mk.inj (Except.ok.inj hm)).1.symm
  rw [hkind, ht, shown, hx]

theorem numeral_of_kind {t : Token} (h : Lexer.IsLexeme classes t) (hk : t.kind = .number) :
    ∃ n : Numeral, t.text = String.ofList n.chars := by
  obtain ⟨c, w, rest, htext, hm⟩ := h
  rw [hk] at hm
  obtain ⟨hc, hw⟩ := Lexer.munch_number hm
  exact ⟨⟨c :: w, List.cons_ne_nil _ _, List.forall_mem_cons.mpr ⟨hc, hw⟩⟩, htext⟩

end Lexeme

structure IsRead (classes : CharClasses) (o : Operand) : Prop where
  found : ∀ i, o = .operator i → ∃ t ts n, catalog.firstMatch t ts scope = .ok (i, n)
  lexemes : ∀ t ∈ o.tokens, Lexer.IsLexeme classes t

namespace IsRead

variable {i : Instance}

theorem definition_eq (h : IsRead classes (.operator i)) {o : OperatorId × Definition}
    (ho : o ∈ operators) (hop : i.op = o.1) : i.definition = o.2 := by
  obtain ⟨t, ts, n, hm⟩ := h.found i rfl
  have hmem := (finds_of_firstMatch hm).2
  rw [← operators_scope] at ho
  exact congrArg Prod.snd (catalog.operator_unique hmem ho hop)

theorem fixity_eq (h : IsRead classes (.operator i)) {o : OperatorId × Definition}
    (ho : o ∈ operators)
    (hop : i.op = o.1) : (Operand.operator i).fixity = o.2.fixity :=
  congrArg Definition.fixity (h.definition_eq ho hop)

theorem keepsNewline_eq (h : IsRead classes (.operator i)) {o : OperatorId × Definition}
    (ho : o ∈ operators) (hop : i.op = o.1) :
    (Operand.operator i).keepsNewline = o.2.keepsNewline :=
  congrArg Definition.keepsNewline (h.definition_eq ho hop)

theorem wellFormed (h : IsRead classes (.operator i)) : i.WellFormed := by
  obtain ⟨t, ts, n, hm⟩ := h.found i rfl
  exact (finds_of_firstMatch hm).1.wellFormed

theorem nested (h : IsRead classes (.operator i)) {k : Child} (hk : k ∈ i.children) {o : Operand}
    (ho : o ∈ k.operands) : IsRead classes o where
  found := by
    rintro j rfl
    obtain ⟨t, ts, n, hm⟩ := h.found i rfl
    obtain ⟨o', ho', ha⟩ := firstMatch_ok hm
    obtain ⟨region, u, us, m, hm'⟩ := nested_of_attempt (mem_openedBy.mp ho').2 ha hk ho
    rw [derive_eq] at hm'
    exact ⟨u, us, m, hm'⟩
  lexemes := fun t ht =>
    h.lexemes t (i.tokens_subset hk (List.mem_append_left _ (Operand.tokens_subset ho ht)))

section

variable (hc : classes.SplitsArithmetic)
include hc

theorem visible_keyword (h : IsRead classes (.operator i)) {k : Child} (hk : k ∈ i.children)
    {s : Separator}
    (hs : i.definition.separators[k.index]? = some s) {x : Lexeme} (hx : x.kind = .symbol)
    (hl : s.spellings.texts = [String.ofList x.chars]) : Token.visible [k.keyword] = [x.shown] := by
  obtain ⟨s', hs', ha⟩ := h.wellFormed.accepted k hk
  obtain rfl := Option.some.inj (hs.symm.trans hs')
  have htext := (s.spellings.accepts_iff _).mp ha
  rw [hl, List.mem_singleton] at htext
  have hshown := Lexeme.kind_of_text hc hx (h.lexemes _ (i.tokens_subset hk (by simp))) htext
  have hsolid : k.keyword.isBlank = false := by
    have hkind : k.keyword.kind = x.kind := congrArg Prod.fst hshown
    rw [Token.isBlank, hkind, hx]
    rfl
  rw [Token.visible_cons, hsolid, if_neg Bool.false_ne_true, hshown]
  rfl

theorem visible_sign (h : IsRead classes (.operator i)) {x : Lexeme} (hx : x.kind = .symbol)
    {o : OperatorId × Definition} (ho : o ∈ operators) (hop : i.op = o.1) (hrest : o.2.rest = [])
    (hl : o.2.leading.texts = [String.ofList x.chars]) :
    Token.visible i.tokens = [x.shown] := by
  have hd := h.definition_eq ho hop
  have hchildren := h.wellFormed.single (hd ▸ hrest)
  have htokens : i.tokens = [i.leading] := by
    rw [i.tokens_eq, hchildren]
    rfl
  have hk : (⟨0, i.leading, []⟩ : Child) ∈ i.children := by simp [hchildren]
  have hs : i.definition.separators[0]? = some ⟨o.2.leading, .once, none⟩ := by
    rw [hd]
    rfl
  rw [htokens]
  exact h.visible_keyword hc hk hs hx hl

theorem group (h : IsRead classes (.operator i)) (hop : i.op = "group")
    (hcount : i.count 1 = 0) :
    ∃ close os, i.separator 2 = [⟨2, close, os⟩] ∧ (∀ o ∈ os, IsRead classes o) ∧
      ∀ n, Expression.Sentence (Operand.tokensOf os) n → Factor.Sentence i.tokens n := by
  have hd := h.definition_eq group_mem hop
  obtain ⟨close, os, hchildren⟩ := h.wellFormed.pair (congrArg Definition.rest hd) rfl hcount
  have hk : (⟨0, i.leading, []⟩ : Child) ∈ i.children := by simp [hchildren]
  have hk' : (⟨2, close, os⟩ : Child) ∈ i.children := by simp [hchildren]
  refine ⟨close, os, by simp [Instance.separator, hchildren], fun o ho => h.nested hk' ho, ?_⟩
  intro n hn
  have htokens : i.tokens = [i.leading] ++ (Operand.tokensOf os ++ [close]) := by
    rw [i.tokens_eq, hchildren]
    simp [Child.tokensOf, Child.tokens, Operand.tokensOf]
  rw [htokens]
  refine hn.group ?_ ?_
  · have hs : i.definition.separators[0]? = some ⟨Calculator.group.2.leading, .once, none⟩ := by
      rw [hd]
      rfl
    exact h.visible_keyword hc (x := .opening) hk hs rfl rfl
  · have hs : i.definition.separators[2]? = some (keyword ")" .once) := by
      rw [hd]
      rfl
    exact h.visible_keyword hc (x := .closing) hk' hs rfl rfl

end

end IsRead

theorem powers_between {o : Operand} {l r : Nat} (h : o.fixity = .between l r)
    (lhs rhs : SyntaxTree) :
    l ∈ (SyntaxTree.between o lhs rhs).leftPowers ∧
      r ∈ (SyntaxTree.between o lhs rhs).rightPowers := by
  simp [SyntaxTree.leftPowers, SyntaxTree.rightPowers, h, Fixity.left?, Fixity.right?]

structure Sound (classes : CharClasses) (leaf : Operand → Option Nat) : Prop where
  missing : ∀ offset, leaf (.token (.missing offset)) = none
  sentence : ∀ o n, IsRead classes o → leaf o = some n → Factor.Sentence o.tokens n

/-- A tree that respects the powers is a sentence: a sum, and a product or a factor where it binds
tight enough. -/
theorem sentence_of_tree (hc : classes.SplitsArithmetic) {leaf : Operand → Option Nat}
    (hleaf : Sound classes leaf) {t : SyntaxTree} (hread : ∀ o ∈ t.items, IsRead classes o)
    (hr : t.Respects) {n : Nat}
    (hv : treeValue leaf t = some n) :
    Expression.Sentence t.tokens n ∧
      ((∀ l ∈ t.leftPowers, 11 < l) ∨ (∀ r ∈ t.rightPowers, 20 ≤ r) → Term.Sentence t.tokens n) ∧
      ((∀ l ∈ t.leftPowers, 21 < l) → Factor.Sentence t.tokens n) := by
  induction t generalizing n with
  | leaf item =>
    have hf := hleaf.sentence item n (hread item (List.mem_singleton_self item)) hv
    have ht : (SyntaxTree.leaf item).tokens = item.tokens := List.append_nil _
    rw [ht]
    exact ⟨hf.term.expression, fun _ => hf.term, fun _ => hf⟩
  | before item rhs => cases hv
  | after item lhs => cases hv
  | between item lhs rhs ihl ihr =>
    obtain ⟨hreadl, hreads⟩ := List.forall_mem_append.mp hread
    obtain ⟨hitem, hreadr⟩ := List.forall_mem_cons.mp hreads
    obtain ⟨hleft, hright, hrl, hrr⟩ := hr
    obtain ⟨i, l, r, rfl, hl, hr, hop⟩ := treeValue_between hv
    obtain ⟨hel, htl, -⟩ := ihl hreadl hrl hl
    obtain ⟨-, htr, hfr⟩ := ihr hreadr hrr hr
    have ht : (SyntaxTree.between (.operator i) lhs rhs).tokens =
        lhs.tokens ++ (i.tokens ++ rhs.tokens) := by
      simp [SyntaxTree.tokens, SyntaxTree.items, Operand.tokens]
    rw [ht]
    obtain ⟨hop, rfl⟩ | ⟨hop, rfl⟩ := hop
    · have hf : (Operand.operator i).fixity = .between 10 11 := hitem.fixity_eq plus_mem hop
      have hsign := hitem.visible_sign hc (x := .plus) rfl plus_mem hop rfl rfl
      obtain ⟨hl, hr⟩ := powers_between hf lhs rhs
      refine ⟨hel.plus (htr (.inl (hright 11 (by rw [hf]; rfl)))) hsign, ?_, fun h => ?_⟩
      · rintro (h | h)
        · exact absurd (h 10 hl) (by decide)
        · exact absurd (h 11 hr) (by decide)
      · exact absurd (h 10 hl) (by decide)
    · have hf : (Operand.operator i).fixity = .between 20 21 := hitem.fixity_eq times_mem hop
      have hsign := hitem.visible_sign hc (x := .times) rfl times_mem hop rfl rfl
      obtain ⟨hl, -⟩ := powers_between hf lhs rhs
      have hproduct := (htl (.inr (hleft 20 (by rw [hf]; rfl)))).times
        (hfr (hright 21 (by rw [hf]; rfl))) hsign
      exact ⟨hproduct.expression, fun _ => hproduct, fun h => absurd (h 20 hl) (by decide)⟩

theorem not_keepsNewline_of_tree {leaf : Operand → Option Nat} {t : SyntaxTree} (hs : t.Shaped)
    (hread : ∀ o ∈ t.items, IsRead classes o) {n : Nat} (hv : treeValue leaf t = some n) :
    ∀ o ∈ t.items, o.fixity ≠ .closed → o.keepsNewline = false := by
  induction t generalizing n with
  | leaf item => exact List.forall_mem_singleton.mpr fun h => absurd hs.2 h
  | before item rhs => cases hv
  | after item lhs => cases hv
  | between item lhs rhs ihl ihr =>
    obtain ⟨-, hsl, hsr⟩ := hs
    obtain ⟨hreadl, hreads⟩ := List.forall_mem_append.mp hread
    obtain ⟨hitem, hreadr⟩ := List.forall_mem_cons.mp hreads
    obtain ⟨i, l, r, rfl, hl, hr, hop⟩ := treeValue_between hv
    refine List.forall_mem_append.mpr
      ⟨ihl hsl hreadl hl, List.forall_mem_cons.mpr ⟨fun _ => ?_, ?_⟩⟩
    · obtain ⟨hop, -⟩ | ⟨hop, -⟩ := hop
      · exact hitem.keepsNewline_eq plus_mem hop
      · exact hitem.keepsNewline_eq times_mem hop
    · exact ihr hsr hreadr hr

theorem errors_of_treeValue {leaf : Operand → Option Nat}
    (hmissing : ∀ offset, leaf (.token (.missing offset)) = none) {p : Phrase} {ends offset n : Nat}
    (h : treeValue leaf (p.tree ends offset) = some n) (count : Nat) (e : ParseError) :
    p.errors count e = [] := by
  induction p generalizing offset n e with
  | absent => cases (hmissing offset).symm.trans h
  | leaf item i => rfl
  | before o i rhs => cases h
  | after o i lhs => cases h
  | between o i lhs rhs ihl ihr =>
    obtain ⟨-, l, r, -, hl, hr, -⟩ := treeValue_between h
    rw [Phrase.errors, ihl hl, ihr hr, List.append_nil]

theorem sentence_of_resolveAll (hc : classes.SplitsArithmetic) {leaf : Operand → Option Nat}
    (hleaf : Sound classes leaf) {os : List Operand} (hread : ∀ o ∈ os, IsRead classes o)
    {tree : SyntaxTree}
    (ht : tree ∈ (resolveAll os).value) {n : Nat} (hv : treeValue leaf tree = some n) :
    Expression.Sentence tree.tokens n ∧
      ((resolveAll os).value = [tree] →
        Token.visible tree.tokens = Token.visible (Operand.tokensOf os)) := by
  obtain ⟨ps, hd, hps⟩ := Phrase.exists_describeAll os
  rw [hd.value_eq] at ht ⊢
  obtain ⟨p, hp, rfl⟩ := List.mem_map.mp ht
  have herrors := errors_of_treeValue hleaf.missing hv os.length ⟨os.length, .valueExpected⟩
  obtain ⟨-, htrimmed, hitems⟩ :=
    Phrase.tree_of_errors_nil herrors (endOffset os) (endOffset os)
  have hreadt : ∀ o ∈ (p.tree (endOffset os) (endOffset os)).items, IsRead classes o := by
    intro o ho
    rw [hitems] at ho
    obtain ⟨x, hx, rfl⟩ := List.mem_map.mp ho
    have hmem : x ∈ Phrase.solid os.zipIdx := hd.places_eq ▸ List.mem_flatMap.mpr ⟨p, hp, hx⟩
    exact hread x.1 (List.fst_mem_of_mem_zipIdx (List.mem_filter.mp hmem).1)
  refine ⟨?_, fun hone => ?_⟩
  · obtain ⟨us, rest, hr⟩ := hps.exists_reads hp
    have hk := not_keepsNewline_of_tree (hr.shaped _ nofun _) hreadt hv
    obtain ⟨hbounded, -⟩ := hr.bounded_of_places rfl
      (fun x _ hx => hk x.1 (hitems ▸ List.mem_map_of_mem hx)) nofun
    exact (sentence_of_tree hc hleaf hreadt (htrimmed ▸ hbounded.respects) hv).1
  · obtain ⟨q, rfl, -⟩ := List.map_eq_singleton_iff.mp hone
    obtain rfl := List.mem_singleton.mp hp
    have hplaces : p.places ++ [] = Phrase.solid os.zipIdx := hd.places_eq
    rw [List.append_nil] at hplaces
    rw [SyntaxTree.tokens, hitems, hplaces, Phrase.map_fst_solid, List.zipIdx_map_fst,
      ← Operand.tokensOf_eq_flatMap, Operand.visible_solid]

section

variable {parse : String → Option Nat}

theorem operandValue_missing (depth offset : Nat) :
    operandValue parse depth (.token (.missing offset)) = none := by
  rw [operandValue_token]
  rfl

variable (hparse : ParsesNumerals parse)
include hparse

theorem sentence_of_token {t : Token} (h : IsRead classes (.token t)) {n : Nat}
    (hv : t.toNat? parse = some n) : Factor.Sentence [t] n := by
  have hk : t.kind = .number := by
    rw [Token.toNat?] at hv
    split at hv
    · assumption
    · cases hv
  obtain ⟨m, ht⟩ := Lexeme.numeral_of_kind (h.lexemes t (List.mem_singleton_self t)) hk
  refine ⟨.number m, ?_, Option.some.inj ((hparse.toNat? m hk ht).symm.trans hv)⟩
  have hsolid : t.isBlank = false := by simp [Token.isBlank, hk]
  rw [Token.visible_cons, hsolid, if_neg Bool.false_ne_true, hk, ht]
  rfl

theorem sound_operandValue (hc : classes.SplitsArithmetic) (depth : Nat) :
    Sound classes (operandValue parse depth) := by
  induction depth with
  | zero =>
    refine ⟨operandValue_missing 0, fun o n ho hv => ?_⟩
    cases o with
    | token t => exact sentence_of_token hparse ho hv
    | operator i => cases hv
  | succ depth ih =>
    refine ⟨operandValue_missing _, fun o n ho hv => ?_⟩
    cases o with
    | token t => exact sentence_of_token hparse ho hv
    | operator i =>
      rw [operandValue] at hv
      split at hv
      · rename_i hi
        obtain ⟨close, os, hs, hread, hgroup⟩ := ho.group hc hi.1 hi.2
        rw [hs] at hv
        dsimp only at hv
        split at hv
        · rename_i tree hr
          have hmem : tree ∈ (resolveAll os).value := by simp [hr]
          obtain ⟨⟨e, he, hvalue⟩, htokens⟩ := sentence_of_resolveAll hc ih hread hmem hv
          exact hgroup n ⟨e, (htokens hr).symm.trans he, hvalue⟩
        · cases hv
      · cases hv

end

/-- No wrong value is calculated: if the tree of an expression in a source has a value, its visible
tokens are a sentence of the grammar, and that is the value of the sentence. -/
theorem value_sentence (hc : classes.SplitsArithmetic) {parse : String → Option Nat}
    (hparse : ParsesNumerals parse) {source : String} {tokens : List Token}
    (h : lexWith classes source = .ok tokens) {tree : SyntaxTree}
    (ht : tree ∈ (catalog.parse tokens scope).value) {n : Nat} (hv : value parse tree = some n) :
    ∃ e : Expression, Token.visible tree.tokens = e.lexemes.map Lexeme.shown ∧ e.value = n ∧
      ∀ e' : Expression, Token.visible tree.tokens = e'.lexemes.map Lexeme.shown →
        e'.value = n := by
  have hlexemes := Lexer.isLexeme_of_scan (lexWith_ok.mp h)
  have hread : ∀ o ∈ (catalog.flatten tokens 0 scope).value, IsRead classes o := by
    intro o ho
    refine ⟨?_, fun t ht => hlexemes t ?_⟩
    · rintro i rfl
      exact firstMatch_of_mem_flatten ho
    · exact catalog.tokensOf_flatten tokens scope ▸ Operand.tokens_subset ho ht
  have hleaf : Sound classes fun o => operandValue parse o.depth o :=
    ⟨fun offset => operandValue_missing _ offset,
      fun o n => (sound_operandValue hparse hc o.depth).sentence o n⟩
  obtain ⟨⟨e, he, rfl⟩, -⟩ := sentence_of_resolveAll hc hleaf hread ht hv
  exact ⟨e, he, rfl, fun e' he' => Expression.value_unique (he'.symm.trans he)⟩

def Sample.unfinished : List Token :=
  [⟨.ident, "if", ⟨0, 2⟩⟩, ⟨.whitespace, " ", ⟨2, 3⟩⟩, ⟨.number, "1", ⟨3, 4⟩⟩,
    ⟨.symbol, "+", ⟨4, 5⟩⟩, ⟨.symbol, "(", ⟨5, 6⟩⟩, ⟨.number, "2", ⟨6, 7⟩⟩, ⟨.symbol, "*", ⟨7, 8⟩⟩,
    ⟨.number, "3", ⟨8, 9⟩⟩, ⟨.symbol, ")", ⟨9, 10⟩⟩]

theorem value_sentence_unfinished :
    CharClasses.unicode.SplitsArithmetic ∧ ParsesNumerals Text.parseDecimal ∧
      lex "if 1+(2*3)" = .ok Sample.unfinished ∧
      ∃ tree ∈ (catalog.parse Sample.unfinished scope).value,
        value Text.parseDecimal tree = some 7 ∧
        ∃ e : Expression, Token.visible tree.tokens = e.lexemes.map Lexeme.shown ∧ e.value = 7 ∧
          ∀ e' : Expression, Token.visible tree.tokens = e'.lexemes.map Lexeme.shown →
            e'.value = 7 := by
  have hc := CharClasses.unicode_splitsArithmetic
  have hparse := parsesNumerals_parseDecimal
  have h : lex "if 1+(2*3)" = .ok Sample.unfinished := rfl
  have hvalues : (catalog.parse Sample.unfinished scope).value.map (value Text.parseDecimal) =
      [none, some 7] := by
    decide +kernel
  have hmem : some 7 ∈
      (catalog.parse Sample.unfinished scope).value.map (value Text.parseDecimal) := by
    rw [hvalues]
    decide
  obtain ⟨tree, ht, hv⟩ := List.mem_map.mp hmem
  exact ⟨hc, hparse, h, tree, ht, hv, value_sentence hc hparse h ht hv⟩

end Distfix.Calculator
