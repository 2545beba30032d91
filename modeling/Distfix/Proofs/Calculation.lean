import Distfix.Proofs.Layout
import Distfix.Proofs.Rebuilding
import Distfix.Proofs.RoundTrip
import Distfix.Proofs.Spacing

namespace Distfix.Calculator

open Catalog

theorem ignores_of_head {text : String} {x : Char} (hx : text.toList.head? = some x)
    (h : x.isDigit = true ∨ ¬('!' ≤ x ∧ x ≤ '~')) : catalog.Ignores scope text := by
  have hkeywords : ∀ d ∈ catalog.definitions, ∀ s ∈ d.separators, ∀ text ∈ s.spellings.texts,
      text.toList.head?.any (fun x => x.isDigit || !('!' ≤ x && x ≤ '~')) = false := by
    decide
  refine ignores_of_definitions (fun d hd s hs => ?_) scope
  rw [Bool.eq_false_iff]
  intro ha
  have hk := hkeywords d hd s hs text ((s.spellings.accepts_iff text).mp ha)
  rw [hx, Option.any_some] at hk
  grind

theorem ignores_number (n : Numeral) : catalog.Ignores scope (Lexeme.number n).token.text := by
  obtain ⟨x, w, hn⟩ := List.exists_cons_of_ne_nil n.nonempty
  have hd : x.isDigit = true := n.digits x (by simp [hn])
  refine ignores_of_head (x := x) ?_ (.inl hd)
  simp [Lexeme.token, Lexeme.chars, hn]

def Awaits (p : Pending) : Prop := ∀ x : Lexeme, x ≠ .closing → p.close x.token.text = none

theorem awaits_nothing : Awaits ⟨[], 0⟩ := fun _ _ => rfl

theorem awaits_group : Awaits (.initial group.2) := by
  intro x hx
  cases x with
  | number n =>
    have hgroup : group ∈ catalog.operators scope := operators_scope ▸ group_mem
    exact (opens_initial hgroup).close_eq_none .self (ignores_number n)
  | plus | times | opening => rfl
  | closing => exact absurd rfl hx

theorem firstMatch_number (n : Numeral) (ts : List Token) :
    catalog.firstMatch (Lexeme.number n).token ts scope = .error [] := by
  rw [firstMatch, openedBy_eq_nil .self (ignores_number n)]
  rfl

theorem firstMatch_group {ts rest : List Token} {os : List Operand}
    (h : catalog.Gathers scope (.initial group.2) ts os (Lexeme.closing.token :: rest)) :
    catalog.firstMatch Lexeme.opening.token ts scope =
      .ok (.ofBody group Lexeme.opening.token (groupBody os), (groupBody os).length) := by
  have ho : catalog.openedBy scope Lexeme.opening.token = [group] := rfl
  have hc : (Pending.initial group.2).close Lexeme.closing.token.text = some (2, ⟨[], 0⟩) := rfl
  have hb := readBody_of_gathers h hc (readBody_of_slots_nil rfl rest)
  rw [firstMatch, ho, firstOk, attempt, hb]
  rfl

theorem derive_eq (region : Option GeneratorRef) : catalog.derive region scope = scope := by
  cases region <;> rfl

theorem gathers_sign {p : Pending} (hp : Awaits p) {x : Lexeme} (hx : x ≠ .closing)
    {o : OperatorId × Definition} (ho : catalog.openedBy scope x.token = [o])
    (hr : o.2.rest = []) (rest : List Token) :
    catalog.Gathers scope p (x.token :: rest) [.operator (.ofBody o x.token .empty)] rest := by
  refine gathers_singleton (hp x hx) ?_ rfl
  rw [derive_eq]
  exact ⟨0, firstMatch_of_rest_nil ho hr rest⟩

mutual

theorem Expression.gathers (e : Expression) {p : Pending} (hp : Awaits p) (rest : List Token) :
    catalog.Gathers scope p (e.lexemes.map Lexeme.token ++ rest) e.items rest := by
  cases e with
  | term t => exact t.gathers hp rest
  | plus e t =>
    rw [Expression.lexemes, List.map_append, List.append_assoc]
    refine (e.gathers hp _).append ?_
    exact (gathers_sign (x := .plus) (o := plus) hp nofun rfl rfl _).append (t.gathers hp rest)

theorem Term.gathers (t : Term) {p : Pending} (hp : Awaits p) (rest : List Token) :
    catalog.Gathers scope p (t.lexemes.map Lexeme.token ++ rest) t.items rest := by
  cases t with
  | factor f => exact f.gathers hp rest
  | times t f =>
    rw [Term.lexemes, List.map_append, List.append_assoc]
    refine (t.gathers hp _).append ?_
    exact (gathers_sign (x := .times) (o := times) hp nofun rfl rfl _).append (f.gathers hp rest)

theorem Factor.gathers (f : Factor) {p : Pending} (hp : Awaits p) (rest : List Token) :
    catalog.Gathers scope p (f.lexemes.map Lexeme.token ++ rest) [f.item] rest := by
  cases f with
  | number n =>
    have hclose : p.close (Lexeme.number n).token.text = none := hp (.number n) nofun
    refine gathers_singleton hclose ?_ rfl
    rw [derive_eq]
    exact ⟨rfl, [], firstMatch_number n rest⟩
  | group e =>
    have hclose : p.close Lexeme.opening.token.text = none := hp .opening nofun
    have hinner := e.gathers awaits_group (Lexeme.closing.token :: rest)
    rw [Factor.lexemes, List.map_cons, List.map_append, List.cons_append, List.append_assoc]
    refine gathers_singleton hclose ?_ ?_
    · rw [derive_eq]
      exact ⟨_, firstMatch_group hinner⟩
    · change Lexeme.opening.token ::
        (e.lexemes.map Lexeme.token ++ Lexeme.closing.token :: rest) = _
      rw [hinner.tokens]
      simp [Factor.item, Instance.ofBody, groupBody, Operand.tokens, Instance.tokens,
        Child.tokensOf, Child.tokens, Operand.tokensOf]

end

def IsItem (o : Operand) : Prop := (∃ f : Factor, o = f.item) ∨ o = plusItem ∨ o = timesItem

theorem Term.isItem (t : Term) : ∀ o ∈ t.items, IsItem o := by
  cases t with
  | factor f => exact List.forall_mem_singleton.mpr (.inl ⟨f, rfl⟩)
  | times t f =>
    refine List.forall_mem_append.mpr ⟨t.isItem, List.forall_mem_cons.mpr ⟨.inr (.inr rfl), ?_⟩⟩
    exact List.forall_mem_singleton.mpr (.inl ⟨f, rfl⟩)

theorem Expression.isItem (e : Expression) : ∀ o ∈ e.items, IsItem o := by
  cases e with
  | term t => exact t.isItem
  | plus e t =>
    exact List.forall_mem_append.mpr
      ⟨e.isItem, List.forall_mem_cons.mpr ⟨.inr (.inl rfl), t.isItem⟩⟩

theorem IsItem.not_keepsNewline {o : Operand} (h : IsItem o) : o.keepsNewline = false := by
  obtain ⟨f, rfl⟩ | rfl | rfl := h
  · cases f <;> rfl
  · rfl
  · rfl

theorem IsItem.openedBy {t : Token} (h : IsItem (.token t)) : catalog.openedBy scope t = [] := by
  obtain ⟨f, hf⟩ | h | h := h
  · cases f with
    | number n =>
      obtain rfl := Operand.token.inj hf
      exact openedBy_eq_nil .self (ignores_number n)
    | group e => cases hf
  · cases h
  · cases h

theorem Expression.flatten_tokens (e : Expression) :
    (catalog.flatten e.tokens 0 scope).value = e.items ∧
      (catalog.flatten e.tokens 0 scope).errors = [] := by
  have h := e.gathers awaits_nothing []
  rw [List.append_nil] at h
  rw [flatten_eq_flattenAhead]
  exact flattenItems_of_gathers h (fun t ht => (e.isItem _ ht).openedBy) 0

theorem Term.tree_items (t : Term) : t.tree.items = t.items := by
  cases t with
  | factor f => rfl
  | times t f => rw [Term.tree, SyntaxTree.items, t.tree_items, SyntaxTree.items, Term.items]

theorem Expression.tree_items (e : Expression) : e.tree.items = e.items := by
  cases e with
  | term t => exact t.tree_items
  | plus e t =>
    rw [Expression.tree, SyntaxTree.items, e.tree_items, t.tree_items, Expression.items]

theorem Factor.item_closed (f : Factor) : f.item.isBlank = false ∧ f.item.fixity = .closed := by
  cases f <;> exact ⟨rfl, rfl⟩

theorem Factor.not_isSynthetic (f : Factor) : f.item.isSynthetic = false := by
  cases f <;> rfl

theorem Term.correct (t : Term) : t.tree.Correct 11 ∧ ∀ r ∈ t.tree.rightPowers, 20 ≤ r := by
  cases t with
  | factor f => exact ⟨.leaf f.item_closed.1 f.item_closed.2 11, nofun⟩
  | times t f =>
    obtain ⟨ht, hright⟩ := t.correct
    have hf : (SyntaxTree.leaf f.item).Correct 21 := .leaf f.item_closed.1 f.item_closed.2 21
    have htimes : timesItem.fixity = .between 20 21 := rfl
    refine ⟨.between htimes (by decide) ht hf hright, ?_⟩
    exact List.forall_mem_singleton.mpr (by decide)

theorem Expression.correct (e : Expression) :
    e.tree.Correct 0 ∧ ∀ r ∈ e.tree.rightPowers, 10 ≤ r := by
  cases e with
  | term t =>
    obtain ⟨ht, hright⟩ := t.correct
    exact ⟨ht.weaken (by decide), fun r hr => Nat.le_trans (by decide) (hright r hr)⟩
  | plus e t =>
    obtain ⟨he, hleft⟩ := e.correct
    obtain ⟨ht, hright⟩ := t.correct
    have hplus : plusItem.fixity = .between 10 11 := rfl
    refine ⟨.between hplus (by decide) he ht hleft, ?_⟩
    exact List.forall_mem_cons.mpr
      ⟨by decide, fun r hr => Nat.le_trans (by decide) (hright r hr)⟩

theorem Expression.resolveAll_items (e : Expression) :
    resolveAll e.items = ⟨e.items.length, [e.tree], []⟩ := by
  rw [← e.tree_items]
  refine e.correct.1.resolveAll_items fun o ho _ => ?_
  rw [e.tree_items] at ho
  exact (e.isItem o ho).not_keepsNewline

theorem Expression.resolveAll_essence (e : Expression) {os : List Operand} {P : Operand → Prop}
    (h : Operand.essences false os = e.items) (hP : ∀ o ∈ os, P o) :
    ∃ t, (resolveAll os).value = [t] ∧ (resolveAll os).errors = [] ∧ t.Essence false P e.tree := by
  have hk : ∀ o ∈ os, o.keepsNewline = true → false = true := by
    intro o ho hkeeps
    cases o with
    | token t => cases hkeeps
    | operator i =>
      have hmem : (Operand.operator i).essence false ∈ e.items :=
        h ▸ Operand.mem_essences ho rfl
      rw [← (e.isItem _ hmem).not_keepsNewline, Operand.keepsNewline_essence]
      exact hkeeps
  obtain ⟨htrees, hfaults⟩ := Distfix.resolveAll_essence hP hk
  rw [h, e.resolveAll_items] at htrees hfaults
  have herrors : (resolveAll os).errors = [] := List.map_eq_nil_iff.mp hfaults.symm
  generalize (resolveAll os).value = trees at htrees ⊢
  cases htrees with
  | cons ht hnil =>
    cases hnil
    exact ⟨_, rfl, herrors, ht⟩

section

variable (parse : String → Option Nat)

def Evaluates (leaf : Operand → Option Nat) (P : Operand → Prop) : Prop :=
  ∀ o, P o → ∃ depth, o.depth ≤ depth ∧ leaf o = operandValue parse depth o

variable {parse}

theorem children_of_essences {cs : List Child} {keyword keyword' : Token} {os : List Operand}
    (h : Child.essences false cs = [⟨0, keyword, []⟩, ⟨2, keyword', os⟩]) :
    ∃ t os₀ t' os', cs = [⟨0, t, os₀⟩, ⟨2, t', os'⟩] ∧ Operand.essences false os' = os := by
  obtain _ | ⟨⟨index, t, os₀⟩, _ | ⟨⟨index', t', os'⟩, _ | ⟨k, cs⟩⟩⟩ := cs
  · cases h
  · obtain ⟨-, hnil⟩ := List.cons.inj h
    cases hnil
  · obtain ⟨hk, hrest⟩ := List.cons.inj h
    obtain ⟨hk', -⟩ := List.cons.inj hrest
    obtain ⟨rfl, -, -⟩ := Child.mk.inj hk
    obtain ⟨rfl, -, hos⟩ := Child.mk.inj hk'
    exact ⟨t, os₀, t', os', rfl, hos⟩
  · obtain ⟨-, hrest⟩ := List.cons.inj h
    obtain ⟨-, hnil⟩ := List.cons.inj hrest
    obtain ⟨index, keyword, operands⟩ := k
    cases hnil

theorem operandValue_token (depth : Nat) (t : Token) :
    operandValue parse depth (.token t) = t.toNat? parse := by
  cases depth <;> rfl

theorem operandValue_group {i : Instance} {close : Child} {rest : List Child} {tree : SyntaxTree}
    (hop : i.op = "group") (hcount : i.count 1 = 0) (hclose : i.separator 2 = close :: rest)
    (hr : (resolveAll close.operands).value = [tree]) (depth : Nat) :
    operandValue parse (depth + 1) (.operator i) = treeValue (operandValue parse depth) tree := by
  rw [operandValue, if_pos ⟨hop, hcount⟩, hclose]
  dsimp only
  rw [hr]

theorem treeValue_congr {leaf leaf' : Operand → Option Nat} {t : SyntaxTree}
    (h : ∀ o ∈ t.items, leaf o = leaf' o) : treeValue leaf t = treeValue leaf' t := by
  induction t with
  | leaf item => exact h item (List.mem_singleton_self item)
  | before item rhs => rfl
  | after item lhs => rfl
  | between item lhs rhs ihl ihr =>
    obtain ⟨hl, hr⟩ := List.forall_mem_append.mp h
    cases item with
    | token t => rfl
    | operator i => rw [treeValue, treeValue, ihl hl, ihr (List.forall_mem_cons.mp hr).2]

theorem depth_of_group {i : Instance} {close : Child} {rest : List Child} {tree : SyntaxTree}
    (hclose : i.separator 2 = close :: rest) (hr : (resolveAll close.operands).value = [tree])
    {o : Operand} (ho : o ∈ tree.items) : o.depth < i.depth := by
  have hmem : close ∈ i.separator 2 := by simp [hclose]
  have htree : tree ∈ (resolveAll close.operands).value := by simp [hr]
  obtain ⟨op, definition, leading, children⟩ := i
  obtain ⟨index, keyword, operands⟩ := close
  have hinner := Child.depth_le_depthOf (List.mem_filter.mp hmem).1
  rw [Instance.depth]
  refine Nat.lt_succ_of_le (Nat.le_trans ?_ hinner)
  obtain ho | ⟨a, rfl⟩ := mem_items_of_resolveAll htree ho
  · exact Operand.depth_le_depthOf ho
  · exact Nat.zero_le _

theorem operandValue_of_depth_le {m n : Nat} {o : Operand} (hm : o.depth ≤ m) (hn : o.depth ≤ n) :
    operandValue parse m o = operandValue parse n o := by
  induction m generalizing n o with
  | zero =>
    cases o with
    | token t => rw [operandValue_token, operandValue_token]
    | operator i =>
      obtain ⟨op, definition, leading, children⟩ := i
      cases hm
  | succ m ih =>
    cases o with
    | token t => rw [operandValue_token, operandValue_token]
    | operator i =>
      cases n with
      | zero =>
        obtain ⟨op, definition, leading, children⟩ := i
        cases hn
      | succ n =>
        rw [operandValue, operandValue]
        split
        · cases hclose : i.separator 2 with
          | nil => rfl
          | cons close rest =>
            dsimp only
            split
            · rename_i tree hr
              refine treeValue_congr fun o ho => ?_
              have hdepth : o.depth < i.depth := depth_of_group hclose hr ho
              exact ih (Nat.le_of_lt_succ (Nat.lt_of_lt_of_le hdepth hm))
                (Nat.le_of_lt_succ (Nat.lt_of_lt_of_le hdepth hn))
            · rfl
        · rfl

theorem value_group {i : Instance} {close : Child} {rest : List Child} {tree : SyntaxTree}
    (hop : i.op = "group") (hcount : i.count 1 = 0) (hclose : i.separator 2 = close :: rest)
    (hr : (resolveAll close.operands).value = [tree]) :
    value parse (.leaf (.operator i)) = value parse tree := by
  have hdeeper : i.depth ≤ i.depth + 1 := Nat.le_succ _
  calc value parse (.leaf (.operator i))
      = operandValue parse (i.depth + 1) (.operator i) :=
        operandValue_of_depth_le (Nat.le_refl _) hdeeper
    _ = treeValue (operandValue parse i.depth) tree := operandValue_group hop hcount hclose hr _
    _ = value parse tree := treeValue_congr fun o ho =>
        operandValue_of_depth_le (Nat.le_of_lt (depth_of_group hclose hr ho)) (Nat.le_refl _)

mutual

theorem Expression.treeValue_eq (hparse : ParsesNumerals parse) (e : Expression)
    {leaf : Operand → Option Nat} {P : Operand → Prop} {tree : SyntaxTree}
    (hleaf : Evaluates parse leaf P) (h : tree.Essence false P e.tree) :
    treeValue leaf tree = some e.value := by
  cases e with
  | term t => exact t.treeValue_eq hparse hleaf h
  | plus e t =>
    obtain ⟨o, lhs, rhs, rfl, ho, hl, hr⟩ := SyntaxTree.Essence.of_between h
    have hlhs := e.treeValue_eq hparse hleaf hl
    have hrhs := t.treeValue_eq hparse hleaf hr
    cases o with
    | token t => cases ho
    | operator i =>
      have hop : i.op = "plus" :=
        i.op_essence.symm.trans (congrArg Instance.op (Operand.operator.inj ho))
      rw [treeValue, if_pos hop, hlhs, hrhs]
      rfl

theorem Term.treeValue_eq (hparse : ParsesNumerals parse) (t : Term) {leaf : Operand → Option Nat}
    {P : Operand → Prop} {tree : SyntaxTree} (hleaf : Evaluates parse leaf P)
    (h : tree.Essence false P t.tree) : treeValue leaf tree = some t.value := by
  cases t with
  | factor f =>
    obtain ⟨o, rfl, hP, ho⟩ := SyntaxTree.Essence.of_leaf h f.not_isSynthetic
    obtain ⟨depth, hd, hl⟩ := hleaf o hP
    exact hl.trans (f.operandValue_eq hparse hd ho)
  | times t f =>
    obtain ⟨o, lhs, rhs, rfl, ho, hl, hr⟩ := SyntaxTree.Essence.of_between h
    obtain ⟨o', rfl, hP, ho'⟩ := SyntaxTree.Essence.of_leaf hr f.not_isSynthetic
    obtain ⟨depth, hd, hval⟩ := hleaf o' hP
    have hlhs := t.treeValue_eq hparse hleaf hl
    have hrhs := hval.trans (f.operandValue_eq hparse hd ho')
    cases o with
    | token t => cases ho
    | operator i =>
      have hop : i.op = "times" :=
        i.op_essence.symm.trans (congrArg Instance.op (Operand.operator.inj ho))
      have hne : i.op ≠ "plus" := by
        rw [hop]
        decide
      rw [treeValue, if_neg hne, if_pos hop, hlhs, treeValue, hrhs]
      rfl

theorem Factor.operandValue_eq (hparse : ParsesNumerals parse) (f : Factor)
    {o : Operand} {depth : Nat} (hd : o.depth ≤ depth)
    (h : o.essence false = f.item) : operandValue parse depth o = some f.value := by
  cases f with
  | number n =>
    cases o with
    | operator i => cases h
    | token t =>
      have ht := Operand.token.inj h
      rw [operandValue_token]
      exact hparse.toNat? n (congrArg Token.kind ht) (congrArg Token.text ht)
  | group e =>
    cases o with
    | token t => cases h
    | operator i =>
      obtain ⟨op, definition, leading, children⟩ := i
      obtain ⟨rfl, -, -, hchildren⟩ := Instance.mk.inj (Operand.operator.inj h)
      obtain ⟨t, os, t', os', rfl, hos⟩ := children_of_essences hchildren
      cases depth with
      | zero => exact absurd hd (Nat.not_succ_le_zero _)
      | succ depth =>
        have hinner : Operand.depthOf os' ≤ depth := by
          rw [Operand.depth, Instance.depth] at hd
          have hchild : (⟨2, t', os'⟩ : Child) ∈ [⟨0, t, os⟩, ⟨2, t', os'⟩] := by simp
          exact Nat.le_trans (Child.depth_le_depthOf hchild) (Nat.le_of_succ_le_succ hd)
        obtain ⟨tree, hr, -, ht⟩ := e.resolveAll_essence (P := fun o => o.depth ≤ depth) hos
          fun o ho => Nat.le_trans (Operand.depth_le_depthOf ho) hinner
        have hclose :
            Instance.separator ⟨group.1, definition, leading, [⟨0, t, os⟩, ⟨2, t', os'⟩]⟩ 2 =
            [⟨2, t', os'⟩] := rfl
        refine (operandValue_group rfl rfl hclose hr depth).trans ?_
        exact e.treeValue_eq hparse (fun o ho => ⟨depth, ho, rfl⟩) ht

end

end

theorem essence_of_visible (ts : List Token) :
    Token.essence false ts = (Token.visible ts).map fun x => ⟨x.1, x.2, ⟨0, 0⟩⟩ := by
  rw [Token.essence, Token.visible, List.map_map]
  simp only [Operand.isSkipped_false]
  rfl

/-- An expression is read as one tree without faults, which has its value. -/
theorem Expression.parse_eq {parse : String → Option Nat} (hparse : ParsesNumerals parse)
    (e : Expression) {tokens : List Token}
    (hv : Token.visible tokens = e.lexemes.map Lexeme.shown)
    (hb : ∀ t ∈ tokens, t.isBlank = true → catalog.Ignores scope t.text) :
    ∃ tree next, catalog.parse tokens scope = ⟨next, [tree], []⟩ ∧
      Calculator.value parse tree = some e.value := by
  have hessence : Token.essence false tokens = e.tokens := by
    rw [essence_of_visible, hv, List.map_map]
    rfl
  have hflat : SameItems false (catalog.flatten tokens 0 scope)
      (catalog.flatten e.tokens 0 scope) :=
    hessence ▸ flatten_essence fun t ht hs => hb t ht (Operand.isBlank_of_isSkipped hs)
  obtain ⟨hitems, hfaults⟩ := hflat
  obtain ⟨hvalue, herrors⟩ := e.flatten_tokens
  rw [hvalue] at hitems
  rw [herrors] at hfaults
  have hnone : (catalog.flatten tokens 0 scope).errors = [] := List.map_eq_nil_iff.mp hfaults.symm
  obtain ⟨tree, ht, he, htree⟩ := e.resolveAll_essence (P := fun _ => True) hitems.symm
    fun _ _ => trivial
  refine ⟨tree, (catalog.flatten tokens 0 scope).next, ?_, ?_⟩
  · rw [Catalog.parse, ht, he, hnone]
    rfl
  · exact e.treeValue_eq hparse (fun o _ => ⟨o.depth, Nat.le_refl _, rfl⟩) htree

theorem ignores_blank {classes : CharClasses} (hc : classes.SplitsArithmetic) {t : Token}
    (h : Lexer.IsLexeme classes t) (hb : t.isBlank = true) : catalog.Ignores scope t.text := by
  obtain ⟨x, w, rest, ht, hm⟩ := h
  have hkind : t.kind = .whitespace ∨ t.kind = .newline := by simpa [Token.isBlank] using hb
  have hhead : t.text.toList.head? = some x := by
    rw [ht]
    simp
  refine ignores_of_head hhead (.inr ?_)
  rintro ⟨hlow, hhigh⟩
  obtain hx | rfl := Lexer.munch_blank hm hkind x (List.mem_cons_self ..)
  · exact Bool.false_ne_true ((Lexer.isBlank_not_graphic hc hlow hhigh).symm.trans hx)
  · exact absurd hlow (by decide)

/-- Every expression is calculated, however it is spaced: it is read as one tree without faults,
and the value of that tree is the value of the expression. -/
theorem parseSource_expression {classes : CharClasses} (hc : classes.SplitsArithmetic)
    {parse : String → Option Nat} (hparse : ParsesNumerals parse) (e : Expression) {source : String}
    (h : Lexer.Spaced classes (e.lexemes.map Lexeme.chars) source.toList) :
    ∃ tree next, catalog.parseSource classes source scope = .ok ⟨next, [tree], []⟩ ∧
      value parse tree = some e.value := by
  obtain ⟨tokens, hscan, hv⟩ := e.shows hc h 0
  have hlex : lexWith classes source = .ok tokens := lexWith_ok.mpr hscan
  have hlexemes := Lexer.isLexeme_of_scan hscan
  obtain ⟨tree, next, hp, hvalue⟩ := e.parse_eq hparse hv fun t ht hb =>
    ignores_blank hc (hlexemes t ht) hb
  refine ⟨tree, next, ?_, hvalue⟩
  rw [parseSource, hlex]
  exact congrArg Except.ok hp

namespace Sample

def one : Factor := .number ⟨['1'], by decide, by simp⟩

def twentyTwo : Factor := .number ⟨['2', '2'], by decide, by simp⟩

def product : Expression :=
  .term (.times (.factor (.group (.plus (.term (.factor one)) (.factor twentyTwo)))) twentyTwo)

theorem product_spaced {classes : CharClasses} (hc : classes.SplitsArithmetic) :
    Lexer.Spaced classes (product.lexemes.map Lexeme.chars)
      [' ', '(', '1', ' ', '+', '2', '2', ')', '*', '\n', '2', '2'] := by
  have hspace : Lexer.isBlank classes ' ' = true ∨ ' ' = '\n' :=
    .inl (by simp [Lexer.isBlank, hc.space])
  exact .blank hspace (.text (.text (.blank hspace (.text (.text (.text (.text (.blank (.inr rfl)
    (.text .nil)))))))))

end Sample

theorem parseSource_product :
    CharClasses.unicode.SplitsArithmetic ∧ ParsesNumerals Text.parseDecimal ∧
      Lexer.Spaced .unicode (Sample.product.lexemes.map Lexeme.chars) " (1 +22)*\n22".toList ∧
      ∃ tree next, catalog.parseSource .unicode " (1 +22)*\n22" scope = .ok ⟨next, [tree], []⟩ ∧
        value Text.parseDecimal tree = some 506 := by
  have hc := CharClasses.unicode_splitsArithmetic
  have hparse := parsesNumerals_parseDecimal
  have hspaced := Sample.product_spaced hc
  exact ⟨hc, hparse, hspaced, parseSource_expression hc hparse Sample.product hspaced⟩

end Distfix.Calculator
