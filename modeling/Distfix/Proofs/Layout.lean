import Distfix.Parse
import Distfix.Proofs.EssenceMatching
import Distfix.Proofs.EssenceResolving

namespace Distfix

/-- The same expressions are shown, and the same faults are reported, wherever they are. -/
structure SameShown (r r' : Outcome (List SyntaxTree)) : Prop where
  shown_eq : r.value.map SyntaxTree.render = r'.value.map SyntaxTree.render
  faults_eq : r.errors.map ParseError.fault = r'.errors.map ParseError.fault

namespace SameShown

variable {r r' r'' : Outcome (List SyntaxTree)}

theorem symm (h : SameShown r r') : SameShown r' r := ⟨h.shown_eq.symm, h.faults_eq.symm⟩

theorem trans (h : SameShown r r') (h' : SameShown r' r'') : SameShown r r'' :=
  ⟨h.shown_eq.trans h'.shown_eq, h.faults_eq.trans h'.faults_eq⟩

end SameShown

theorem SyntaxTree.render_essences {lines : Bool} {c : Catalog} {trees trees' : List SyntaxTree}
    (h : List.Forall₂ (Essence lines fun o => ∀ i, o = .operator i → c.Finds i) trees trees') :
    trees'.map render = trees.map render := by
  induction h with
  | nil => rfl
  | cons h _ ih => rw [List.map_cons, List.map_cons, h.render_eq, ih]

namespace Catalog

variable {c : Catalog} {scope : Scope} {lines : Bool}

theorem ignores_of_definitions {text : String}
    (h : ∀ d ∈ c.definitions, ∀ s ∈ d.separators, s.accepts text = false) (scope : Scope) :
    c.Ignores scope text := by
  intro s _ o ho
  obtain ⟨e, -, he⟩ := List.mem_filterMap.mp ho
  obtain ⟨d, hd, rfl⟩ := Option.map_eq_some_iff.mp he
  exact h d (Array.mem_of_getElem? hd)

theorem parse_essence {tokens : List Token}
    (hts : ∀ t ∈ tokens, t.isBlank = true → c.Ignores scope t.text)
    (hk : ∀ o ∈ c.operators scope, o.2.keepsNewline = true → lines = true) :
    SameShown (c.parse tokens scope) (c.parse (Token.essence lines tokens) scope) := by
  have hflat : SameItems lines (c.flatten tokens 0 scope)
      (c.flatten (Token.essence lines tokens) 0 scope) :=
    flatten_essence fun t ht hs => hts t ht (Operand.isBlank_of_isSkipped hs)
  have hfound : ∀ i, .operator i ∈ (c.flatten tokens 0 scope).value →
      c.Finds i ∧ (i.op, i.definition) ∈ c.operators scope := by
    intro i hi
    obtain ⟨t, us, n, hm⟩ := firstMatch_of_mem_flatten hi
    exact finds_of_firstMatch hm
  have hP : ∀ o ∈ (c.flatten tokens 0 scope).value, ∀ i, o = .operator i → c.Finds i := by
    rintro o ho i rfl
    exact (hfound i ho).1
  have hkeeps : ∀ o ∈ (c.flatten tokens 0 scope).value, o.keepsNewline = true → lines = true := by
    intro o ho hkeep
    cases o with
    | token t => cases hkeep
    | operator i => exact hk _ (hfound i ho).2 hkeep
  have htrees := resolveAll_essence hP hkeeps
  rw [← hflat.value_eq] at htrees
  refine ⟨(SyntaxTree.render_essences htrees.trees).symm, ?_⟩
  rw [parse, parse, List.map_append, List.map_append, hflat.faults_eq, htrees.faults_eq]

/-- Blank tokens that are no keywords may be put anywhere or left out: the expressions look the
same, and so do the faults. Only where an operator keeps newlines must these stay. -/
theorem parse_independent_of_layout (c : Catalog) {scope : Scope} {xs ys : List Token}
    (hblank : ∀ t ∈ xs ++ ys, t.isBlank = true → c.Ignores scope t.text) :
    (Token.essence true xs = Token.essence true ys →
        SameShown (c.parse xs scope) (c.parse ys scope)) ∧
      ((∀ o ∈ c.operators scope, o.2.keepsNewline = false) →
        Token.essence false xs = Token.essence false ys →
        SameShown (c.parse xs scope) (c.parse ys scope)) := by
  obtain ⟨hxs, hys⟩ := List.forall_mem_append.mp hblank
  have hsame : ∀ lines, (∀ o ∈ c.operators scope, o.2.keepsNewline = true → lines = true) →
      Token.essence lines xs = Token.essence lines ys →
      SameShown (c.parse xs scope) (c.parse ys scope) := by
    intro lines hk he
    have hx := parse_essence hxs hk
    rw [he] at hx
    exact hx.trans (parse_essence hys hk).symm
  refine ⟨hsame true fun _ _ _ => rfl, fun hk => hsame false fun o ho hkeep => ?_⟩
  exact absurd ((hk o ho).symm.trans hkeep) Bool.false_ne_true

end Catalog

namespace Sample

def space : Token := ⟨.whitespace, "  ", ⟨0, 2⟩⟩

def newline : Token := ⟨.newline, "\n", ⟨2, 3⟩⟩

def spaced (blank : Token) : List Token :=
  blank :: ["<", "[", "<"].map symbol ++ blank :: blank :: ["]", "|"].map symbol ++ blank ::
    ["a", ">"].map symbol

end Sample

theorem Catalog.spaced_shown :
    (∀ blank ∈ [Sample.space, Sample.newline], ∀ t ∈ Sample.spaced blank ++ Sample.tokens,
        t.isBlank = true → Sample.catalog.Ignores Sample.scope t.text) ∧
      Token.essence true (Sample.spaced Sample.space) = Token.essence true Sample.tokens ∧
      SameShown (Sample.catalog.parse (Sample.spaced Sample.space) Sample.scope)
        (Sample.catalog.parse Sample.tokens Sample.scope) ∧
      (∀ o ∈ Sample.catalog.operators Sample.scope, o.2.keepsNewline = false) ∧
      Token.essence false (Sample.spaced Sample.newline) = Token.essence false Sample.tokens ∧
      SameShown (Sample.catalog.parse (Sample.spaced Sample.newline) Sample.scope)
        (Sample.catalog.parse Sample.tokens Sample.scope) ∧
      (Sample.catalog.parse Sample.tokens Sample.scope).value.map SyntaxTree.render =
        ["[< [[ < ]] | a >]"] := by
  have hblank : ∀ blank ∈ [Sample.space, Sample.newline],
      ∀ t ∈ Sample.spaced blank ++ Sample.tokens, t.isBlank = true →
        Sample.catalog.Ignores Sample.scope t.text := by
    have hnone : ∀ blank ∈ [Sample.space, Sample.newline],
        ∀ t ∈ Sample.spaced blank ++ Sample.tokens, t.isBlank = true →
          ∀ d ∈ Sample.catalog.definitions, ∀ s ∈ d.separators, s.accepts t.text = false := by
      decide
    exact fun blank hm t ht hb => ignores_of_definitions (hnone blank hm t ht hb) _
  have hkeeps : ∀ o ∈ Sample.catalog.operators Sample.scope, o.2.keepsNewline = false := by decide
  have hspace := parse_independent_of_layout Sample.catalog (hblank Sample.space (by simp))
  have hnewline := parse_independent_of_layout Sample.catalog (hblank Sample.newline (by simp))
  exact ⟨hblank, rfl, hspace.1 rfl, hkeeps, rfl, hnewline.2 hkeeps rfl,
    by decide +kernel⟩

end Distfix
