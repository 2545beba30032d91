import Distfix.Proofs.Powers

namespace Distfix

/-- The nodes fit their items, all powers are respected, and nothing on the left spine binds as
loosely as `min`. -/
structure SyntaxTree.Correct (min : Nat) (t : SyntaxTree) : Prop where
  shaped : t.Shaped
  respects : t.Respects
  above : ∀ l ∈ t.leftPowers, min < l

namespace SyntaxTree.Correct

variable {item : Operand} {lhs rhs : SyntaxTree} {min left right : Nat}

theorem leaf (hb : item.isBlank = false) (hf : item.fixity = .closed) (min : Nat) :
    (SyntaxTree.leaf item).Correct min := ⟨⟨hb, hf⟩, trivial, nofun⟩

theorem between (hf : item.fixity = .between left right) (hmin : min < left)
    (hl : lhs.Correct min) (hr : rhs.Correct right) (hright : ∀ r ∈ lhs.rightPowers, left ≤ r) :
    (SyntaxTree.between item lhs rhs).Correct min where
  shaped := ⟨⟨left, right, hf⟩, hl.shaped, hr.shaped⟩
  respects := by
    refine ⟨fun left' h => ?_, fun right' h => ?_, hl.respects, hr.respects⟩
    · rw [hf] at h
      obtain rfl := Option.some.inj h
      exact hright
    · rw [hf] at h
      obtain rfl := Option.some.inj h
      exact hr.above
  above := by
    rw [leftPowers, hf]
    exact List.forall_mem_cons.mpr ⟨hmin, hl.above⟩

theorem weaken (h : lhs.Correct min) (hle : left ≤ min) : lhs.Correct left :=
  ⟨h.shaped, h.respects, fun l hl => Nat.lt_of_le_of_lt hle (h.above l hl)⟩

end SyntaxTree.Correct

namespace Resolution

open Phrase

def advance (n : Nat) (r : Resolution) : Resolution := { r with length := r.length + n }

theorem after_nil (r : Resolution) : r.after [] = r := rfl

theorem advance_further (n : Nat) (r : Resolution) : r.further.advance n = r.advance (n + 1) := by
  rw [advance, further, advance, Nat.add_assoc, Nat.add_comm 1]

theorem advance_advance (m n : Nat) (r : Resolution) :
    (r.advance m).advance n = r.advance (n + m) := by
  rw [advance, advance, advance, Nat.add_assoc, Nat.add_comm m]

variable (ends : Nat)

theorem extension_append (lhs : SyntaxTree) (xs rest : List Operand) (i min : Nat) (stop : Bool) :
    extension ends lhs (xs ++ rest) xs.length i min stop =
      (extension ends lhs rest 0 (i + xs.length) min stop).advance xs.length := by
  induction xs generalizing i with
  | nil => rfl
  | cons x xs ih =>
    have hi : i + 1 + xs.length = i + (xs.length + 1) := by omega
    rw [List.cons_append, List.length_cons, extension, ih, hi]
    rfl

theorem extension_of_halts {items : List Operand} {min : Nat} {stop : Bool}
    (h : Halts min stop items) (lhs : SyntaxTree) (i : Nat) :
    extension ends lhs items 0 i min stop = ⟨lhs, 0, []⟩ := by
  induction items generalizing i with
  | nil => rfl
  | cons o items ih =>
    cases o with
    | token t =>
      rw [extension]
      split
      · rename_i hs
        have htail : Halts min stop items := fun blanks o rest he hb =>
          h (.token t :: blanks) o rest (congrArg _ he) (List.forall_mem_cons.mpr ⟨hs, hb⟩)
        rw [ih htail]
        rfl
      · rfl
    | operator o =>
      have hl := h [] (.operator o) items rfl (List.forall_mem_nil _)
      rw [extension]
      cases hf : o.definition.fixity with
      | closed => rfl
      | before right => rfl
      | after left =>
        exact if_pos (hl left (by simp [Operand.fixity, hf, Fixity.left?]))
      | between left right =>
        exact if_pos (hl left (by simp [Operand.fixity, hf, Fixity.left?]))

/-- What the resolver makes of the items of a tree, whatever follows them: it has read the tree and
goes on after it. -/
def Rebuilds (t : SyntaxTree) : Prop :=
  ∀ min rest i, (∀ l ∈ t.leftPowers, min < l) → (∀ r ∈ t.rightPowers, Halts r false rest) →
    expression ends (t.items ++ rest) i min false =
      (extension ends t rest 0 (i + t.items.length) min false).advance t.items.length

variable {ends} {item : Operand} {lhs rhs : SyntaxTree} {left right : Nat}

theorem Rebuilds.operand (h : Rebuilds ends rhs) (hl : ∀ l ∈ rhs.leftPowers, right < l)
    {rest : List Operand} (hr : ∀ r ∈ rhs.rightPowers, Halts r false rest)
    (hh : Halts right false rest) (i : Nat) :
    expression ends (rhs.items ++ rest) i right false = ⟨rhs, rhs.items.length, []⟩ := by
  rw [h right rest i hl hr, extension_of_halts ends hh, advance, Nat.zero_add]

theorem halts_operator {o : Instance} (hf : (Operand.operator o).fixity.left? = some left) {r : Nat}
    (hr : left ≤ r) (rest : List Operand) : Halts r false (.operator o :: rest) := by
  refine .operator fun l hl => ?_
  obtain rfl := Option.some.inj (hf.symm.trans hl)
  exact hr

theorem rebuilds_leaf (hb : item.isBlank = false) (hf : item.fixity = .closed) :
    Rebuilds ends (.leaf item) := by
  intro min rest i _ _
  change expression ends (item :: rest) i min false = _
  cases item with
  | token t =>
    have ht : t.isBlank = false := hb
    rw [expression, if_neg (by simp [ht])]
    rfl
  | operator o =>
    have ho : o.definition.fixity = .closed := hf
    simp only [expression, ho]
    rfl

theorem Rebuilds.before (h : Rebuilds ends rhs) (hf : item.fixity = .before right)
    (hk : item.keepsNewline = false) (hr : ∀ l ∈ rhs.leftPowers, right < l) :
    Rebuilds ends (.before item rhs) := by
  cases item with
  | token t => cases hf
  | operator o =>
    intro min rest i _ hrest
    simp only [SyntaxTree.rightPowers, hf, Fixity.right?, Option.toList_some,
      List.singleton_append, List.forall_mem_cons] at hrest
    have ho : o.definition.fixity = .before right := hf
    have hn : o.definition.keepsNewline = false := hk
    have hi : i + (rhs.items.length + 1) = i + 1 + rhs.items.length := by omega
    rw [SyntaxTree.items, List.cons_append, List.length_cons, hi]
    simp only [expression, ho, hn, Bool.or_false, h.operand hr hrest.2 hrest.1, extension_append]
    rfl

theorem Rebuilds.after (h : Rebuilds ends lhs) (hf : item.fixity = .after left)
    (hl : ∀ r ∈ lhs.rightPowers, left ≤ r) : Rebuilds ends (.after item lhs) := by
  cases item with
  | token t => cases hf
  | operator o =>
    intro min rest i hmin _
    simp only [SyntaxTree.leftPowers, hf, Fixity.left?, Option.toList_some,
      List.singleton_append, List.forall_mem_cons] at hmin
    have ho : o.definition.fixity = .after left := hf
    have hends : ∀ r ∈ lhs.rightPowers, Halts r false (.operator o :: rest) := fun r hm =>
      halts_operator (by rw [hf]; rfl) (hl r hm) rest
    rw [SyntaxTree.items, List.append_assoc, List.singleton_append, h min _ i hmin.2 hends,
      extension]
    simp only [ho, if_neg (Nat.not_le.mpr hmin.1), List.length_append, List.length_singleton]
    exact advance_further _ _

theorem Rebuilds.between (hlhs : Rebuilds ends lhs) (hrhs : Rebuilds ends rhs)
    (hf : item.fixity = .between left right) (hk : item.keepsNewline = false)
    (hl : ∀ r ∈ lhs.rightPowers, left ≤ r) (hr : ∀ l ∈ rhs.leftPowers, right < l) :
    Rebuilds ends (.between item lhs rhs) := by
  cases item with
  | token t => cases hf
  | operator o =>
    intro min rest i hmin hrest
    simp only [SyntaxTree.leftPowers, hf, Fixity.left?, Option.toList_some,
      List.singleton_append, List.forall_mem_cons] at hmin
    simp only [SyntaxTree.rightPowers, hf, Fixity.right?, Option.toList_some,
      List.singleton_append, List.forall_mem_cons] at hrest
    have ho : o.definition.fixity = .between left right := hf
    have hn : o.definition.keepsNewline = false := hk
    have hends : ∀ r ∈ lhs.rightPowers, Halts r false (.operator o :: (rhs.items ++ rest)) :=
      fun r hm => halts_operator (by rw [hf]; rfl) (hl r hm) _
    have hlen : lhs.items.length + (rhs.items.length + 1) =
        lhs.items.length + 1 + rhs.items.length := by omega
    rw [SyntaxTree.items, List.append_assoc, List.cons_append, hlhs min _ i hmin.2 hends, extension]
    simp only [ho, hn, Bool.or_false, if_neg (Nat.not_le.mpr hmin.1),
      hrhs.operand hr hrest.2 hrest.1, extension_append, List.length_append, List.length_cons]
    rw [hlen, ← Nat.add_assoc, ← Nat.add_assoc, after_nil, advance_further, advance_advance]

/-- The resolver rebuilds a tree that respects the powers from its items. -/
theorem rebuilds (ends : Nat) {t : SyntaxTree} (hs : t.Shaped) (hr : t.Respects)
    (hk : ∀ o ∈ t.items, o.fixity ≠ .closed → o.keepsNewline = false) : Rebuilds ends t := by
  -- what follows the tree is left open, for an operand is followed by the rest of its expression
  induction t with
  | leaf item => exact rebuilds_leaf hs.1 hs.2
  | before item rhs ih =>
    obtain ⟨⟨right, hf⟩, hrhs⟩ := hs
    obtain ⟨hitem, hks⟩ := List.forall_mem_cons.mp hk
    exact (ih hrhs hr.2 hks).before hf (hitem (by simp [hf]))
      (hr.1 right (by simp [hf, Fixity.right?]))
  | after item lhs ih =>
    obtain ⟨⟨left, hf⟩, hlhs⟩ := hs
    obtain ⟨hks, -⟩ := List.forall_mem_append.mp hk
    exact (ih hlhs hr.2 hks).after hf (hr.1 left (by simp [hf, Fixity.left?]))
  | between item lhs rhs ihl ihr =>
    obtain ⟨⟨left, right, hf⟩, hlhs, hrhs⟩ := hs
    obtain ⟨hleft, hright, hrl, hrr⟩ := hr
    obtain ⟨hkl, hks⟩ := List.forall_mem_append.mp hk
    obtain ⟨hitem, hkr⟩ := List.forall_mem_cons.mp hks
    exact (ihl hlhs hrl hkl).between (ihr hrhs hrr hkr) hf (hitem (by simp [hf]))
      (hleft left (by simp [hf, Fixity.left?])) (hright right (by simp [hf, Fixity.right?]))

theorem program_length (ends : Nat) (items : List Operand) (i : Nat) :
    program ends items items.length i = ⟨i, [], []⟩ := by
  induction items with
  | nil => rfl
  | cons item items ih => exact ih

end Resolution

namespace Phrase

theorem map_fst_solid (xs : List (Operand × Nat)) :
    (solid xs).map Prod.fst = Operand.solid (xs.map Prod.fst) := by
  rw [solid, Operand.solid, List.filter_map]
  rfl

theorem tree_of_errors_nil {p : Phrase} {count : Nat} {e : ParseError} (h : p.errors count e = [])
    (ends offset : Nat) :
    p.isAbsent = false ∧ p.trimmed = p.tree ends offset ∧
      (p.tree ends offset).items = p.places.map Prod.fst := by
  induction p generalizing e offset with
  | absent => cases h
  | leaf item i => exact ⟨rfl, rfl, rfl⟩
  | before o i rhs ih =>
    obtain ⟨-, ht, hi⟩ := ih h ends
    exact ⟨rfl, by rw [trimmed, ht, tree], by simp [tree, SyntaxTree.items, places, hi]⟩
  | after o i lhs ih =>
    obtain ⟨hne, ht, hi⟩ := ih h o.span.start
    exact ⟨rfl, by rw [trimmed_after hne, ht, tree], by simp [tree, SyntaxTree.items, places, hi]⟩
  | between o i lhs rhs ihl ihr =>
    obtain ⟨hl, hr⟩ := List.append_eq_nil_iff.mp h
    obtain ⟨hne, htl, hil⟩ := ihl hl o.span.start
    obtain ⟨-, htr, hir⟩ := ihr hr ends
    exact ⟨rfl, by rw [trimmed_between hne, htl, htr, tree],
      by simp [tree, SyntaxTree.items, places, hil, hir]⟩

theorem mem_items_tree {p : Phrase} {ends offset : Nat} {o : Operand}
    (h : o ∈ (p.tree ends offset).items) :
    o ∈ p.places.map Prod.fst ∨ ∃ a, o = .token (.missing a) := by
  induction p generalizing offset with
  | absent => exact .inr ⟨offset, List.mem_singleton.mp h⟩
  | leaf item i => exact .inl h
  | before i n rhs ih =>
    obtain rfl | h := List.mem_cons.mp h
    · exact .inl (List.mem_cons_self ..)
    · exact (ih h).imp_left (List.mem_cons_of_mem _)
  | after i n lhs ih =>
    rw [places, List.map_append]
    obtain h | h := List.mem_append.mp h
    · exact (ih h).imp_left (List.mem_append_left _)
    · exact .inl (List.mem_append_right _ h)
  | between i n lhs rhs ihl ihr =>
    rw [places, List.map_append]
    obtain h | h := List.mem_append.mp h
    · exact (ihl h).imp_left (List.mem_append_left _)
    · obtain rfl | h := List.mem_cons.mp h
      · exact .inl (List.mem_append_right _ (List.mem_cons_self ..))
      · exact (ihr h).imp_left fun h => List.mem_append_right _ (List.mem_cons_of_mem _ h)

end Phrase

theorem mem_items_of_resolveAll {items : List Operand} {t : SyntaxTree}
    (ht : t ∈ (resolveAll items).value) {o : Operand} (ho : o ∈ t.items) :
    o ∈ items ∨ ∃ a, o = .token (.missing a) := by
  obtain ⟨ps, hd, -⟩ := Phrase.exists_describeAll items
  rw [hd.value_eq] at ht
  obtain ⟨p, hp, rfl⟩ := List.mem_map.mp ht
  refine (Phrase.mem_items_tree ho).imp_left fun hplace => ?_
  obtain ⟨x, hx, rfl⟩ := List.mem_map.mp hplace
  have hmem : x ∈ Phrase.solid items.zipIdx := hd.places_eq ▸ List.mem_flatMap.mpr ⟨p, hp, hx⟩
  exact List.fst_mem_of_mem_zipIdx (List.mem_filter.mp hmem).1

namespace SyntaxTree

theorem Correct.resolve_items {t : SyntaxTree} {min : Nat} (h : t.Correct min)
    (hk : ∀ o ∈ t.items, o.fixity ≠ .closed → o.keepsNewline = false) :
    resolve t.items 0 min false = ⟨t.items.length, t, []⟩ := by
  have hr := Resolution.rebuilds (endOffset t.items) h.shaped h.respects hk min [] 0 h.above
    fun r _ => Phrase.halts_nil r false
  rw [List.append_nil] at hr
  rw [resolve, List.drop_zero, hr]
  simp [Resolution.extension, Resolution.advance]

theorem Shaped.not_isBlank {t : SyntaxTree} (h : t.Shaped) : ∀ o ∈ t.items, o.isBlank = false := by
  have hopen : ∀ o : Operand, o.fixity ≠ .closed → o.isBlank = false := by
    intro o ho
    cases o with
    | token t => exact absurd rfl ho
    | operator i => rfl
  induction t with
  | leaf item => exact List.forall_mem_singleton.mpr h.1
  | before item rhs ih =>
    obtain ⟨⟨right, hf⟩, hr⟩ := h
    exact List.forall_mem_cons.mpr ⟨hopen item (by simp [hf]), ih hr⟩
  | after item lhs ih =>
    obtain ⟨⟨left, hf⟩, hl⟩ := h
    exact List.forall_mem_append.mpr
      ⟨ih hl, List.forall_mem_singleton.mpr (hopen item (by simp [hf]))⟩
  | between item lhs rhs ihl ihr =>
    obtain ⟨⟨left, right, hf⟩, hl, hr⟩ := h
    exact List.forall_mem_append.mpr
      ⟨ihl hl, List.forall_mem_cons.mpr ⟨hopen item (by simp [hf]), ihr hr⟩⟩

theorem items_ne_nil (t : SyntaxTree) : t.items ≠ [] := by
  cases t <;> simp [items]

theorem Correct.resolveAll_items {t : SyntaxTree} (h : t.Correct 0)
    (hk : ∀ o ∈ t.items, o.fixity ≠ .closed → o.keepsNewline = false) :
    resolveAll t.items = ⟨t.items.length, [t], []⟩ := by
  have hr := h.resolve_items hk
  have hb := h.shaped.not_isBlank
  rw [resolve, List.drop_zero] at hr
  rw [resolveAll]
  generalize endOffset t.items = ends at hr ⊢
  cases hi : t.items with
  | nil => exact absurd hi t.items_ne_nil
  | cons o items =>
    rw [hi] at hr hb
    have hlen : 0 + (Resolution.expression ends (o :: items) 0 0 false).length = items.length + 1 :=
      congrArg Outcome.next hr
    have htree : (Resolution.expression ends (o :: items) 0 0 false).tree = t :=
      congrArg Outcome.value hr
    have herrors : (Resolution.expression ends (o :: items) 0 0 false).errors = [] :=
      congrArg Outcome.errors hr
    rw [Nat.zero_add] at hlen
    rw [Resolution.program, hb o (List.mem_cons_self ..), if_neg Bool.false_ne_true]
    simp only [hlen, htree, herrors, Nat.add_sub_cancel, Resolution.program_length]
    simp

theorem correct_of_errors_nil {items : List Operand} {index min : Nat}
    (hk : ∀ o ∈ items, o.fixity ≠ .closed → o.keepsNewline = false)
    (he : (resolve items index min false).errors = []) :
    (resolve items index min false).value.Correct min ∧
      (resolve items index min false).value.items =
        Operand.solid ((items.take (resolve items index min false).next).drop index) := by
  obtain ⟨p, hp, hr⟩ := Phrase.exists_describes items index min false
  obtain ⟨hbounded, -⟩ := hr.bounded rfl
    (fun x hx => hk x.1 (List.fst_mem_of_mem_zipIdx (List.mem_of_mem_drop hx))) nofun
  rw [hp.errors_eq] at he
  obtain ⟨-, ht, hi⟩ := Phrase.tree_of_errors_nil he (endOffset items) (endOffset items)
  rw [hp.value_eq]
  refine ⟨⟨hr.shaped _ nofun _, ht ▸ hbounded.respects, ht ▸ hbounded.above⟩, ?_⟩
  rw [hi, hp.places_eq, Phrase.map_fst_solid, List.map_drop, List.map_take, List.zipIdx_map_fst]

/-- The resolver rebuilds a correct tree from its items. What it reads without faults is correct,
so no other tree of these items is. -/
theorem Correct.rebuilt {t : SyntaxTree} {min : Nat} (h : t.Correct min)
    (hk : ∀ o ∈ t.items, o.fixity ≠ .closed → o.keepsNewline = false) :
    resolve t.items 0 min false = ⟨t.items.length, t, []⟩ ∧
      ∀ items index, (∀ o ∈ items, o.fixity ≠ .closed → o.keepsNewline = false) →
        (resolve items index min false).errors = [] →
        (resolve items index min false).value.Correct min ∧
          (resolve items index min false).value.items =
            Operand.solid ((items.take (resolve items index min false).next).drop index) ∧
          ((resolve items index min false).value.items = t.items →
            (resolve items index min false).value = t) := by
  refine ⟨h.resolve_items hk, fun items index hks he => ?_⟩
  obtain ⟨hc, hi⟩ := correct_of_errors_nil hks he
  refine ⟨hc, hi, fun heq => ?_⟩
  have hu := hc.resolve_items (by rw [heq]; exact hk)
  rw [heq, h.resolve_items hk] at hu
  exact (congrArg Outcome.value hu).symm

end SyntaxTree

def Sample.product : SyntaxTree :=
  .between plus (.leaf (letter "x"))
    (.between times (.leaf (letter "y")) (.after percent (.leaf (letter "z"))))

theorem SyntaxTree.product_rebuilt :
    Sample.product.Correct 0 ∧ (∀ o ∈ Sample.product.items, o.keepsNewline = false) ∧
      resolve Sample.product.items 0 0 false = ⟨6, Sample.product, []⟩ := by
  have hc : Sample.product.Correct 0 := by
    refine ⟨?_, ?_, ?_⟩ <;>
      simp [Sample.product, Sample.plus, Sample.times, Sample.percent, Sample.letter, Sample.sign,
        Shaped, Respects, leftPowers, rightPowers, Operand.fixity, Operand.isBlank, Token.isBlank,
        Fixity.left?, Fixity.right?]
  have hk : ∀ o ∈ Sample.product.items, o.keepsNewline = false := by
    simp [Sample.product, Sample.plus, Sample.times, Sample.percent, Sample.letter, Sample.sign,
      items, Operand.keepsNewline]
  exact ⟨hc, hk, (hc.rebuilt fun o ho _ => hk o ho).1⟩

end Distfix
