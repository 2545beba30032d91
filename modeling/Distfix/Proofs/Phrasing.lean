import Distfix.Proofs.Phrase

namespace Distfix

namespace Phrase

theorem tree_offset {p : Phrase} (h : p.isAbsent = false) (ends a b : Nat) :
    p.tree ends a = p.tree ends b := by
  cases p with
  | absent => cases h
  | leaf item i => rfl
  | before o i rhs => rfl
  | after o i lhs => rfl
  | between o i lhs rhs => rfl

theorem errors_fault {p : Phrase} (h : p.isAbsent = false) (count : Nat) (e e' : ParseError) :
    p.errors count e = p.errors count e' := by
  cases p with
  | absent => cases h
  | leaf item i => rfl
  | before o i rhs => rfl
  | after o i lhs => rfl
  | between o i lhs rhs => rfl

theorem Halts.cons {min : Nat} {stop : Bool} {o : Operand} {items : List Operand}
    (ho : ∀ l, o.fixity.left? = some l → l ≤ min)
    (h : o.isSkipped stop = true → Halts min stop items) : Halts min stop (o :: items) := by
  intro blanks o' rest hs hb l hl
  cases blanks with
  | nil =>
    obtain ⟨rfl, -⟩ := List.cons.inj hs
    exact ho l hl
  | cons b blanks =>
    obtain ⟨rfl, htail⟩ := List.cons.inj hs
    exact h (hb _ (by simp)) blanks o' rest htail (fun b hm => hb b (by simp [hm])) l hl

theorem Halts.token {min : Nat} {stop : Bool} {t : Token} {items : List Operand}
    (h : (Operand.token t).isSkipped stop = true → Halts min stop items) :
    Halts min stop (.token t :: items) := .cons nofun h

theorem Halts.operator {min : Nat} {stop : Bool} {o : Instance} {items : List Operand}
    (h : ∀ l, o.definition.fixity.left? = some l → l ≤ min) :
    Halts min stop (.operator o :: items) := .cons h nofun

theorem halts_nil (min : Nat) (stop : Bool) : Halts min stop [] := by
  intro blanks o rest h
  simp at h

theorem Reads.suffix {lhs : Option Phrase} {min : Nat} {stop : Bool} {xs ys : List (Operand × Nat)}
    {p : Phrase} (h : Reads lhs min stop xs p ys) : ys <:+ xs := by
  induction h with
  | absent => exact List.suffix_rfl
  | blank hb h ih => exact ih.trans (List.suffix_cons _ _)
  | leaf hb hf h ih => exact ih.trans (List.suffix_cons _ _)
  | before hf hr h ihr ih => exact ih.trans (ihr.trans (List.suffix_cons _ _))
  | leadingAfter hf h ih => exact ih.trans (List.suffix_cons _ _)
  | leadingBetween hf hr h ihr ih => exact ih.trans (ihr.trans (List.suffix_cons _ _))
  | done h => exact List.suffix_rfl
  | after blanks hb hf hl h ih =>
    exact ih.trans ((List.suffix_cons _ _).trans (List.suffix_append _ _))
  | between blanks hb hf hl hr h ihr ih =>
    exact ih.trans (ihr.trans ((List.suffix_cons _ _).trans (List.suffix_append _ _)))

theorem Reads.halts {q : Phrase} {min : Nat} {stop : Bool} {xs : List (Operand × Nat)} {p : Phrase}
    (h : Reads (some q) min stop xs p xs) : Halts min stop (xs.map Prod.fst) ∧ p = q := by
  cases h with
  | done h => exact ⟨h, rfl⟩
  | after blanks hb hf hl h =>
    have := h.suffix.length_le
    simp at this
    omega
  | between blanks hb hf hl hr h =>
    have := (h.suffix.trans hr.suffix).length_le
    simp at this
    omega

theorem Reads.cons_skipped {q : Phrase} {min : Nat} {stop : Bool} {xs ys : List (Operand × Nat)}
    {p : Phrase} (h : Reads (some q) min stop xs p ys) (hne : ys ≠ xs) {x : Operand × Nat}
    (hx : x.1.isSkipped stop = true) : Reads (some q) min stop (x :: xs) p ys := by
  cases h with
  | done h => exact absurd rfl hne
  | after blanks hb hf hl h =>
    exact .after (x :: blanks) (List.forall_mem_cons.mpr ⟨hx, hb⟩) hf hl h
  | between blanks hb hf hl hr h =>
    exact .between (x :: blanks) (List.forall_mem_cons.mpr ⟨hx, hb⟩) hf hl hr h

section Places

variable {o : Instance} {i : Nat} {lhs rhs : Phrase} {xs ys blanks : List (Operand × Nat)}

theorem places_before (h : rhs.places ++ solid ys = solid xs) :
    (before o i rhs).places ++ solid ys = solid ((.operator o, i) :: xs) := by
  rw [solid_cons_item rfl, ← h]
  rfl

theorem places_after {stop : Bool} (hb : ∀ b ∈ blanks, b.1.isSkipped stop = true) :
    (after o i lhs).places ++ solid xs =
      lhs.places ++ solid (blanks ++ (.operator o, i) :: xs) := by
  rw [solid_skipped hb, solid_cons_item rfl]
  exact List.append_assoc ..

theorem places_between {stop : Bool} (hb : ∀ b ∈ blanks, b.1.isSkipped stop = true)
    (h : rhs.places ++ solid ys = solid xs) :
    (between o i lhs rhs).places ++ solid ys =
      lhs.places ++ solid (blanks ++ (.operator o, i) :: xs) := by
  rw [solid_skipped hb, solid_cons_item rfl, ← h]
  exact List.append_assoc ..

end Places

theorem Reads.places_append {lhs : Option Phrase} {min : Nat} {stop : Bool}
    {xs ys : List (Operand × Nat)} {p : Phrase} (h : Reads lhs min stop xs p ys) :
    p.places ++ solid ys = (lhs.elim [] places) ++ solid xs := by
  induction h with
  | absent => rfl
  | blank hb h ih => rw [ih, solid_cons_blank hb]
  | leaf hb hf h ih =>
    rw [ih, solid_cons_item hb]
    rfl
  | before hf hr h ihr ih => exact ih.trans (places_before ihr)
  | leadingAfter hf h ih =>
    rw [ih, solid_cons_item rfl]
    rfl
  | leadingBetween hf hr h ihr ih => exact ih.trans (places_before ihr)
  | done h => rfl
  | after blanks hb hf hl h ih => exact ih.trans (places_after hb)
  | between blanks hb hf hl hr h ihr ih => exact ih.trans (places_between hb ihr)

theorem Reads.places_subset {q : Phrase} {min : Nat} {stop : Bool} {xs ys : List (Operand × Nat)}
    {p : Phrase} (h : Reads (some q) min stop xs p ys) : q.places ⊆ p.places := by
  have hplaces : p.places ++ solid ys = q.places ++ solid xs := h.places_append
  have hle : (solid ys).length ≤ (solid xs).length := (h.suffix.sublist.filter _).length_le
  have hlen := congrArg List.length hplaces
  rw [List.length_append, List.length_append] at hlen
  have hq : q.places <+: p.places ++ solid ys := hplaces ▸ List.prefix_append _ _
  exact (List.prefix_of_prefix_length_le hq (List.prefix_append _ _) (by omega)).subset

theorem ReadsAll.places_eq {xs : List (Operand × Nat)} {ps : List Phrase} (h : ReadsAll xs ps) :
    ps.flatMap places = solid xs := by
  induction h with
  | nil => rfl
  | blank hb h ih => rw [ih, solid_cons_blank hb]
  | phrase hb hp h ih => rw [List.flatMap_cons, ih, hp.places_append, Option.elim, List.nil_append]

theorem ReadsAll.exists_reads {xs : List (Operand × Nat)} {ps : List Phrase} (h : ReadsAll xs ps)
    {p : Phrase} (hp : p ∈ ps) : ∃ us ys, Reads none 0 false us p ys := by
  induction h with
  | nil => cases hp
  | blank _ _ ih => exact ih hp
  | phrase _ hr _ ih =>
    obtain rfl | hp := List.mem_cons.mp hp
    · exact ⟨_, _, hr⟩
    · exact ih hp

theorem drop_eq_slice_append {α : Type} {l : List α} {i j : Nat} (h : i ≤ j) :
    l.drop i = (l.take j).drop i ++ l.drop j := by
  have hj : l.drop j = (l.drop i).drop (j - i) := by rw [List.drop_drop, Nat.add_sub_cancel' h]
  rw [hj, List.drop_take, List.take_append_drop]

theorem zipIdx_drop {α : Type} (l : List α) (n : Nat) : (l.drop n).zipIdx n = l.zipIdx.drop n := by
  apply List.ext_getElem?
  intro i
  simp [List.getElem?_zipIdx, List.getElem?_drop]

end Phrase

namespace Resolution

open Phrase

variable (ends count : Nat)

/-- The resolution is that of a phrase which is read from `xs`, after `earlier` faults. It leaves
what follows the items that it takes, of which the first has number `i`. -/
structure Follows (lhs : Option Phrase) (earlier : List ParseError) (min : Nat) (stop : Bool)
    (xs : List (Operand × Nat)) (items : List Operand) (i : Nat) (r : Resolution) (p : Phrase) :
    Prop where
  bound : r.length ≤ items.length
  reads : Reads lhs min stop xs p ((items.drop r.length).zipIdx (i + r.length))
  tree_eq : r.tree = p.tree ends ends
  errors_eq : earlier ++ r.errors = p.errors count ⟨count, .valueExpected⟩

def ExpressionFollows (items : List Operand) : Prop :=
  ∀ i min stop, i + items.length = count →
    ∃ p, Follows ends count none [] min stop (items.zipIdx i) items i
      (expression ends items i min stop) p

def ExtensionFollows (items : List Operand) : Prop :=
  ∀ q skip i min stop, q.isAbsent = false → skip ≤ items.length → i + items.length = count →
    ∃ p, Follows ends count (some q) (q.errors count ⟨count, .valueExpected⟩) min stop
      ((items.drop skip).zipIdx (i + skip)) items i
      (extension ends (q.tree ends ends) items skip i min stop) p

variable {ends count} {items : List Operand}

namespace Follows

variable {lhs : Option Phrase} {earlier : List ParseError} {min i : Nat} {stop : Bool}
  {xs : List (Operand × Nat)} {r : Resolution} {p : Phrase}

theorem further (h : Follows ends count lhs earlier min stop xs items (i + 1) r p) (o : Operand) :
    Follows ends count lhs earlier min stop xs (o :: items) i r.further p where
  bound := Nat.succ_le_succ h.bound
  reads := by
    have hi : i + (r.length + 1) = i + 1 + r.length := by omega
    change Reads lhs min stop xs p (((o :: items).drop (r.length + 1)).zipIdx (i + (r.length + 1)))
    rw [List.drop_succ_cons, hi]
    exact h.reads
  tree_eq := h.tree_eq
  errors_eq := h.errors_eq

theorem after (earlier : List ParseError) {errors : List ParseError}
    (h : Follows ends count lhs (earlier ++ errors) min stop xs items i r p) :
    Follows ends count lhs earlier min stop xs items i (r.after errors) p where
  bound := h.bound
  reads := h.reads
  tree_eq := h.tree_eq
  errors_eq := by
    rw [← h.errors_eq, List.append_assoc]
    rfl

theorem errors_eq_of_nil (h : Follows ends count lhs [] min stop xs items i r p) :
    r.errors = p.errors count ⟨count, .valueExpected⟩ := h.errors_eq

theorem rule {lhs' : Option Phrase} {min' : Nat} {stop' : Bool} {xs' : List (Operand × Nat)}
    (h : Follows ends count lhs earlier min stop xs items i r p)
    (hrule : Reads lhs min stop xs p ((items.drop r.length).zipIdx (i + r.length)) →
      Reads lhs' min' stop' xs' p ((items.drop r.length).zipIdx (i + r.length))) :
    Follows ends count lhs' earlier min' stop' xs' items i r p where
  bound := h.bound
  reads := hrule h.reads
  tree_eq := h.tree_eq
  errors_eq := h.errors_eq

end Follows

theorem expressionFollows_token (he : ExpressionFollows ends count items)
    (hx : ExtensionFollows ends count items) (t : Token) :
    ExpressionFollows ends count (.token t :: items) := by
  intro i min stop hi
  have hi' : i + 1 + items.length = count := by
    rw [← hi, List.length_cons]
    omega
  rw [expression]
  cases hb : t.isBlank with
  | true =>
    obtain ⟨p, hp⟩ := he (i + 1) min stop hi'
    exact ⟨p, (hp.further _).rule fun h => .blank hb h⟩
  | false =>
    obtain ⟨p, hp⟩ := hx (.leaf (.token t) i) 0 (i + 1) min stop rfl (Nat.zero_le _) hi'
    exact ⟨p, (hp.further _).rule fun h => .leaf hb rfl h⟩

theorem expressionFollows_operator (he : ExpressionFollows ends count items)
    (hx : ExtensionFollows ends count items) (o : Instance) :
    ExpressionFollows ends count (.operator o :: items) := by
  intro i min stop hi
  have hi' : i + 1 + items.length = count := by
    rw [← hi, List.length_cons]
    omega
  rw [expression]
  cases hf : o.definition.fixity with
  | closed =>
    obtain ⟨p, hp⟩ := hx (.leaf (.operator o) i) 0 (i + 1) min stop rfl (Nat.zero_le _) hi'
    exact ⟨p, (hp.further _).rule fun h => .leaf rfl hf h⟩
  | after left =>
    obtain ⟨p, hp⟩ := hx (.after o i .absent) 0 (i + 1) min stop rfl (Nat.zero_le _) hi'
    exact ⟨p, ((Follows.after [] hp).further _).rule fun h => .leadingAfter hf h⟩
  | before right =>
    obtain ⟨rhs, hr⟩ := he (i + 1) right (stop || o.definition.keepsNewline) hi'
    obtain ⟨p, hp⟩ := hx (.before o i rhs) _ (i + 1) min (stop || o.definition.keepsNewline)
      rfl hr.bound hi'
    dsimp only
    rw [hr.tree_eq, hr.errors_eq_of_nil]
    exact ⟨p, ((Follows.after [] hp).further _).rule fun h => .before hf hr.reads h⟩
  | between left right =>
    obtain ⟨rhs, hr⟩ := he (i + 1) right (stop || o.definition.keepsNewline) hi'
    obtain ⟨p, hp⟩ := hx (.between o i .absent rhs) _ (i + 1) min
      (stop || o.definition.keepsNewline) rfl hr.bound hi'
    dsimp only
    rw [hr.tree_eq, hr.errors_eq_of_nil]
    exact ⟨p, ((Follows.after [] hp).further _).rule fun h =>
      .leadingBetween hf hr.reads h⟩

theorem extensionFollows_token (hx : ExtensionFollows ends count items) (t : Token) :
    ExtensionFollows ends count (.token t :: items) := by
  intro q skip i min stop hq hs hi
  have hi' : i + 1 + items.length = count := by
    rw [← hi, List.length_cons]
    omega
  cases skip with
  | succ skip =>
    obtain ⟨p, hp⟩ := hx q skip (i + 1) min stop hq (Nat.le_of_succ_le_succ hs) hi'
    rw [extension, List.drop_succ_cons, ← Nat.add_assoc, Nat.add_right_comm]
    exact ⟨p, hp.further _⟩
  | zero =>
    obtain ⟨p, hp⟩ := hx q 0 (i + 1) min stop hq (Nat.zero_le _) hi'
    rw [extension]
    split
    · rename_i hskip
      dsimp only
      split
      · rename_i hz
        -- nothing is taken after the blank, so the blank is not taken either
        have hreads := hp.reads
        rw [hz] at hreads
        obtain ⟨hh, rfl⟩ := hreads.halts
        have hhalts : Halts min stop (((Operand.token t :: items).zipIdx i).map Prod.fst) := by
          rw [List.zipIdx_map_fst]
          exact .token fun _ => by simpa using hh
        exact ⟨p,
          { bound := Nat.le_trans (Nat.le_of_eq hz) (Nat.zero_le _)
            reads := by
              rw [hz]
              exact .done hhalts
            tree_eq := hp.tree_eq
            errors_eq := hp.errors_eq }⟩
      · rename_i hz
        refine ⟨p, (hp.further _).rule fun h => h.cons_skipped (fun heq => hz ?_) hskip⟩
        have hlen := congrArg List.length heq
        have hb := hp.bound
        simp only [further, List.length_zipIdx, List.length_drop, List.length_cons] at hlen
        omega
    · rename_i hskip
      have hhalts : Halts min stop (((Operand.token t :: items).zipIdx i).map Prod.fst) :=
        .token fun h => absurd h hskip
      exact ⟨q, ⟨Nat.zero_le _, .done hhalts, rfl, List.append_nil _⟩⟩

theorem extensionFollows_operator (he : ExpressionFollows ends count items)
    (hx : ExtensionFollows ends count items) (o : Instance) :
    ExtensionFollows ends count (.operator o :: items) := by
  intro q skip i min stop hq hs hi
  have hi' : i + 1 + items.length = count := by
    rw [← hi, List.length_cons]
    omega
  cases skip with
  | succ skip =>
    obtain ⟨p, hp⟩ := hx q skip (i + 1) min stop hq (Nat.le_of_succ_le_succ hs) hi'
    rw [extension, List.drop_succ_cons, ← Nat.add_assoc, Nat.add_right_comm]
    exact ⟨p, hp.further _⟩
  | zero =>
    have hend (h : ∀ l, o.definition.fixity.left? = some l → l ≤ min) :
        ∃ p, Follows ends count (some q) (q.errors count ⟨count, .valueExpected⟩) min stop
          ((Operand.operator o :: items).zipIdx i) (.operator o :: items) i
          ⟨q.tree ends ends, 0, []⟩ p :=
      ⟨q, ⟨Nat.zero_le _, .done (.operator h), rfl, List.append_nil _⟩⟩
    rw [extension]
    cases hf : o.definition.fixity with
    | closed => exact hend (by simp [hf, Fixity.left?])
    | before right => exact hend (by simp [hf, Fixity.left?])
    | after left =>
      dsimp only
      split
      · exact hend (by simpa [hf, Fixity.left?])
      · rename_i hl
        obtain ⟨p, hp⟩ := hx (.after o i q) 0 (i + 1) min stop rfl (Nat.zero_le _) hi'
        rw [tree_offset hq ends ends o.span.start,
          errors_fault hq count _ ⟨i, .invalidLeadingOperator o.op⟩]
        exact ⟨p, (hp.further _).rule fun h => .after [] (List.forall_mem_nil _) hf
          (Nat.lt_of_not_le hl) h⟩
    | between left right =>
      dsimp only
      split
      · exact hend (by simpa [hf, Fixity.left?])
      · rename_i hl
        obtain ⟨rhs, hr⟩ := he (i + 1) right (stop || o.definition.keepsNewline) hi'
        obtain ⟨p, hp⟩ := hx (.between o i q rhs) _ (i + 1) min (stop || o.definition.keepsNewline)
          rfl hr.bound hi'
        rw [hr.tree_eq, hr.errors_eq_of_nil, tree_offset hq ends ends o.span.start,
          errors_fault hq count _ ⟨i, .invalidLeadingOperator o.op⟩]
        exact ⟨p, ((Follows.after _ hp).further _).rule fun h =>
          .between [] (List.forall_mem_nil _) hf (Nat.lt_of_not_le hl) hr.reads h⟩

/-- The resolver reads phrases by the rules. -/
theorem expression_follows (ends count : Nat) (items : List Operand) :
    ExpressionFollows ends count items := by
  suffices ExpressionFollows ends count items ∧ ExtensionFollows ends count items from this.1
  -- on the items, since operands are read further to the right
  induction items with
  | nil =>
    refine ⟨?_, ?_⟩
    · rintro i min stop rfl
      exact ⟨.absent, Nat.zero_le _, .absent, rfl, rfl⟩
    · intro q skip i min stop hq hs hi
      obtain rfl : skip = 0 := Nat.le_zero.mp hs
      exact ⟨q, Nat.zero_le _, .done (halts_nil min stop), rfl, List.append_nil _⟩
  | cons o items ih =>
    obtain ⟨he, hx⟩ := ih
    cases o with
    | token t => exact ⟨expressionFollows_token he hx t, extensionFollows_token hx t⟩
    | operator o => exact ⟨expressionFollows_operator he hx o, extensionFollows_operator he hx o⟩

theorem program_follows (ends count : Nat) (items : List Operand) (skip i : Nat)
    (hskip : skip ≤ items.length) (hi : i + (items.length - skip) = count) :
    ∃ ps, ReadsAll ((items.drop skip).zipIdx i) ps ∧
      (program ends items skip i).value = ps.map (fun p => p.tree ends ends) ∧
      (program ends items skip i).errors =
        ps.flatMap (fun p => p.errors count ⟨count, .valueExpected⟩) := by
  induction items generalizing skip i with
  | nil => exact ⟨[], by simpa using ReadsAll.nil, rfl, rfl⟩
  | cons o items ih =>
    rw [List.length_cons] at hskip hi
    cases skip with
    | succ skip => exact ih skip i (by omega) (by omega)
    | zero =>
      rw [program]
      cases hb : o.isBlank with
      | true =>
        obtain ⟨ps, hps, hv, he⟩ := ih 0 (i + 1) (Nat.zero_le _) (by omega)
        exact ⟨ps, .blank hb hps, hv, he⟩
      | false =>
        have hlen := expression_length_pos ends o items i 0 false
        obtain ⟨p, hp⟩ := expression_follows ends count (o :: items) i 0 false hi
        dsimp only
        generalize expression ends (o :: items) i 0 false = r at hlen hp ⊢
        obtain ⟨n, hn⟩ := Nat.exists_eq_succ_of_ne_zero (Nat.ne_of_gt hlen)
        have hbound := hp.bound
        have hreads := hp.reads
        rw [hn, List.length_cons] at hbound
        rw [hn, List.drop_succ_cons] at hreads
        obtain ⟨ps, hps, hv, he⟩ := ih n (i + r.length) (by omega) (by omega)
        rw [hn] at hps hv he
        refine ⟨p :: ps, .phrase hb hreads hps, ?_, ?_⟩
        · simp [hn, hv, hp.tree_eq]
        · simp [hn, he, hp.errors_eq_of_nil]

end Resolution

namespace Phrase

/-- The resolver's answer describes a phrase that is read from the items. -/
theorem exists_describes (items : List Operand) (index min : Nat) (stop : Bool) :
    ∃ p : Phrase, p.Describes items index (resolve items index min stop) ∧
      Reads none min stop (items.zipIdx.drop index) p
        (items.zipIdx.drop (resolve items index min stop).next) := by
  have hcount : index + (items.drop index).length = max index items.length := by
    rw [List.length_drop]
    omega
  obtain ⟨p, hp⟩ := Resolution.expression_follows (endOffset items) (max index items.length)
    (items.drop index) index min stop hcount
  have hnext : index ≤ (resolve items index min stop).next := Nat.le_add_right _ _
  have hreads : Reads none min stop (items.zipIdx.drop index) p
      (items.zipIdx.drop (resolve items index min stop).next) := by
    have h := hp.reads
    rw [List.drop_drop, zipIdx_drop, zipIdx_drop] at h
    exact h
  refine ⟨p, ⟨hp.tree_eq, hp.errors_eq, ?_⟩, hreads⟩
  have hplaces := hreads.places_append
  generalize (resolve items index min stop).next = next at hnext hplaces ⊢
  rw [drop_eq_slice_append hnext, solid_append] at hplaces
  exact List.append_cancel_right hplaces

theorem exists_describeAll (items : List Operand) :
    ∃ ps, DescribeAll ps items (resolveAll items) ∧ ReadsAll items.zipIdx ps := by
  obtain ⟨ps, hps, hv, he⟩ := Resolution.program_follows (endOffset items) items.length items 0 0
    (Nat.zero_le _) (Nat.zero_add _)
  exact ⟨ps, ⟨hv, he, hps.places_eq⟩, hps⟩

end Phrase

end Distfix
