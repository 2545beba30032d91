import Distfix.Flattening
import Mathlib.Data.List.Infix
import Mathlib.Data.List.Nodup

namespace Distfix

namespace Catalog

theorem operators_sublist (c : Catalog) (s : Scope) :
    ((c.operators s).map Prod.fst).Sublist s.ids := by
  unfold operators Scope.ids
  generalize s.entries = es
  induction es with
  | nil => exact List.Sublist.slnil
  | cons e es ih =>
    cases h : c.definition? e.2 with
    | none => simpa [h] using ih.cons e.1
    | some d => simpa [h] using ih.cons_cons e.1

theorem operator_unique (c : Catalog) {s : Scope} {o o' : OperatorId × Definition}
    (ho : o ∈ c.operators s) (ho' : o' ∈ c.operators s) (h : o.1 = o'.1) : o = o' :=
  List.inj_on_of_nodup_map (s.distinct.sublist (c.operators_sublist s)) ho ho' h

variable (c : Catalog) (tokens : Array Token)

def searchAfresh : Search Id := fun _ scope attempt => Matcher.tryEach attempt (c.operators scope)

/-- The groups of an operator, where every attempt on the way is made afresh. -/
def groupsAfresh (o : OperatorId × Definition) (leading : Token) (scope : Scope) (g : Gathered)
    (cursor : Nat) : Except ParseError Found :=
  (Matcher.readGroups c c.searchAfresh tokens o leading scope g cursor).run

def attemptAfresh (index : Nat) (scope : Scope) (o : OperatorId × Definition) :
    Except ParseError Found :=
  (Matcher.matchIn c c.searchAfresh tokens index scope o).run

def firstAfresh (index : Nat) (scope : Scope) : Except (List ParseError) Found :=
  (Matcher.firstMatch c c.searchAfresh tokens index scope).run

end Catalog

theorem Matcher.tryEach_cons_run {α ε β : Type} (g : α → Id (Except ε β)) (a : α) (as : List α) :
    (tryEach g (a :: as)).run =
      match (g a).run with
      | .ok b => .ok b
      | .error e => (tryEach g as).run.mapError (e :: ·) := rfl

namespace Memo

theorem find?_insert (m : Memo) (index index' : Nat) (f : Failure) (number : Nat)
    (op : OperatorId) :
    (m.insert index f).find? index' number op =
      if index = index' ∧ f.op = op ∧ f.scope = number then some f.error
      else m.find? index' number op := by
  by_cases hi : index = index'
  · subst index'
    by_cases hf : f.op = op ∧ f.scope = number
    · simp [find?, insert, hf]
    · have hb : (decide (f.op = op) && decide (f.scope = number)) = false := by simpa using hf
      simp [find?, insert, hf, hb]
  · simp [find?, insert, hi, Std.TreeMap.getD_insert]

variable (c : Catalog) (tokens : Array Token)

/-- Each failure of the memo is what a fresh attempt at its place gives, in the scope that has its
number. -/
def Sound (m : Memo) : Prop :=
  ∀ index number op e, m.find? index number op = some e → ∃ scope, m.scopes[number]? = some scope ∧
    ∀ o ∈ c.operators scope, o.1 = op → c.attemptAfresh tokens index scope o = .error e

theorem sound_empty : Sound c tokens .empty := by
  intro index number op e h
  simp [find?, empty] at h

variable {c tokens}

theorem getElem?_of_isInit {known scopes : List Scope} (h : known <+: scopes) {number : Nat}
    {scope : Scope} (hk : known[number]? = some scope) : scopes[number]? = some scope := by
  obtain ⟨rest, rfl⟩ := h
  have hlt := (List.getElem?_eq_some_iff.mp hk).1
  rwa [List.getElem?_append_left hlt]

theorem Sound.insert {m : Memo} (hm : Sound c tokens m) {index number : Nat} {scope : Scope}
    (hn : m.scopes[number]? = some scope) {o : OperatorId × Definition} (ho : o ∈ c.operators scope)
    {e : ParseError} (he : c.attemptAfresh tokens index scope o = .error e) :
    Sound c tokens (m.insert index ⟨number, o.1, e⟩) := by
  intro index' number' op e' h
  rw [find?_insert] at h
  split at h
  · rename_i hkey
    obtain ⟨rfl, rfl, rfl⟩ := hkey
    refine ⟨scope, hn, fun o' ho' hop => ?_⟩
    obtain rfl : o' = o := c.operator_unique ho' ho hop
    exact Option.some.inj h ▸ he
  · exact hm index' number' op e' h

theorem intern_spec {m : Memo} (hm : Sound c tokens m) (scope : Scope) :
    (intern scope m).2.scopes[(intern scope m).1]? = some scope ∧
      Sound c tokens (intern scope m).2 ∧ m.scopes <+: (intern scope m).2.scopes := by
  unfold intern
  cases hf : m.scopes.findIdx? (·.shares scope) with
  | some number =>
    obtain ⟨hlt, hshares, -⟩ := List.findIdx?_eq_some_iff_getElem.mp hf
    refine ⟨?_, hm, List.prefix_refl _⟩
    rw [← Scope.shares_iff.mp hshares]
    exact List.getElem?_eq_getElem hlt
  | none =>
    have hprefix : m.scopes <+: m.scopes ++ [scope] := List.prefix_append _ _
    refine ⟨List.getElem?_concat_length, fun index number op e h => ?_, hprefix⟩
    obtain ⟨s, hs, hfail⟩ := hm index number op e h
    exact ⟨s, getElem?_of_isInit hprefix hs, hfail⟩

variable (c tokens)

/-- A computation gives `a` from every sound memo that begins with the scopes `known`, leaves a
sound memo, and only adds scopes at the end. -/
def Computes {α : Type} (known : List Scope) (x : StateM Memo α) (a : α) : Prop :=
  ∀ m, Sound c tokens m → known <+: m.scopes →
    (x m).1 = a ∧ Sound c tokens (x m).2 ∧ m.scopes <+: (x m).2.scopes

variable {c tokens} {α β ε : Type} {known : List Scope}

theorem Computes.mono {x : StateM Memo α} {a : α} (h : Computes c tokens [] x a)
    (known : List Scope) : Computes c tokens known x a := fun m hm _ => h m hm List.nil_prefix

theorem Computes.pure (a : α) : Computes c tokens known (Pure.pure a) a := fun _ hm _ =>
  ⟨rfl, hm, List.prefix_refl _⟩

theorem Computes.bind {x : StateM Memo α} {a : α} {f : α → StateM Memo β} {b : β}
    (hx : Computes c tokens known x a) (hf : Computes c tokens known (f a) b) :
    Computes c tokens known (x >>= f) b := by
  intro m hm hk
  obtain ⟨ha, hs, hp⟩ := hx m hm hk
  subst ha
  obtain ⟨hb, hs', hp'⟩ := hf (x m).2 hs (hk.trans hp)
  exact ⟨hb, hs', hp.trans hp'⟩

theorem Computes.bind_run {x : StateM Memo α} {a : Id α} {f : α → StateM Memo β} {g : α → Id β}
    (hx : Computes c tokens known x a.run) (hf : ∀ r, Computes c tokens known (f r) (g r).run) :
    Computes c tokens known (x >>= f) (a >>= g).run :=
  hx.bind (hf a.run)

theorem computes_remember {index number : Nat} {scope : Scope} (hn : known[number]? = some scope)
    {o : OperatorId × Definition} (ho : o ∈ c.operators scope)
    {x : StateM Memo (Except ParseError Found)}
    (hx : Computes c tokens [] x (c.attemptAfresh tokens index scope o)) :
    Computes c tokens known (remember index number o.1 x)
      (c.attemptAfresh tokens index scope o) := by
  intro m hm hk
  obtain ⟨ha, hs, hp⟩ := hx m hm List.nil_prefix
  unfold remember
  cases hf : m.find? index number o.1 with
  | some e =>
    obtain ⟨s, hs', hfail⟩ := hm index number o.1 e hf
    obtain rfl : s = scope := Option.some.inj (hs'.symm.trans (getElem?_of_isInit hk hn))
    exact ⟨(hfail o ho rfl).symm, hm, List.prefix_refl _⟩
  | none =>
    cases hr : x m with
    | mk r m' =>
      rw [hr] at ha hs hp
      cases r with
      | ok a => exact ⟨ha, hs, hp⟩
      | error e =>
        exact ⟨ha, hs.insert (getElem?_of_isInit (hk.trans hp) hn) ho ha.symm, hp⟩

theorem computes_tryEach {f : α → StateM Memo (Except ε β)} {g : α → Id (Except ε β)} {as : List α}
    (h : ∀ a ∈ as, Computes c tokens known (f a) (g a).run) :
    Computes c tokens known (Matcher.tryEach f as) (Matcher.tryEach g as).run := by
  induction as with
  | nil => exact .pure _
  | cons a as ih =>
    obtain ⟨ha, has⟩ := List.forall_mem_cons.mp h
    rw [Matcher.tryEach, Matcher.tryEach_cons_run]
    refine ha.bind ?_
    cases (g a).run with
    | ok b => exact .pure _
    | error e => exact (ih has).bind (.pure _)

theorem computes_openAt {index : Nat} {o : OperatorId × Definition}
    {f : Token → StateM Memo (Except ParseError Found)} {g : Token → Id (Except ParseError Found)}
    (h : ∀ t, Computes c tokens known (f t) (g t).run) :
    Computes c tokens known (Matcher.openAt tokens index o f)
      (Matcher.openAt tokens index o g).run := by
  unfold Matcher.openAt
  cases tokens[index]? with
  | none => exact .pure _
  | some t =>
    dsimp only
    split
    · exact h t
    · exact .pure _

theorem computes_firstMatch_of {index : Nat} {scope : Scope}
    (h : ∀ o leading, Computes c tokens []
      (Matcher.readGroups c (search c) tokens o leading scope (.initial o.2 leading (index + 1))
        (index + 1))
      (c.groupsAfresh tokens o leading scope (.initial o.2 leading (index + 1)) (index + 1))) :
    Computes c tokens [] (firstMatch c tokens index scope) (c.firstAfresh tokens index scope) := by
  intro m hm _
  obtain ⟨hn, hs, hp⟩ := intern_spec hm scope
  have htry : Computes c tokens (intern scope m).2.scopes _ (c.firstAfresh tokens index scope) :=
    computes_tryEach fun o ho => computes_remember hn ho (computes_openAt (h o))
  obtain ⟨ha, hs', hp'⟩ := htry (intern scope m).2 hs (List.prefix_refl _)
  exact ⟨ha, hs', hp.trans hp'⟩

/-- A sound memo does not change what is read of an operator. -/
theorem computes_readGroups (o : OperatorId × Definition) (leading : Token) (scope : Scope)
    (g : Gathered) (cursor : Nat) :
    Computes c tokens [] (Matcher.readGroups c (search c) tokens o leading scope g cursor)
      (c.groupsAfresh tokens o leading scope g cursor) := by
  unfold Catalog.groupsAfresh
  -- nested attempts begin further to the right, so that the recursion of the reading covers them
  induction o, leading, scope, g, cursor using Matcher.readGroups.induct c tokens with
  | case1 o leading scope g cursor hs =>
    rw [Matcher.readGroups_of_isEmpty hs, Matcher.readGroups_of_isEmpty hs]
    exact .pure _
  | case2 o leading scope g cursor hs h t i pending hc ih =>
    rw [Matcher.readGroups_of_close hs h hc, Matcher.readGroups_of_close hs h hc]
    exact ih
  | case3 o leading scope g cursor hs h t hc region ihnested ihnext ihtoken =>
    rw [Matcher.readGroups_of_open hs h hc, Matcher.readGroups_of_open hs h hc]
    refine Computes.bind_run (computes_firstMatch_of ihnested) fun r => ?_
    cases r with
    | error es => exact ihtoken
    | ok found =>
      dsimp only
      split
      · exact .pure _
      · rename_i hnext
        exact ihnext found.1 found.2 hnext
  | case4 o leading scope g cursor hs h separator hr =>
    rw [Matcher.readGroups_of_end hs h, Matcher.readGroups_of_end hs h, hr]
    exact .pure _
  | case5 o leading scope g cursor hs h hr =>
    rw [Matcher.readGroups_of_end hs h, Matcher.readGroups_of_end hs h, hr]
    exact .pure _

theorem computes_matchIn (index : Nat) (scope : Scope) (o : OperatorId × Definition) :
    Computes c tokens [] (Matcher.matchIn c (search c) tokens index scope o)
      (c.attemptAfresh tokens index scope o) :=
  computes_openAt fun leading => computes_readGroups o leading scope _ _

theorem computes_firstMatch (index : Nat) (scope : Scope) :
    Computes c tokens [] (firstMatch c tokens index scope) (c.firstAfresh tokens index scope) :=
  computes_firstMatch_of fun o leading => computes_readGroups o leading scope _ _

end Memo

namespace Catalog

variable (c : Catalog)

theorem endsBehind_firstAfresh (tokens : Array Token) (index : Nat) (scope : Scope) :
    Matcher.EndsBehind index (c.firstAfresh tokens index scope) := by
  obtain ⟨ha, -⟩ := Memo.computes_firstMatch index scope .empty (Memo.sound_empty c tokens)
    List.nil_prefix
  rw [← ha]
  exact Memo.ensures_firstMatch index scope .empty

theorem flattenFrom_of_sound {tokens : Array Token} {scope : Scope} (cursor : Nat) {m : Memo}
    (hm : Memo.Sound c tokens m) :
    Matcher.flattenFrom (Memo.firstMatch c tokens · scope)
        (fun cursor m => Memo.ensures_firstMatch cursor scope m) tokens cursor m =
      Matcher.flattenFrom (fun cursor s => (c.firstAfresh tokens cursor scope, s))
        (fun cursor _ => c.endsBehind_firstAfresh tokens cursor scope) tokens cursor () := by
  induction cursor, m using Matcher.flattenFrom.induct (Memo.firstMatch c tokens · scope)
      (fun cursor m => Memo.ensures_firstMatch cursor scope m) tokens with
  | case1 cursor m h next i m' hrun ih =>
    obtain ⟨hfresh, hm', -⟩ := Memo.computes_firstMatch cursor scope m hm List.nil_prefix
    rw [hrun] at hfresh hm'
    rw [Matcher.flattenFrom_of_ok h hrun, ih hm', Matcher.flattenFrom_of_ok h (by rw [← hfresh])]
  | case2 cursor m h es m' hrun ih =>
    obtain ⟨hfresh, hm', -⟩ := Memo.computes_firstMatch cursor scope m hm List.nil_prefix
    rw [hrun] at hfresh hm'
    rw [Matcher.flattenFrom_of_error h hrun, ih hm',
      Matcher.flattenFrom_of_error h (by rw [← hfresh])]
  | case3 cursor m h => rw [Matcher.flattenFrom_of_end h, Matcher.flattenFrom_of_end h]

variable (tokens : List Token) (index : Nat)

def matchAfresh (o : OperatorId × Definition) (scope : Scope) : Except ParseError Found :=
  c.attemptAfresh tokens.toArray index scope o

def flattenAfresh (scope : Scope) : Outcome (List Operand) :=
  Matcher.flattenFrom (fun cursor s => (c.firstAfresh tokens.toArray cursor scope, s))
    (fun cursor _ => c.endsBehind_firstAfresh _ cursor scope) tokens.toArray index ()

theorem matchOperator_eq_matchAfresh (o : OperatorId × Definition) (scope : Scope) :
    c.matchOperator tokens index o scope = c.matchAfresh tokens index o scope :=
  (Memo.computes_matchIn index scope o .empty (Memo.sound_empty c _) List.nil_prefix).1

theorem flatten_eq_flattenAfresh (scope : Scope) :
    c.flatten tokens index scope = c.flattenAfresh tokens index scope :=
  c.flattenFrom_of_sound index (Memo.sound_empty c _)

/-- Remembered failures never change an answer. -/
theorem answers_independent_of_memo (scope : Scope) :
    (∀ o, c.matchOperator tokens index o scope = c.matchAfresh tokens index o scope) ∧
      c.flatten tokens index scope = c.flattenAfresh tokens index scope :=
  ⟨fun o => c.matchOperator_eq_matchAfresh tokens index o scope,
    c.flatten_eq_flattenAfresh tokens index scope⟩

end Catalog

end Distfix
