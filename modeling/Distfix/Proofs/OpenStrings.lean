import Distfix.Proofs.Tokenization
import Mathlib.Data.List.DropRight

namespace Distfix

/-- Where a position in a text stands, of which the quotes alone decide: between string literals, in
a literal, or right after a backslash in a literal. -/
inductive QuoteState where
  | outside
  | inside
  | escaped
deriving DecidableEq

namespace QuoteState

def step : QuoteState → Char → QuoteState
  | outside, c => if c = '"' then inside else outside
  | inside, c => if c = '"' then outside else if c = '\\' then escaped else inside
  | escaped, _ => inside

def after (s : QuoteState) (cs : List Char) : QuoteState := cs.foldl step s

theorem after_cons (s : QuoteState) (c : Char) (cs : List Char) :
    s.after (c :: cs) = (s.step c).after cs := rfl

theorem after_append (s : QuoteState) (cs ds : List Char) :
    s.after (cs ++ ds) = (s.after cs).after ds :=
  List.foldl_append

theorem after_of_forall_ne {cs : List Char} (h : ∀ c ∈ cs, c ≠ '"') :
    outside.after cs = outside := by
  induction cs with
  | nil => rfl
  | cons c cs ih =>
    obtain ⟨hc, hcs⟩ := List.forall_mem_cons.mp h
    rw [after_cons, step, if_neg hc]
    exact ih hcs

theorem after_body {body : List Char} (h : Lexer.StringBody body) : inside.after body = inside := by
  induction h with
  | nil => rfl
  | plain hquote hescape _ ih =>
    rw [after_cons, step, if_neg hquote, if_neg hescape]
    exact ih
  | escape _ ih => exact ih

end QuoteState

def OpenString.state : OpenString → QuoteState
  | atStart | inBody => .inside
  | inEscape => .escaped

theorem OpenString.state_ne_outside (e : OpenString) : e.state ≠ .outside := by
  cases e <;> exact nofun

/-- The quote begins a string literal, and belongs to no token of another class. -/
structure CharClasses.QuoteOpens (classes : CharClasses) : Prop where
  space : classes.space '"' = false
  alphabetic : classes.alphabetic '"' = false
  alphanumeric : classes.alphanumeric '"' = false

theorem CharClasses.unicode_quoteOpens : CharClasses.unicode.QuoteOpens := by
  refine ⟨?_, ?_, ?_⟩ <;> decide

namespace Lexer

theorem further_eq_error {n : Nat} {r : Except Stop Nat} {s : Stop}
    (h : further n r = .error s) : ∃ s', r = .error s' ∧ s = s'.after n := by
  cases r with
  | ok m => cases h
  | error s' => exact ⟨s', rfl, (Except.error.inj h).symm⟩

theorem mapError_eq_error {α : Type} {x : Except Stop α} {s : Stop}
    (h : x.mapError (·.after 1) = .error s) : ∃ s', x = .error s' ∧ s = s'.after 1 := by
  cases x with
  | ok a => cases h
  | error s' => exact ⟨s', rfl, (Except.error.inj h).symm⟩

theorem stringLength_error {cs : List Char} {s : Stop} (h : stringLength cs = .error s) :
    s.read = cs.length ∧ QuoteState.inside.after cs = s.fault.state := by
  fun_induction stringLength cs generalizing s with
  | case1 =>
    obtain rfl := Except.error.inj h
    exact ⟨rfl, rfl⟩
  | case2 =>
    obtain rfl := Except.error.inj h
    exact ⟨rfl, rfl⟩
  | case3 c cs ih =>
    obtain ⟨s', hs, rfl⟩ := further_eq_error h
    obtain ⟨hread, hstate⟩ := ih hs
    exact ⟨by rw [Stop.after, hread, List.length_cons, List.length_cons, Nat.add_comm], hstate⟩
  | case4 => cases h
  | case5 c cs hnil hcons hquote ih =>
    have hescape : c ≠ '\\' := by
      rintro rfl
      cases cs with
      | nil => exact hnil rfl rfl
      | cons c' cs => exact hcons c' cs rfl rfl
    obtain ⟨s', hs, rfl⟩ := further_eq_error h
    obtain ⟨hread, hstate⟩ := ih hs
    rw [QuoteState.after_cons, QuoteState.step, if_neg hquote, if_neg hescape]
    exact ⟨by rw [Stop.after, hread, List.length_cons, Nat.add_comm], hstate⟩

theorem stringRest_error {cs : List Char} {s : Stop} (h : stringRest cs = .error s) :
    s.read = cs.length ∧ QuoteState.inside.after cs = s.fault.state := by
  unfold stringRest at h
  split at h
  · rename_i hcs
    obtain rfl := Except.error.inj h
    rw [List.isEmpty_iff.mp hcs]
    exact ⟨rfl, rfl⟩
  · exact stringLength_error h

variable {classes : CharClasses} {c : Char} {cs w : List Char} {s : Stop} {offset : Nat}

theorem eq_quote_of_classOf (h : classOf classes c = .string) : c = '"' := by
  unfold classOf at h
  grind

theorem classOf_quote (hq : classes.QuoteOpens) : classOf classes '"' = .string := by
  simp [classOf, isBlank, isHead, hq.space, hq.alphabetic]

theorem not_continues_quote (hq : classes.QuoteOpens) (k : Class) :
    k.continues classes '"' = false := by
  cases k <;> simp [Class.continues, isBlank, isTail, isOperator, hq.space, hq.alphanumeric]

theorem after_of_tail (hq : classes.QuoteOpens) (h : (classOf classes c).Tail classes w) :
    QuoteState.outside.after (c :: w) = .outside := by
  by_cases hc : c = '"'
  · subst hc
    rw [classOf_quote hq] at h
    obtain ⟨body, hbody, rfl⟩ := h
    rw [QuoteState.after_cons, QuoteState.after_append]
    exact congrArg (QuoteState.after · ['"']) (QuoteState.after_body hbody)
  · have hw : ∀ x ∈ w, (classOf classes c).continues classes x = true := by
      generalize hk : classOf classes c = k at h
      cases k with
      | string => exact absurd (eq_quote_of_classOf hk) hc
      | _ => exact h
    refine QuoteState.after_of_forall_ne (List.forall_mem_cons.mpr ⟨hc, fun x hx => ?_⟩)
    rintro rfl
    exact Bool.false_ne_true ((not_continues_quote hq _).symm.trans (hw _ hx))

theorem after_of_cut (hq : classes.QuoteOpens) {ts : List Token} (h : Cut classes offset cs ts) :
    QuoteState.outside.after cs = .outside := by
  induction h with
  | nil => rfl
  | cons htail _ _ ih =>
    rw [← List.cons_append, QuoteState.after_append, after_of_tail hq htail]
    exact ih

theorem munch_error (h : munch classes c cs = .error s) : c = '"' ∧ stringRest cs = .error s := by
  unfold munch at h
  cases hk : classOf classes c <;> rw [hk] at h
  case string =>
    refine ⟨eq_quote_of_classOf hk, ?_⟩
    cases hs : stringRest cs with
    | ok n => rw [hs] at h; cases h
    | error s' => rw [hs] at h; exact congrArg _ (Except.error.inj h)
  all_goals cases h

theorem scan_cons_error (h : scan classes (c :: cs) 0 offset = .error s) :
    ∃ s', s = s'.after 1 ∧ (munch classes c cs = .error s' ∨
      ∃ kind n stop, munch classes c cs = .ok (kind, n) ∧ scan classes cs n stop = .error s') := by
  rw [scan] at h
  cases hm : munch classes c cs with
  | error s' =>
    rw [hm] at h
    exact ⟨s', (Except.error.inj h).symm, .inl rfl⟩
  | ok token =>
    obtain ⟨kind, n⟩ := token
    rw [hm] at h
    change ((scan classes cs n (tokenAt offset kind c cs n).span.stop).mapError _ >>= _) = _ at h
    cases hr : scan classes cs n (tokenAt offset kind c cs n).span.stop with
    | ok ts => rw [hr] at h; cases h
    | error s' =>
      rw [hr] at h
      exact ⟨s', (Except.error.inj h).symm, .inr ⟨kind, n, _, rfl, hr⟩⟩

theorem read_of_scan {skip : Nat} (h : scan classes cs skip offset = .error s) :
    s.read = cs.length := by
  induction cs generalizing skip offset s with
  | nil => cases h
  | cons c cs ih =>
    have hafter {s' : Stop} (hs : s'.read = cs.length) : (s'.after 1).read = (c :: cs).length := by
      rw [Stop.after, hs, List.length_cons, Nat.add_comm]
    cases skip with
    | succ skip =>
      obtain ⟨s', hs, rfl⟩ := mapError_eq_error h
      exact hafter (ih hs)
    | zero =>
      obtain ⟨s', rfl, hm | ⟨kind, n, stop, -, hr⟩⟩ := scan_cons_error h
      · exact hafter (stringRest_error (munch_error hm).2).1
      · exact hafter (ih hr)

theorem after_of_scan (hq : classes.QuoteOpens) {skip : Nat}
    (h : scan classes cs skip offset = .error s) :
    QuoteState.outside.after (cs.drop skip) = s.fault.state := by
  induction cs generalizing skip offset s with
  | nil => cases h
  | cons c cs ih =>
    cases skip with
    | succ skip =>
      obtain ⟨s', hs, rfl⟩ := mapError_eq_error h
      have hstate := ih hs
      exact hstate
    | zero =>
      obtain ⟨s', rfl, hm | ⟨kind, n, stop, hm, hr⟩⟩ := scan_cons_error h
      · obtain ⟨rfl, hs⟩ := munch_error hm
        exact (stringRest_error hs).2
      · obtain ⟨-, htail, -⟩ := of_munch hm
        rw [List.drop_zero, ← List.take_append_drop n cs, ← List.cons_append,
          QuoteState.after_append, after_of_tail hq htail]
        have hstate := ih hr
        exact hstate

theorem endPosition_concat (cs : List Char) (c : Char) (p : Nat × Nat) :
    endPosition (cs ++ [c]) p = endPosition [c] (endPosition cs p) := by
  induction cs generalizing p with
  | nil => rfl
  | cons c' cs ih => exact ih _

theorem endPosition_eq (cs : List Char) :
    endPosition cs (1, 1) = (1 + cs.count '\n', 1 + (cs.rtakeWhile (· ≠ '\n')).length) := by
  induction cs using List.reverseRecOn with
  | nil => rfl
  | append_singleton cs c ih =>
    rw [endPosition_concat, ih, endPosition, endPosition, List.count_append, List.count_singleton]
    by_cases hc : c = '\n'
    · subst hc
      rw [List.rtakeWhile_concat_neg _ _ _ (by simp)]
      rfl
    · rw [List.rtakeWhile_concat_pos _ _ _ (by simpa using hc), List.length_append]
      simp [hc]
      omega

end Lexer

theorem lexWith_error_iff {classes : CharClasses} (hq : classes.QuoteOpens) (source : String) :
    (∃ e, lexWith classes source = .error e) ↔
      QuoteState.outside.after source.toList ≠ .outside := by
  rw [lexWith]
  cases hscan : Lexer.scan classes source.toList 0 0 with
  | ok ts =>
    have houtside := Lexer.after_of_cut hq (Lexer.cut_of_scan hscan)
    constructor
    · rintro ⟨e, h⟩
      cases h
    · exact absurd houtside
  | error stop =>
    have hstate : QuoteState.outside.after source.toList = stop.fault.state :=
      Lexer.after_of_scan hq hscan
    refine ⟨fun _ => ?_, fun _ => ⟨_, rfl⟩⟩
    rw [hstate]
    exact stop.fault.state_ne_outside

theorem position_of_lexWith {classes : CharClasses} {source : String} {e : LexError}
    (h : lexWith classes source = .error e) :
    e.line = 1 + source.toList.count '\n' ∧
      e.column = 1 + (source.toList.rtakeWhile (· ≠ '\n')).length := by
  rw [lexWith] at h
  cases hscan : Lexer.scan classes source.toList 0 0 with
  | ok ts => rw [hscan] at h; cases h
  | error stop =>
    rw [hscan] at h
    obtain rfl := Except.error.inj h
    dsimp only
    rw [Lexer.read_of_scan hscan, List.take_length, Lexer.endPosition_eq]
    exact ⟨rfl, rfl⟩

/-- The only fault that splitting a source finds is a string literal that is open at the end, and
the end is the position that it reports. -/
theorem lex_error_iff {classes : CharClasses} (hq : classes.QuoteOpens) (source : String) :
    ((∃ e, lexWith classes source = .error e) ↔
      QuoteState.outside.after source.toList ≠ .outside) ∧
      ∀ e, lexWith classes source = .error e →
        e.line = 1 + source.toList.count '\n' ∧
          e.column = 1 + (source.toList.rtakeWhile (· ≠ '\n')).length :=
  ⟨lexWith_error_iff hq source, fun _ he => position_of_lexWith he⟩

def Sample.openEnded : String := "\\+\"a\\\"\nbc"

theorem lex_openEnded :
    CharClasses.unicode.QuoteOpens ∧ lex Sample.openEnded = .error ⟨2, 3, .inBody⟩ ∧
      QuoteState.outside.after Sample.openEnded.toList = .inside ∧
      2 = 1 + Sample.openEnded.toList.count '\n' ∧
      3 = 1 + (Sample.openEnded.toList.rtakeWhile (· ≠ '\n')).length := by
  have hq := CharClasses.unicode_quoteOpens
  have h : lex Sample.openEnded = .error ⟨2, 3, .inBody⟩ := rfl
  exact ⟨hq, h, rfl, (lex_error_iff hq Sample.openEnded).2 _ h⟩

end Distfix
