import Distfix.Lexer.Scan
import Mathlib.Data.List.Basic

namespace Distfix

/-- The kinds and texts of the tokens that are not blank. -/
def Token.visible (ts : List Token) : List (TokenKind × String) :=
  (ts.filter (!·.isBlank)).map fun t => (t.kind, t.text)

namespace Token

theorem visible_append (xs ys : List Token) : visible (xs ++ ys) = visible xs ++ visible ys := by
  simp [visible]

theorem visible_cons (t : Token) (ts : List Token) :
    visible (t :: ts) = if t.isBlank then visible ts else (t.kind, t.text) :: visible ts := by
  cases h : t.isBlank <;> simp [visible, h]

end Token

/-- The space character separates tokens. -/
structure CharClasses.SpaceSeparates (classes : CharClasses) : Prop where
  space : classes.space ' ' = true
  word : classes.alphanumeric ' ' = false
  mark : classes.mark ' ' = false

theorem CharClasses.unicode_spaceSeparates : CharClasses.unicode.SpaceSeparates := by
  refine ⟨?_, ?_, ?_⟩ <;> decide

namespace Lexer

theorem run_le_length (p : Char → Bool) (cs : List Char) : run p cs ≤ cs.length :=
  (List.takeWhile_prefix p).length_le

theorem run_cons (p : Char → Bool) (c : Char) (cs : List Char) :
    run p (c :: cs) = if p c then run p cs + 1 else 0 := by
  cases h : p c <;> simp [run, h]

def AtSpace (cs : List Char) : Prop := ∀ c cs', cs = c :: cs' → c = ' '

theorem atSpace_nil : AtSpace [] := fun _ _ h => nomatch h

theorem atSpace_cons (cs : List Char) : AtSpace (' ' :: cs) := fun _ _ h => (List.cons.inj h).1.symm

theorem run_append {p : Char → Bool} {w rest rest' : List Char}
    (h : run p (w ++ rest) = w.length) (hr : AtSpace rest') (hp : p ' ' = false) :
    run p (w ++ rest') = w.length := by
  induction w with
  | nil =>
    cases rest' with
    | nil => rfl
    | cons c cs => simp [run, hr c cs rfl, hp]
  | cons c w ih =>
    rw [List.cons_append, run_cons] at h ⊢
    split at h
    · rename_i hc
      rw [if_pos hc, ih (by simpa using h)]
      rfl
    · cases h

theorem run_all {p : Char → Bool} {w rest : List Char} (h : run p (w ++ rest) = w.length) :
    ∀ c ∈ w, p c = true := by
  induction w with
  | nil => simp
  | cons c w ih =>
    rw [List.cons_append, run_cons] at h
    split at h
    · rename_i hc
      exact List.forall_mem_cons.mpr ⟨hc, ih (by simpa using h)⟩
    · cases h

theorem run_of_all {p : Char → Bool} {w cs : List Char} (hw : ∀ x ∈ w, p x = true)
    (hcs : ∀ x ∈ cs.head?, p x = false) : run p (w ++ cs) = w.length := by
  induction w with
  | nil =>
    cases cs with
    | nil => rfl
    | cons c cs => simp [run, hcs c rfl]
  | cons c w ih =>
    obtain ⟨hc, hw⟩ := List.forall_mem_cons.mp hw
    rw [List.cons_append, run_cons, if_pos hc, ih hw]
    rfl

theorem stringLength_cons {c : Char} (hc : c ≠ '\\') (cs : List Char) :
    stringLength (c :: cs) = if c = '"' then .ok 1 else further 1 (stringLength cs) := by
  rw [stringLength]
  · exact fun h => absurd h hc
  · exact fun _ _ h => absurd h hc

theorem map_eq_ok {ε α β : Type} {x : Except ε α} {f : α → β} {b : β} (h : x.map f = .ok b) :
    ∃ a, x = .ok a ∧ f a = b := by
  cases x with
  | error e => cases h
  | ok a => exact ⟨a, rfl, Except.ok.inj h⟩

theorem further_eq_ok {n m : Nat} {r : Except Stop Nat} (h : further n r = .ok m) :
    ∃ k, r = .ok k ∧ m = n + k := by
  cases r with
  | error s => cases h
  | ok k => exact ⟨k, rfl, (Except.ok.inj h).symm⟩

theorem stringLength_bounds {cs : List Char} {n : Nat} (h : stringLength cs = .ok n) :
    0 < n ∧ n ≤ cs.length := by
  fun_induction stringLength cs generalizing n with
  | case1 => cases h
  | case2 => cases h
  | case3 c cs ih =>
    obtain ⟨m, hm, rfl⟩ := further_eq_ok h
    obtain ⟨-, hl⟩ := ih hm
    simp only [List.length_cons]
    exact ⟨by omega, by omega⟩
  | case4 cs =>
    obtain rfl := Except.ok.inj h
    exact ⟨Nat.one_pos, by simp⟩
  | case5 c cs _ _ _ ih =>
    obtain ⟨m, hm, rfl⟩ := further_eq_ok h
    obtain ⟨-, hl⟩ := ih hm
    simp only [List.length_cons]
    exact ⟨by omega, by omega⟩

theorem stringLength_append {w rest : List Char} (h : stringLength (w ++ rest) = .ok w.length)
    (rest' : List Char) : stringLength (w ++ rest') = .ok w.length := by
  fun_induction stringLength w with
  | case1 => exact absurd (stringLength_bounds h).1 (Nat.lt_irrefl 0)
  | case2 =>
    cases rest with
    | nil => cases h
    | cons c rest =>
      obtain ⟨m, -, hm⟩ := further_eq_ok h
      rw [List.length_singleton] at hm
      omega
  | case3 c cs ih =>
    obtain ⟨m, hm, hl⟩ := further_eq_ok h
    obtain rfl : m = cs.length := by
      simp only [List.length_cons] at hl
      omega
    simp only [List.cons_append, stringLength, ih hm, further, hl]
  | case4 cs =>
    rw [List.cons_append, stringLength_cons (by decide), if_pos rfl] at h ⊢
    exact h
  | case5 c cs hnil hcons hquote ih =>
    have hc : c ≠ '\\' := by
      rintro rfl
      cases cs with
      | nil => exact hnil rfl rfl
      | cons c' cs => exact hcons c' cs rfl rfl
    rw [List.cons_append, stringLength_cons hc, if_neg hquote] at h ⊢
    obtain ⟨m, hm, hl⟩ := further_eq_ok h
    obtain rfl : m = cs.length := by
      rw [List.length_cons] at hl
      omega
    rw [ih hm, further, hl]

theorem stringRest_ok {cs : List Char} {n : Nat} (h : stringRest cs = .ok n) :
    stringLength cs = .ok n := by
  unfold stringRest at h
  split at h
  · cases h
  · exact h

theorem stringRest_append {w rest : List Char} (h : stringRest (w ++ rest) = .ok w.length)
    (rest' : List Char) : stringRest (w ++ rest') = .ok w.length := by
  have hw := stringRest_ok h
  have hpos := (stringLength_bounds hw).1
  have hne : (w ++ rest').isEmpty = false := by
    cases w with
    | nil => exact absurd hpos (Nat.lt_irrefl 0)
    | cons c w => rfl
  rw [stringRest, hne]
  exact stringLength_append hw rest'

variable {classes : CharClasses} {c : Char} {cs w rest : List Char} {kind : TokenKind} {n : Nat}

theorem munch_bound (h : munch classes c cs = .ok (kind, n)) : n ≤ cs.length := by
  have hrun : ∀ p, run p cs ≤ cs.length := fun p => run_le_length p cs
  unfold munch at h
  cases hk : classOf classes c <;> rw [hk] at h
  case string =>
    obtain ⟨m, hm, hp⟩ := map_eq_ok h
    obtain ⟨-, rfl⟩ := Prod.mk.inj hp
    exact (stringLength_bounds (stringRest_ok hm)).2
  all_goals
    obtain ⟨-, rfl⟩ := Prod.mk.inj (Except.ok.inj h)
    first
    | exact hrun _
    | exact Nat.zero_le _

theorem munch_append (hs : classes.SpaceSeparates)
    (h : munch classes c (w ++ rest) = .ok (kind, w.length)) (hkind : kind ≠ .whitespace)
    {rest' : List Char} (hr : AtSpace rest') :
    munch classes c (w ++ rest') = .ok (kind, w.length) := by
  unfold munch at h ⊢
  cases hk : classOf classes c <;> rw [hk] at h <;> dsimp only at h ⊢
  case blank =>
    exact absurd (Prod.mk.inj (Except.ok.inj h)).1.symm hkind
  case string =>
    obtain ⟨m, hm, hp⟩ := map_eq_ok h
    obtain ⟨rfl, rfl⟩ := Prod.mk.inj hp
    rw [stringRest_append hm]
    rfl
  case word =>
    obtain ⟨hk', hn⟩ := Prod.mk.inj (Except.ok.inj h)
    have htail : isTail classes ' ' = false := by simp [isTail, hs.word]
    rw [run_append hn hr htail, ← hn, hk']
  case digits =>
    obtain ⟨rfl, hn⟩ := Prod.mk.inj (Except.ok.inj h)
    rw [run_append hn hr (by decide)]
  case operator =>
    obtain ⟨rfl, hn⟩ := Prod.mk.inj (Except.ok.inj h)
    have hop : isOperator classes ' ' = false := by simp [isOperator, hs.mark]
    rw [run_append hn hr hop]
  all_goals exact h

theorem isBlank_of_classOf (h : classOf classes c = .blank) : isBlank classes c = true := by
  unfold classOf at h
  grind

theorem eq_newline_of_classOf (h : classOf classes c = .newline) : c = '\n' := by
  unfold classOf at h
  grind

theorem munch_blank (h : munch classes c (w ++ rest) = .ok (kind, w.length))
    (hkind : kind = .whitespace ∨ kind = .newline) :
    ∀ x ∈ c :: w, isBlank classes x = true ∨ x = '\n' := by
  unfold munch at h
  cases hk : classOf classes c <;> rw [hk] at h <;> dsimp only at h
  case blank =>
    have hw := run_all (Prod.mk.inj (Except.ok.inj h)).2
    exact List.forall_mem_cons.mpr ⟨.inl (isBlank_of_classOf hk), fun x hx => .inl (hw x hx)⟩
  case newline =>
    have hw := List.length_eq_zero_iff.mp (Prod.mk.inj (Except.ok.inj h)).2.symm
    rw [hw]
    exact List.forall_mem_cons.mpr ⟨.inr (eq_newline_of_classOf hk), by simp⟩
  case string =>
    obtain ⟨m, -, hp⟩ := map_eq_ok h
    grind
  all_goals grind

theorem isDigit_of_classOf (h : classOf classes c = .digits) : c.isDigit = true := by
  unfold classOf at h
  grind

theorem munch_number (h : munch classes c (w ++ rest) = .ok (.number, w.length)) :
    c.isDigit = true ∧ ∀ x ∈ w, x.isDigit = true := by
  unfold munch at h
  cases hk : classOf classes c <;> rw [hk] at h <;> dsimp only at h
  case digits =>
    exact ⟨isDigit_of_classOf hk, run_all (Prod.mk.inj (Except.ok.inj h)).2⟩
  case string =>
    obtain ⟨m, -, hp⟩ := map_eq_ok h
    cases hp
  all_goals grind

theorem munch_of_isBlank (h : isBlank classes c = true) (cs : List Char) :
    munch classes c cs = .ok (.whitespace, run (isBlank classes) cs) := by
  simp [munch, classOf, h]

theorem munch_newline (classes : CharClasses) (cs : List Char) :
    munch classes '\n' cs = .ok (.newline, 0) := by
  simp [munch, classOf, isBlank]

def tokenAt (offset : Nat) (kind : TokenKind) (c : Char) (cs : List Char) (n : Nat) : Token :=
  let text := String.ofList (c :: cs.take n)
  ⟨kind, text, ⟨offset, offset + text.utf8ByteSize⟩⟩

variable {offset : Nat} {ts : List Token}

theorem scan_cons (hm : munch classes c cs = .ok (kind, n))
    (hr : scan classes cs n (tokenAt offset kind c cs n).span.stop = .ok ts) :
    scan classes (c :: cs) 0 offset = .ok (tokenAt offset kind c cs n :: ts) := by
  rw [scan, hm]
  change ((scan classes cs n (tokenAt offset kind c cs n).span.stop).mapError _ >>= _) = _
  rw [hr]
  rfl

theorem scan_cons_ok (h : scan classes (c :: cs) 0 offset = .ok ts) :
    ∃ kind n rest, munch classes c cs = .ok (kind, n) ∧
      scan classes cs n (tokenAt offset kind c cs n).span.stop = .ok rest ∧
      ts = tokenAt offset kind c cs n :: rest := by
  have hscan := h
  rw [scan] at h
  cases hm : munch classes c cs with
  | error s =>
    rw [hm] at h
    cases h
  | ok found =>
    obtain ⟨kind, n⟩ := found
    rw [hm] at h
    change ((scan classes cs n (tokenAt offset kind c cs n).span.stop).mapError _ >>= _) = _ at h
    cases hr : scan classes cs n (tokenAt offset kind c cs n).span.stop with
    | error s =>
      rw [hr] at h
      cases h
    | ok rest => exact ⟨kind, n, rest, rfl, hr, Except.ok.inj (hscan.symm.trans (scan_cons hm hr))⟩

theorem scan_succ_ok {skip : Nat} :
    scan classes (c :: cs) (skip + 1) offset = .ok ts ↔ scan classes cs skip offset = .ok ts := by
  rw [scan]
  cases scan classes cs skip offset <;> simp [Except.mapError]

theorem scan_drop {skip : Nat} :
    scan classes cs skip offset = .ok ts ↔ scan classes (cs.drop skip) 0 offset = .ok ts := by
  induction cs generalizing skip with
  | nil => simp [scan]
  | cons c cs ih =>
    cases skip with
    | zero => rfl
    | succ skip => rw [scan_succ_ok, ih, List.drop_succ_cons]

/-- The first character and the others of a token's text, of which the scanner made the token. -/
def IsLexeme (classes : CharClasses) (t : Token) : Prop :=
  ∃ c w rest, t.text = String.ofList (c :: w) ∧ munch classes c (w ++ rest) = .ok (t.kind, w.length)

theorem isLexeme_of_scan {skip : Nat} (h : scan classes cs skip offset = .ok ts) :
    ∀ t ∈ ts, IsLexeme classes t := by
  induction cs generalizing skip offset ts with
  | nil =>
    obtain rfl := Except.ok.inj h
    simp
  | cons c cs ih =>
    cases skip with
    | succ skip => exact ih (scan_succ_ok.mp h)
    | zero =>
      obtain ⟨kind, n, rest, hm, hr, rfl⟩ := scan_cons_ok h
      refine List.forall_mem_cons.mpr ⟨⟨c, cs.take n, cs.drop n, rfl, ?_⟩, ih hr⟩
      rw [List.take_append_drop, List.length_take, Nat.min_eq_left (munch_bound hm)]
      exact hm

/-- A text shows some kinds and texts of tokens that are not blank, at whatever offset it stands. -/
def Shows (classes : CharClasses) (cs : List Char) (shown : List (TokenKind × String)) : Prop :=
  ∀ offset, ∃ ts, scan classes cs 0 offset = .ok ts ∧ Token.visible ts = shown

theorem scan_offset {skip : Nat} (h : scan classes cs skip offset = .ok ts) (offset' : Nat) :
    ∃ ts', scan classes cs skip offset' = .ok ts' ∧ Token.visible ts' = Token.visible ts := by
  induction cs generalizing skip offset offset' ts with
  | nil => exact ⟨ts, h, rfl⟩
  | cons c cs ih =>
    cases skip with
    | succ skip =>
      obtain ⟨ts', hs, hv⟩ := ih (scan_succ_ok.mp h) offset'
      exact ⟨ts', scan_succ_ok.mpr hs, hv⟩
    | zero =>
      obtain ⟨kind, n, rest, hm, hr, rfl⟩ := scan_cons_ok h
      obtain ⟨rest', hr', hv⟩ := ih hr (tokenAt offset' kind c cs n).span.stop
      refine ⟨_, scan_cons hm hr', ?_⟩
      rw [Token.visible_cons, Token.visible_cons, hv]
      rfl

theorem shows_nil (classes : CharClasses) : Shows classes [] [] := fun _ => ⟨[], rfl, rfl⟩

variable {shown : List (TokenKind × String)}

theorem Shows.drop_blank (h : Shows classes cs shown) :
    Shows classes (cs.drop (run (isBlank classes) cs)) shown := by
  cases cs with
  | nil => exact h
  | cons c cs =>
    rw [run_cons]
    split
    · rename_i hc
      intro offset
      obtain ⟨ts, hs, hv⟩ := h 0
      obtain ⟨kind, n, rest, hm, hr, rfl⟩ := scan_cons_ok hs
      obtain ⟨rfl, rfl⟩ := Prod.mk.inj (Except.ok.inj (hm.symm.trans (munch_of_isBlank hc cs)))
      obtain ⟨rest', hr', hv'⟩ := scan_offset hr offset
      exact ⟨rest', by rwa [List.drop_succ_cons, ← scan_drop], hv'.trans hv⟩
    · exact h

theorem Shows.cons_blank (h : Shows classes cs shown) (hc : isBlank classes c = true ∨ c = '\n') :
    Shows classes (c :: cs) shown := by
  intro offset
  obtain hc | rfl := hc
  · have hm := munch_of_isBlank hc cs
    obtain ⟨ts, hr, hv⟩ := h.drop_blank (tokenAt offset .whitespace c cs _).span.stop
    exact ⟨_, scan_cons hm (scan_drop.mpr hr), hv⟩
  · obtain ⟨ts, hr, hv⟩ := h (tokenAt offset .newline '\n' cs 0).span.stop
    exact ⟨_, scan_cons (munch_newline classes cs) hr, hv⟩

theorem Shows.append_blank (h : Shows classes cs shown)
    (hw : ∀ x ∈ w, isBlank classes x = true ∨ x = '\n') : Shows classes (w ++ cs) shown := by
  induction w with
  | nil => exact h
  | cons c w ih =>
    obtain ⟨hc, hw⟩ := List.forall_mem_cons.mp hw
    exact (ih hw).cons_blank hc

theorem Shows.cons_lexeme (h : Shows classes cs shown)
    (hm : munch classes c (w ++ cs) = .ok (kind, w.length))
    (hb : kind ≠ .whitespace ∧ kind ≠ .newline) :
    Shows classes (c :: (w ++ cs)) ((kind, String.ofList (c :: w)) :: shown) := by
  intro offset
  obtain ⟨ts, hr, hv⟩ := h (tokenAt offset kind c (w ++ cs) w.length).span.stop
  have hr' : scan classes (w ++ cs) w.length
      (tokenAt offset kind c (w ++ cs) w.length).span.stop = .ok ts := by
    rw [scan_drop, List.drop_left]
    exact hr
  have hsolid : (tokenAt offset kind c (w ++ cs) w.length).isBlank = false := by
    simp [tokenAt, Token.isBlank, hb]
  refine ⟨_, scan_cons hm hr', ?_⟩
  rw [Token.visible_cons, hv, hsolid]
  simp [tokenAt]

theorem Shows.append_lexeme (hs : classes.SpaceSeparates) {t : Token} (ht : IsLexeme classes t)
    (h : Shows classes cs (Token.visible ts)) (hcs : AtSpace cs) :
    Shows classes (t.text.toList ++ cs) (Token.visible (t :: ts)) := by
  obtain ⟨c, w, rest, htext, hm⟩ := ht
  rw [htext, String.toList_ofList, Token.visible_cons]
  by_cases hb : t.isBlank = true
  · rw [if_pos hb]
    apply h.append_blank
    apply munch_blank hm
    simpa [Token.isBlank] using hb
  · have hkind : t.kind ≠ .whitespace ∧ t.kind ≠ .newline := by
      simpa [Token.isBlank, not_or] using hb
    rw [if_neg hb, List.cons_append, htext]
    exact h.cons_lexeme (munch_append hs hm hkind.1 hcs) hkind

theorem shows_join (hs : classes.SpaceSeparates) (hts : ∀ t ∈ ts, IsLexeme classes t) :
    Shows classes (" ".intercalate (ts.map Token.text)).toList (Token.visible ts) := by
  rw [String.toList_intercalate]
  induction ts with
  | nil => exact shows_nil classes
  | cons t ts ih =>
    obtain ⟨ht, hts⟩ := List.forall_mem_cons.mp hts
    cases ts with
    | nil => simpa using Shows.append_lexeme hs ht (shows_nil classes) atSpace_nil
    | cons u us =>
      have hspace : isBlank classes ' ' = true := by simp [isBlank, hs.space]
      have hrest := (ih hts).cons_blank (.inl hspace)
      exact Shows.append_lexeme hs ht hrest (atSpace_cons _)

end Lexer

theorem lexWith_ok {classes : CharClasses} {source : String} {ts : List Token} :
    lexWith classes source = .ok ts ↔ Lexer.scan classes source.toList 0 0 = .ok ts := by
  rw [lexWith]
  cases Lexer.scan classes source.toList 0 0 <;> simp [Except.mapError]

end Distfix
