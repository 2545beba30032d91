import Distfix.Proofs.Relexing
import Mathlib.Data.List.Chain

namespace Distfix

namespace Lexer

/-- What stands between the quotes of a string literal. A backslash takes the next character,
whatever it is. -/
inductive StringBody : List Char → Prop
  | nil : StringBody []
  | plain {c cs} (hquote : c ≠ '"') (hescape : c ≠ '\\') (h : StringBody cs) : StringBody (c :: cs)
  | escape {c cs} (h : StringBody cs) : StringBody ('\\' :: c :: cs)

theorem StringBody.stringLength {body : List Char} (h : StringBody body) (rest : List Char) :
    stringLength (body ++ '"' :: rest) = .ok (body.length + 1) := by
  induction h with
  | nil => rw [List.nil_append, stringLength_cons (by decide), if_pos rfl, List.length_nil]
  | plain hquote hescape _ ih =>
    rw [List.cons_append, stringLength_cons hescape, if_neg hquote, ih, further, List.length_cons,
      Nat.add_comm]
  | escape _ ih =>
    rw [List.cons_append, List.cons_append, Lexer.stringLength, ih, further, List.length_cons,
      List.length_cons, Nat.add_comm]

theorem stringBody_of_stringLength {cs : List Char} {n : Nat} (h : stringLength cs = .ok n) :
    ∃ body rest, StringBody body ∧ cs = body ++ '"' :: rest ∧ n = body.length + 1 := by
  fun_induction stringLength cs generalizing n with
  | case1 => cases h
  | case2 => cases h
  | case3 c cs ih =>
    obtain ⟨m, hm, rfl⟩ := further_eq_ok h
    obtain ⟨body, rest, hbody, rfl, rfl⟩ := ih hm
    exact ⟨'\\' :: c :: body, rest, .escape hbody, rfl, Nat.add_comm ..⟩
  | case4 cs =>
    obtain rfl := Except.ok.inj h
    exact ⟨[], cs, .nil, rfl, rfl⟩
  | case5 c cs hnil hcons hquote ih =>
    have hescape : c ≠ '\\' := by
      rintro rfl
      cases cs with
      | nil => exact hnil rfl rfl
      | cons c' cs => exact hcons c' cs rfl rfl
    obtain ⟨m, hm, rfl⟩ := further_eq_ok h
    obtain ⟨body, rest, hbody, rfl, rfl⟩ := ih hm
    exact ⟨c :: body, rest, .plain hquote hescape hbody, rfl, Nat.add_comm ..⟩

theorem stringRest_eq_ok_iff {w rest : List Char} :
    stringRest (w ++ rest) = .ok w.length ↔ ∃ body, StringBody body ∧ w = body ++ ['"'] := by
  constructor
  · intro h
    obtain ⟨body, rest', hbody, heq, hlen⟩ := stringBody_of_stringLength (stringRest_ok h)
    rw [List.append_cons] at heq
    exact ⟨body, hbody, List.append_inj_left heq (by simp [hlen])⟩
  · rintro ⟨body, hbody, rfl⟩
    have hne : (body ++ ['"'] ++ rest).isEmpty = false := by simp
    rw [stringRest, hne, if_neg Bool.false_ne_true, ← List.append_cons, hbody.stringLength,
      List.length_append]
    rfl

theorem run_eq_length_iff {p : Char → Bool} {w rest : List Char} :
    run p (w ++ rest) = w.length ↔
      (∀ x ∈ w, p x = true) ∧ ∀ x ∈ rest.head?, p x = false := by
  refine ⟨fun h => ⟨run_all h, fun x hx => ?_⟩, fun h => run_of_all h.1 h.2⟩
  cases rest with
  | nil => cases hx
  | cons c rest =>
    obtain rfl := Option.mem_some.mp hx
    rw [run, List.takeWhile_append_of_pos (run_all h), List.length_append] at h
    cases hc : p c with
    | false => rfl
    | true => simp [hc] at h

namespace Class

variable (classes : CharClasses)

def continues : Class → Char → Bool
  | blank, x => isBlank classes x
  | word, x => isTail classes x
  | digits, x => x.isDigit
  | operator, x => isOperator classes x
  | newline, _ | string, _ | delimiter, _ | stray, _ => false

theorem continues_operator {x : Char} :
    operator.continues classes x = true ↔ classes.mark x = true ∧ x ∉ "()[]{},;\"_".toList := by
  have hexcept : "()[]{},;\"_".toList = "()[]{},;".toList ++ ['"', '_'] := rfl
  rw [hexcept, List.mem_append, continues, isOperator, isDelimiter]
  simp only [Bool.and_eq_true, Bool.not_eq_true', List.contains_eq_mem, decide_eq_false_iff_not,
    decide_eq_true_eq, List.mem_pair]
  tauto

def begins : Class → Char → Bool
  | blank, x => x ≠ '\n' && classes.space x
  | newline, x => x = '\n'
  | word, x => classes.alphabetic x || x = '_'
  | digits, x => x.isDigit
  | string, x => x = '"'
  | delimiter, x => "()[]{},;".toList.contains x
  | operator, x => classes.mark x
  | stray, _ => true

/-- The classes in the order in which they are tried. -/
def order : List Class := [blank, newline, word, digits, string, delimiter, operator, stray]

theorem find?_order (x : Char) : order.find? (·.begins classes x) = some (classOf classes x) := by
  rw [order, classOf]
  split_ifs with hblank hnewline hword hdigit hquote hdelimiter hoperator
  all_goals simp_all [begins, isBlank, isHead, isDelimiter, isOperator]

def Tail : Class → List Char → Prop
  | string, w => ∃ body, StringBody body ∧ w = body ++ ['"']
  | k, w => ∀ x ∈ w, k.continues classes x = true

def kind : Class → List Char → TokenKind
  | blank, _ => .whitespace
  | newline, _ => .newline
  | word, text => if text = ['_'] then .placeholder else .ident
  | digits, _ => .number
  | string, _ => .str
  | delimiter, _ | operator, _ | stray, _ => .symbol

end Class

/-- Tokens that are cut out of a text one after the other, from an offset on. -/
inductive Cut (classes : CharClasses) : Nat → List Char → List Token → Prop
  | nil {offset} : Cut classes offset [] []
  | cons {offset c w rest ts} (htail : (classOf classes c).Tail classes w)
    (hrest : ∀ x ∈ rest.head?, (classOf classes c).continues classes x = false)
    (h : Cut classes (offset + (String.ofList (c :: w)).utf8ByteSize) rest ts) :
    Cut classes offset (c :: (w ++ rest))
      (⟨(classOf classes c).kind (c :: w), String.ofList (c :: w),
        ⟨offset, offset + (String.ofList (c :: w)).utf8ByteSize⟩⟩ :: ts)

variable {classes : CharClasses} {c : Char} {cs w rest : List Char} {kind : TokenKind}
  {offset : Nat} {ts : List Token}

theorem run_never (cs : List Char) : run (fun _ => false) cs = 0 := by
  cases cs <;> rfl

theorem ok_mk_eq_iff {ε : Type} {kind' : TokenKind} {m n : Nat} :
    (.ok (kind', m) : Except ε (TokenKind × Nat)) = .ok (kind, n) ↔ kind = kind' ∧ m = n := by
  rw [Except.ok.injEq, Prod.mk.injEq, eq_comm]

theorem munch_eq_ok_iff :
    munch classes c (w ++ rest) = .ok (kind, w.length) ↔
      kind = (classOf classes c).kind (c :: w) ∧ (classOf classes c).Tail classes w ∧
        ∀ x ∈ rest.head?, (classOf classes c).continues classes x = false := by
  unfold munch
  generalize classOf classes c = k
  cases k with
  | blank | digits | operator =>
    rw [ok_mk_eq_iff, run_eq_length_iff]
    rfl
  | newline | delimiter | stray =>
    have hw : run (fun _ => false) (w ++ rest) = w.length ↔ _ := run_eq_length_iff
    rw [run_never] at hw
    rw [ok_mk_eq_iff, hw]
    rfl
  | word =>
    have hw : run (isTail classes) (w ++ rest) = w.length ↔ _ := run_eq_length_iff
    rw [ok_mk_eq_iff, Class.kind]
    refine ⟨fun ⟨hk, hn⟩ => ⟨?_, hw.mp hn⟩, fun ⟨hk, ht⟩ => ⟨?_, hw.mpr ht⟩⟩
    · simpa [hn] using hk
    · simpa [hw.mpr ht] using hk
  | string =>
    have htail : Class.string.Tail classes w ↔ stringRest (w ++ rest) = .ok w.length :=
      stringRest_eq_ok_iff.symm
    refine ⟨fun h => ?_, fun ⟨hk, ht, _⟩ => ?_⟩
    · obtain ⟨n, hn, hp⟩ := map_eq_ok h
      obtain ⟨rfl, rfl⟩ := Prod.mk.inj hp
      exact ⟨rfl, htail.mpr hn, fun _ _ => rfl⟩
    · rw [htail.mp ht, hk]
      rfl

theorem of_munch {n : Nat} (h : munch classes c cs = .ok (kind, n)) :
    kind = (classOf classes c).kind (c :: cs.take n) ∧
      (classOf classes c).Tail classes (cs.take n) ∧
      ∀ x ∈ (cs.drop n).head?, (classOf classes c).continues classes x = false := by
  have hlen : (cs.take n).length = n := List.length_take_of_le (munch_bound h)
  refine munch_eq_ok_iff.mp ?_
  rw [List.take_append_drop, hlen, h]

theorem cut_of_scan {skip : Nat} (h : scan classes cs skip offset = .ok ts) :
    Cut classes offset (cs.drop skip) ts := by
  induction cs generalizing skip offset ts with
  | nil =>
    obtain rfl := Except.ok.inj h
    rw [List.drop_nil]
    exact .nil
  | cons c cs ih =>
    cases skip with
    | succ skip => exact ih (scan_succ_ok.mp h)
    | zero =>
      obtain ⟨kind, n, rest, hm, hr, rfl⟩ := scan_cons_ok h
      obtain ⟨rfl, htail, hrest⟩ := of_munch hm
      have hcons := Cut.cons htail hrest (ih hr)
      rw [List.take_append_drop] at hcons
      exact hcons

theorem scan_of_cut (h : Cut classes offset cs ts) : scan classes cs 0 offset = .ok ts := by
  induction h with
  | nil => rfl
  | @cons offset c w rest ts htail hrest h ih =>
    have hm := munch_eq_ok_iff.mpr ⟨rfl, htail, hrest⟩
    have htoken : tokenAt offset ((classOf classes c).kind (c :: w)) c (w ++ rest) w.length =
        ⟨(classOf classes c).kind (c :: w), String.ofList (c :: w),
          ⟨offset, offset + (String.ofList (c :: w)).utf8ByteSize⟩⟩ := by
      rw [tokenAt, List.take_left]
    rw [← htoken]
    apply scan_cons hm
    rw [scan_drop, List.drop_left, htoken]
    exact ih

end Lexer

/-- The token is of the class that its first character selects. -/
def Token.OfClass (classes : CharClasses) (t : Token) : Prop :=
  ∃ c w, t.text.toList = c :: w ∧ (Lexer.classOf classes c).Tail classes w ∧
    t.kind = (Lexer.classOf classes c).kind (c :: w)

/-- The token would be longer with the character at its end. -/
def Token.Continues (classes : CharClasses) (t : Token) (x : Char) : Prop :=
  ∃ c ∈ t.text.toList.head?, (Lexer.classOf classes c).continues classes x = true

def Token.Adjoin : Nat → List Token → Nat → Prop
  | start, [], stop => start = stop
  | start, t :: ts, stop => t.span.start = start ∧ Adjoin t.span.stop ts stop

/-- The tokens are a source cut up so that each one is as long as its class allows. -/
structure Tokenizes (classes : CharClasses) (source : String) (ts : List Token) : Prop where
  nonempty : ∀ t ∈ ts, t.text ≠ ""
  texts : String.join (ts.map Token.text) = source
  spans : Token.Adjoin 0 ts source.utf8ByteSize
  slices : ∀ t ∈ ts, source.toUTF8.extract t.span.start t.span.stop = t.text.toUTF8
  ofClass : ∀ t ∈ ts, t.OfClass classes
  longest : ts.IsChain fun t u => ∀ x ∈ u.text.toList.head?, ¬t.Continues classes x

theorem extract_toUTF8 (before text after : String) :
    (before ++ text ++ after).toUTF8.extract before.utf8ByteSize
      (before.utf8ByteSize + text.utf8ByteSize) = text.toUTF8 := by
  have hbefore := ByteArray.extract_append_size_add (a := before.toByteArray)
    (b := text.toByteArray ++ after.toByteArray) (i := 0) (j := text.utf8ByteSize)
  rw [ByteArray.extract_append_eq_left String.size_toByteArray.symm, ← ByteArray.append_assoc]
    at hbefore
  exact hbefore

theorem slice_bounds {source text : String} {start stop : Nat} (hne : text ≠ "")
    (h : source.toUTF8.extract start stop = text.toUTF8) :
    min stop source.utf8ByteSize = start + text.utf8ByteSize ∧ start < stop := by
  have hsize : min stop source.utf8ByteSize - start = text.utf8ByteSize := by
    simpa using congrArg ByteArray.size h
  have hpos : text.utf8ByteSize ≠ 0 := fun h => hne (String.utf8ByteSize_eq_zero_iff.mp h)
  omega

theorem Token.Adjoin.le {ts : List Token} {start stop : Nat} (h : Adjoin start ts stop)
    (hts : ∀ t ∈ ts, t.span.start < t.span.stop) : start ≤ stop := by
  induction ts generalizing start with
  | nil => exact Nat.le_of_eq h
  | cons t ts ih =>
    obtain ⟨rfl, h⟩ := h
    obtain ⟨ht, hts⟩ := List.forall_mem_cons.mp hts
    exact ht.le.trans (ih h hts)

namespace Lexer.Cut

variable {classes : CharClasses} {offset : Nat} {cs : List Char} {ts : List Token}

theorem mem_head?_iff (h : Cut classes offset cs ts) {x : Char} :
    x ∈ cs.head? ↔ ∃ t ∈ ts.head?, x ∈ t.text.toList.head? := by
  cases h with
  | nil => simp
  | cons => simp

theorem texts (h : Cut classes offset cs ts) :
    String.join (ts.map Token.text) = String.ofList cs := by
  induction h with
  | nil => rfl
  | cons _ _ _ ih =>
    rw [List.map_cons, String.join_cons, ih, ← String.ofList_append]
    rfl

theorem spans (h : Cut classes offset cs ts) :
    Token.Adjoin offset ts (offset + (String.ofList cs).utf8ByteSize) := by
  induction h with
  | nil => rfl
  | cons _ _ _ ih =>
    refine ⟨rfl, ?_⟩
    rw [← List.cons_append, String.ofList_append, String.utf8ByteSize_append, ← Nat.add_assoc]
    exact ih

theorem slices (h : Cut classes offset cs ts) (before : String)
    (hb : before.utf8ByteSize = offset) :
    ∀ t ∈ ts, (before ++ String.ofList cs).toUTF8.extract t.span.start t.span.stop =
      t.text.toUTF8 := by
  induction h generalizing before with
  | nil => simp
  | @cons offset c w rest ts _ _ _ ih =>
    have hrest : String.ofList (c :: (w ++ rest)) =
        String.ofList (c :: w) ++ String.ofList rest := by
      rw [← String.ofList_append]
      rfl
    rw [hrest, ← String.append_assoc]
    refine List.forall_mem_cons.mpr ⟨?_, ih _ (by rw [String.utf8ByteSize_append, hb])⟩
    subst hb
    exact extract_toUTF8 before _ _

theorem ofClass (h : Cut classes offset cs ts) : ∀ t ∈ ts, t.OfClass classes := by
  induction h with
  | nil => simp
  | cons htail _ _ ih =>
    exact List.forall_mem_cons.mpr ⟨⟨_, _, String.toList_ofList, htail, rfl⟩, ih⟩

theorem longest (h : Cut classes offset cs ts) :
    ts.IsChain fun t u => ∀ x ∈ u.text.toList.head?, ¬t.Continues classes x := by
  induction h with
  | nil => exact .nil
  | cons _ hrest h ih =>
    refine List.isChain_cons.mpr ⟨fun u hu x hx => ?_, ih⟩
    rintro ⟨c, hc, hx'⟩
    rw [String.toList_ofList] at hc
    obtain rfl := Option.mem_some.mp hc
    have hnext := hrest x (h.mem_head?_iff.mpr ⟨u, hu, hx⟩)
    exact absurd (hnext.symm.trans hx') Bool.false_ne_true

theorem of_tokens (before : String) {source : String} (hne : ∀ t ∈ ts, t.text ≠ "")
    (htexts : String.join (ts.map Token.text) = source)
    (hspans : Token.Adjoin before.utf8ByteSize ts (before ++ source).utf8ByteSize)
    (hslices : ∀ t ∈ ts, (before ++ source).toUTF8.extract t.span.start t.span.stop = t.text.toUTF8)
    (hclass : ∀ t ∈ ts, t.OfClass classes)
    (hlongest : ts.IsChain fun t u => ∀ x ∈ u.text.toList.head?, ¬t.Continues classes x) :
    Cut classes before.utf8ByteSize source.toList ts := by
  induction ts generalizing before source with
  | nil =>
    subst htexts
    exact .nil
  | cons t ts ih =>
    rw [List.map_cons, String.join_cons] at htexts
    generalize hrest : String.join (ts.map Token.text) = rest at htexts
    subst htexts
    rw [← String.append_assoc] at hspans hslices
    obtain ⟨htext, hne⟩ := List.forall_mem_cons.mp hne
    obtain ⟨htslice, hslices⟩ := List.forall_mem_cons.mp hslices
    obtain ⟨⟨c, w, hcw, htail, hkind⟩, hclass⟩ := List.forall_mem_cons.mp hclass
    obtain ⟨hnext, hlongest⟩ := List.isChain_cons.mp hlongest
    obtain ⟨hstart, hspans⟩ := hspans
    have hstop : t.span.stop = before.utf8ByteSize + t.text.utf8ByteSize := by
      have hle := hspans.le fun u hu => (slice_bounds (hne u hu) (hslices u hu)).2
      rw [← hstart, ← (slice_bounds htext htslice).1, Nat.min_eq_left hle]
    rw [hstop, ← String.utf8ByteSize_append] at hspans
    have hcut := ih _ hne hrest hspans hslices hclass hlongest
    have hends : ∀ x ∈ rest.toList.head?, (classOf classes c).continues classes x = false := by
      intro x hx
      obtain ⟨u, hu, hxu⟩ := hcut.mem_head?_iff.mp hx
      exact Bool.eq_false_iff.mpr fun h => hnext u hu x hxu ⟨c, by simp [hcw], h⟩
    obtain ⟨kind, text, start, stop⟩ := t
    obtain rfl : text = String.ofList (c :: w) := by rw [← hcw, String.ofList_toList]
    dsimp only at hkind hstart hstop
    subst hkind hstart hstop
    rw [String.toList_append, String.toList_ofList, List.cons_append]
    rw [String.utf8ByteSize_append] at hcut
    exact .cons htail hends hcut

end Lexer.Cut

theorem tokenizes_of_cut {classes : CharClasses} {source : String} {ts : List Token}
    (h : Lexer.Cut classes 0 source.toList ts) : Tokenizes classes source ts := by
  have hspans := h.spans
  have hslices := h.slices "" rfl
  rw [String.ofList_toList] at hspans hslices
  rw [Nat.zero_add] at hspans
  rw [String.empty_append] at hslices
  exact
    { nonempty := fun t ht => by
        obtain ⟨c, w, hcw, -⟩ := h.ofClass t ht
        exact fun he => by simp [he] at hcw
      texts := by rw [h.texts, String.ofList_toList]
      spans := hspans
      slices := hslices
      ofClass := h.ofClass
      longest := h.longest }

theorem Tokenizes.cut {classes : CharClasses} {source : String} {ts : List Token}
    (h : Tokenizes classes source ts) : Lexer.Cut classes 0 source.toList ts := by
  have hspans := h.spans
  have hslices := h.slices
  rw [← String.empty_append (s := source)] at hspans hslices
  exact .of_tokens "" h.nonempty h.texts hspans hslices h.ofClass h.longest

/-- Splitting a source succeeds if it can be cut up so that each token is as long as its class
allows, and there is only one way to do that. -/
theorem lexWith_unique_tokenization (classes : CharClasses) (source : String) :
    (∀ ts, lexWith classes source = .ok ts ↔ Tokenizes classes source ts) ∧
      ∀ ts ts', Tokenizes classes source ts → Tokenizes classes source ts' → ts = ts' := by
  have hiff : ∀ ts, lexWith classes source = .ok ts ↔ Tokenizes classes source ts := fun ts =>
    lexWith_ok.trans ⟨fun h => tokenizes_of_cut (Lexer.cut_of_scan h),
      fun h => Lexer.scan_of_cut h.cut⟩
  exact ⟨hiff, fun ts ts' h h' =>
    Except.ok.inj (((hiff ts).mpr h).symm.trans ((hiff ts').mpr h'))⟩

def Sample.mixed : List Token :=
  [⟨.placeholder, "_", ⟨0, 1⟩⟩, ⟨.whitespace, " ", ⟨1, 2⟩⟩, ⟨.ident, "é1", ⟨2, 5⟩⟩,
    ⟨.newline, "\n", ⟨5, 6⟩⟩, ⟨.number, "42", ⟨6, 8⟩⟩, ⟨.symbol, "->", ⟨8, 10⟩⟩,
    ⟨.symbol, "(", ⟨10, 11⟩⟩, ⟨.str, "\"\\\"\"", ⟨11, 15⟩⟩, ⟨.symbol, ")", ⟨15, 16⟩⟩]

theorem mixed_tokenization :
    lex "_ é1\n42->(\"\\\"\")" = .ok Sample.mixed ∧
      Tokenizes .unicode "_ é1\n42->(\"\\\"\")" Sample.mixed ∧
      ∀ ts, Tokenizes .unicode "_ é1\n42->(\"\\\"\")" ts → ts = Sample.mixed := by
  have hok : lex "_ é1\n42->(\"\\\"\")" = .ok Sample.mixed := rfl
  obtain ⟨hiff, hunique⟩ := lexWith_unique_tokenization .unicode "_ é1\n42->(\"\\\"\")"
  have h := (hiff Sample.mixed).mp hok
  exact ⟨hok, h, fun ts hts => hunique ts Sample.mixed hts h⟩

end Distfix
