/-
  LITERALS of any string.

  Writing a literal, cutting it off as a token and finding out what its escapes mean are three
  walks over one text, and they take steps of different widths.  Whatever the text is, the inside
  of its literal is escaped (`isEscaped_literalBody`), and this is all that the lexer asks for; the
  backslashes that are put in are no part of a code escape and mean nothing
  (`unescapeChars_literalBody`).  A text is its own inside just where it is escaped, and this can
  be told from the backslashes before each place (`isEscaped_iff`).

  Structure:
    1. What is escaped.  `isEscaped` is a walk over the text; `isEscaped_iff` says without it
       which places have to come after an odd number of backslashes.
    2. The inside of a literal, in the recursion that writes it.
    3. What escapes mean: the same inside of the literal as in the text.
    4. Literals: what is read of them, and when two of them are read as the same.
-/
import Mathlib.Data.List.Induction
import SmallScheme.Proofs.RoundTrip

namespace SmallScheme

namespace Text

/-! ## What is escaped -/

/-- How many backslashes stand at the end of the text. -/
def backslashes (cs : List Char) : Nat := (cs.reverse.takeWhile (· == '\\')).length

/-- What comes after the text is escaped: after an odd number of backslashes. -/
def Escapes (before : List Char) : Prop := backslashes before % 2 = 1

/-- Right after `before` the text has a double quote, or its last character, a backslash. -/
def IsStop (before cs : List Char) : Prop :=
  (∃ after, cs = before ++ '"' :: after) ∨ cs = before ++ ['\\']

/-- Is what comes next escaped, after one more character? -/
def escapesNext (escaped : Bool) (c : Char) : Bool := !escaped && c == '\\'

/-- One more character: what comes after it is escaped if it is a backslash that is not. -/
theorem escapes_append_singleton (before : List Char) (c : Char) :
    Escapes (before ++ [c]) ↔ ¬ Escapes before ∧ c = '\\' := by
  unfold Escapes backslashes
  rw [List.reverse_append, List.reverse_singleton, List.singleton_append, List.takeWhile_cons]
  by_cases hc : c = '\\'
  · rw [if_pos (beq_iff_eq.mpr hc), List.length_cons]
    simp only [hc, and_true]
    omega
  · rw [if_neg (by simpa using hc)]
    simp [hc]

/-- Whether a place is escaped can be told on the way to it. -/
theorem escapes_iff (before : List Char) :
    Escapes before ↔ before.foldl escapesNext false = true := by
  induction before using List.reverseRecOn with
  | nil => exact ⟨nofun, nofun⟩
  | append_singleton before c ih =>
    rw [escapes_append_singleton, ih, List.foldl_append, List.foldl_cons, List.foldl_nil,
      escapesNext, Bool.and_eq_true, beq_iff_eq, Bool.not_eq_true', Bool.not_eq_true]

/-- Right at the beginning, the first character may be a stop. -/
theorem isStop_nil_iff (c : Char) (cs : List Char) :
    IsStop [] (c :: cs) ↔ c = '"' ∨ c = '\\' ∧ cs = [] := by
  constructor
  · rintro (⟨after, h⟩ | h)
    · exact Or.inl (List.cons.inj h).1
    · exact Or.inr (List.cons.inj h)
  · rintro (rfl | ⟨rfl, rfl⟩)
    · exact Or.inl ⟨cs, rfl⟩
    · exact Or.inr rfl

/-- Otherwise the stop is one of the rest. -/
theorem isStop_cons_iff (c d : Char) (before cs : List Char) :
    IsStop (d :: before) (c :: cs) ↔ c = d ∧ IsStop before cs := by
  unfold IsStop
  simp only [List.cons_append, List.cons.injEq, exists_and_left, ← and_or_left]

/-- Each stop past the first character is one of the rest. -/
theorem forall_isStop_cons (p : List Char → Prop) (c : Char) (cs : List Char) :
    (∀ before, IsStop before (c :: cs) → p before) ↔
      (c = '"' ∨ c = '\\' ∧ cs = [] → p []) ∧ ∀ before, IsStop before cs → p (c :: before) := by
  constructor
  · intro h
    exact ⟨fun hc => h [] ((isStop_nil_iff c cs).mpr hc),
      fun before hstop => h (c :: before) ((isStop_cons_iff c c before cs).mpr ⟨rfl, hstop⟩)⟩
  · rintro ⟨hnil, hcons⟩ before hstop
    -- the stop is the first character itself, or it comes after it
    cases before with
    | nil => exact hnil ((isStop_nil_iff c cs).mp hstop)
    | cons d before =>
      obtain ⟨rfl, hrest⟩ := (isStop_cons_iff c d before cs).mp hstop
      exact hcons before hrest

/-- There is no stop in an empty text. -/
theorem not_isStop_nil (before : List Char) : ¬ IsStop before [] := by
  rintro (⟨after, h⟩ | h) <;> exact absurd h.symm (by simp)

/-- A text is escaped where all of its stops are. -/
theorem isEscaped_iff (cs : List Char) :
    isEscaped cs = true ↔ ∀ before, IsStop before cs → Escapes before := by
  simp only [escapes_iff]
  induction cs using isEscaped.induct with
  | case1 => exact ⟨fun _ before hstop => absurd hstop (not_isStop_nil before), fun _ => rfl⟩
  | case2 =>
    refine ⟨fun h => absurd h Bool.false_ne_true, fun h => ?_⟩
    exact absurd (h [] (Or.inr rfl)) Bool.false_ne_true
  | case3 c cs ih =>
    -- after a pair the walk is as it was before
    have hpair : ∀ before, ('\\' :: c :: before).foldl escapesNext false
        = before.foldl escapesNext false := fun before => rfl
    rw [isEscaped_pair, ih, forall_isStop_cons, forall_isStop_cons]
    simp only [hpair]
    refine ⟨fun h => ⟨by simp, fun _ => rfl, h⟩, fun h => h.2.2⟩
  | case4 c cs hlone hpair ih =>
    have hc : c ≠ '\\' := ne_backslash hlone hpair
    have hplain : escapesNext false c = false := by
      rw [escapesNext, beq_eq_false_iff_ne.mpr hc, Bool.and_false]
    rw [isEscaped_cons hc, ih, forall_isStop_cons]
    simp only [List.foldl_cons, hplain, List.foldl_nil, hc, false_and, or_false]
    exact and_congr_left' ⟨fun hne heq => absurd heq hne, fun h heq => Bool.false_ne_true (h heq)⟩

/-! ## The inside of a literal -/

/-- The inside of a literal is escaped. -/
theorem isEscaped_literalBody (cs : List Char) : isEscaped (literalBody cs) = true := by
  induction cs using literalBody.induct with
  | case1 => rfl
  | case2 => rfl
  | case3 c cs ih => rw [literalBody, isEscaped_pair, ih]
  | case4 cs ih => rw [literalBody, isEscaped_pair, ih]
  | case5 c cs hlone hpair hquote ih =>
    have hc : c ≠ '\\' := ne_backslash hlone hpair
    rw [literalBody, isEscaped_cons hc]
    · exact ⟨hquote, ih⟩
    · exact hlone
    · exact hpair
    · exact hquote

/-- Only what is escaped already stays as it is. -/
theorem literalBody_eq_self_iff (cs : List Char) :
    literalBody cs = cs ↔ isEscaped cs = true := by
  refine ⟨fun h => ?_, literalBody_of_isEscaped⟩
  rw [← h]
  exact isEscaped_literalBody cs

/-- A character that is neither a backslash nor a double quote stays as it is. -/
theorem literalBody_cons {c : Char} (hlone : c ≠ '\\') (hquote : c ≠ '"') (cs : List Char) :
    literalBody (c :: cs) = c :: literalBody cs := by
  rw [literalBody]
  · exact fun h _ => hlone h
  · exact fun _ _ h _ => hlone h
  · exact hquote

/-- A digit stays where it is, and nothing else turns into one. -/
theorem literalBody_digit (c : Char) (cs : List Char) :
    literalBody (c :: cs) = c :: literalBody cs ∨
      hexValue? c = none ∧ ∃ ds, literalBody (c :: cs) = '\\' :: ds := by
  by_cases hlone : c = '\\'
  · subst hlone
    cases cs with
    | nil => exact Or.inr ⟨rfl, _, rfl⟩
    | cons d ds => exact Or.inr ⟨rfl, _, rfl⟩
  · by_cases hquote : c = '"'
    · subst hquote
      exact Or.inr ⟨rfl, _, rfl⟩
    · exact Or.inl (literalBody_cons hlone hquote cs)

/-- The digits of a code escape are the same inside of a literal. -/
theorem hexCode?_literalBody (width high : Nat) (cs : List Char) :
    hexCode? width high (literalBody cs) = hexCode? width high cs := by
  induction width generalizing high cs with
  | zero => rfl
  | succ width ih =>
    cases cs with
    | nil => rfl
    | cons c cs =>
      rcases literalBody_digit c cs with h | ⟨hnone, ds, h⟩
      · rw [h, hexCode?, hexCode?]
        split
        · exact ih _ cs
        · rfl
      · rw [h, hexCode?, hexCode?, hnone]
        rfl

/-- What comes after a code escape is the inside of the literal for what comes after it. -/
theorem drop_literalBody {width high code : Nat} {cs : List Char}
    (h : hexCode? width high cs = some code) :
    (literalBody cs).drop width = literalBody (cs.drop width) := by
  induction width generalizing high cs with
  | zero => rfl
  | succ width ih =>
    cases cs with
    | nil => cases h
    | cons c cs =>
      rw [hexCode?] at h
      rcases literalBody_digit c cs with hbody | ⟨hnone, -⟩
      · rw [hbody, List.drop_succ_cons, List.drop_succ_cons]
        split at h
        · exact ih h
        · cases h
      · rw [hnone] at h
        cases h

/-! ## What escapes mean -/

/-- A code escape is the code point that its digits write. -/
theorem unescapeChars_code {letter : Char} {cs : List Char} {code : Nat}
    (h : escapeCode? letter cs = some code) : unescapeChars ('\\' :: letter :: cs)
      = code :: unescapeChars (cs.drop (codeWidth letter)) := by
  rw [unescapeChars, h]

/-- Another escape is what its letter stands for. -/
theorem unescapeChars_letter {letter : Char} {cs : List Char}
    (h : escapeCode? letter cs = none) :
    unescapeChars ('\\' :: letter :: cs) = (escapeLetter letter).toNat :: unescapeChars cs := by
  rw [unescapeChars, h]

/-- What is no escape stands for itself. -/
theorem unescapeChars_cons {c : Char} (hc : c ≠ '\\') (cs : List Char) :
    unescapeChars (c :: cs) = c.toNat :: unescapeChars cs := by
  rw [unescapeChars]
  · exact fun h _ => hc h
  · exact fun _ _ h _ => hc h

/-- A backslash and a double quote after a backslash stand for themselves, whatever follows. -/
theorem unescapeChars_self {c : Char} (hc : c = '\\' ∨ c = '"') (cs : List Char) :
    unescapeChars ('\\' :: c :: cs) = c.toNat :: unescapeChars cs := by
  rcases hc with rfl | rfl <;> exact unescapeChars_letter rfl

/-- So is a code escape as a whole. -/
theorem escapeCode?_literalBody (letter : Char) (cs : List Char) :
    escapeCode? letter (literalBody cs) = escapeCode? letter cs := by
  rw [escapeCode?, escapeCode?, hexCode?_literalBody]

/-- The inside of its literal means the same as the text. -/
theorem unescapeChars_literalBody (cs : List Char) :
    unescapeChars (literalBody cs) = unescapeChars cs := by
  induction cs using unescapeChars.induct with
  | case1 => rfl
  | case2 =>
    rw [literalBody, unescapeChars_self (Or.inl rfl), unescapeChars, unescapeChars]
  | case3 letter cs code hcode ih =>
    have hcode' : escapeCode? letter (literalBody cs) = some code := by
      rw [escapeCode?_literalBody, hcode]
    have hdrop : (literalBody cs).drop (codeWidth letter)
        = literalBody (cs.drop (codeWidth letter)) := by
      rw [escapeCode?] at hcode
      split at hcode
      · cases hcode
      · exact drop_literalBody hcode
    rw [literalBody, unescapeChars_code hcode', unescapeChars_code hcode, hdrop, ih]
  | case4 letter cs hcode ih =>
    have hcode' : escapeCode? letter (literalBody cs) = none := by
      rw [escapeCode?_literalBody, hcode]
    rw [literalBody, unescapeChars_letter hcode', unescapeChars_letter hcode, ih]
  | case5 c cs hlone hpair ih =>
    have hc : c ≠ '\\' := ne_backslash hlone hpair
    rw [unescapeChars_cons hc]
    by_cases hquote : c = '"'
    -- the backslash that was put in is read together with the quote
    · subst hquote
      rw [literalBody, unescapeChars_self (Or.inr rfl), ih]
    · rw [literalBody_cons hc hquote, unescapeChars_cons hc, ih]

end Text

/-! ## Literals -/

/-- The text between the quotes of the literal for a text. -/
def Text.inside (s : String) : String := String.ofList (Text.literalBody s.toList)

/-- A text and its inside have the same literal. -/
theorem Text.literal_inside (s : String) : Text.literal (Text.inside s) = Text.literal s := by
  rw [Text.literal, Text.literal, Text.inside, String.toList_ofList,
    Text.literalBody_of_isEscaped (Text.isEscaped_literalBody s.toList)]

/-- They mean the same. -/
theorem Text.unescape_inside (s : String) : Text.unescape (Text.inside s) = Text.unescape s := by
  rw [Text.unescape, Text.unescape, Text.inside, String.toList_ofList,
    Text.unescapeChars_literalBody]

/-- In the inside, all escapes are in order. -/
theorem Text.isEscaped_inside (s : String) : Text.isEscaped (Text.inside s).toList = true := by
  rw [Text.inside, String.toList_ofList]
  exact Text.isEscaped_literalBody s.toList

/-- A text is its own inside just if they are in order in it already. -/
theorem Text.inside_eq_self_iff (s : String) :
    Text.inside s = s ↔ Text.isEscaped s.toList = true := by
  rw [← Text.literalBody_eq_self_iff, Text.inside]
  constructor
  · intro h
    have hbody : (String.ofList (Text.literalBody s.toList)).toList = Text.literalBody s.toList :=
      String.toList_ofList
    rw [← hbody, h]
  · intro h
    rw [h, String.ofList_toList]

/-- The literal for any string is one string token. -/
theorem Tokens.ofText_literal (s : String) :
    Tokens.ofText (Text.literal s).toList = ⟨[⟨.string, Text.literal s⟩], none⟩ := by
  have hstart : (⟨0, .gap, []⟩ : Lexer.State).Ends [] := Or.inl ⟨rfl, rfl⟩
  have hend := hstart.string (Text.isEscaped_literalBody s.toList)
  have hliteral : (Text.literal s).toList = '"' :: Text.literalBody s.toList ++ ['"'] :=
    String.toList_ofList
  show Lexer.State.finish (Lexer.State.feed _ _) = _
  rw [hliteral, Lexer.State.Ends.finish (Or.inl hend)]
  rfl

/-- The literal for any string is read as what stands between its quotes. -/
theorem Script.single_literal (room : Nat) (s : String) :
    (Script.ofText room (Text.literal s)).single = .ok (.str (Text.inside s)) := by
  have hreadable : Value.AllReadable [.str (Text.inside s)] := ⟨Text.isEscaped_inside s, trivial⟩
  have hroom : ∀ v ∈ [Value.str (Text.inside s)], v.Fits room :=
    List.forall_mem_singleton.mpr (Value.fits_of_height_le (Nat.zero_le room))
  have hread := Value.ofText_texts hreadable hroom
  have htext : Value.texts true [.str (Text.inside s)] = Text.literal s := Text.literal_inside s
  rw [htext] at hread
  rw [hread]
  rfl

/-- Any string is printed, in any room: it is a leaf. -/
theorem Value.print_str (s : String) (room : Nat) :
    (Value.str s).print room true = .ok (Text.literal s) := by
  have hshort : ∀ n ∈ (Value.str s).integers, Numeral.isTooLong n = false := nofun
  exact (Value.print_of_short room hshort).resolve_right fun ⟨_, hlt⟩ => Nat.not_lt_zero _ hlt

/-- Printing is safe for reading and for display, whatever the string is.  It gives a text that is
    one string token, and is read as a string that is printed in the same way and means the same;
    and this is the string itself if no double quote in it stands without an escape and it does
    not end in a backslash without one, and otherwise not. -/
theorem printed_string_is_safe (s : String) (room : Nat) :
    ∃ (text t : String),
      (Value.str s).print room true = .ok text ∧
      Tokens.ofText text.toList = ⟨[⟨.string, text⟩], none⟩ ∧
      (Script.ofText room text).single = .ok (.str t) ∧
      (Value.str t).print room true = .ok text ∧
      Text.unescape t = Text.unescape s ∧
      (t = s ↔
        (∀ before after, s.toList = before ++ '"' :: after → Text.Escapes before) ∧
        ∀ before, s.toList = before ++ ['\\'] → Text.Escapes before) := by
  refine ⟨Text.literal s, Text.inside s, Value.print_str s room, Tokens.ofText_literal s,
    Script.single_literal room s, ?_, Text.unescape_inside s, ?_⟩
  · rw [Value.print_str, Text.literal_inside]
  · rw [Text.inside_eq_self_iff, Text.isEscaped_iff]
    constructor
    · intro h
      exact ⟨fun before after hquote => h before (Or.inl ⟨after, hquote⟩),
        fun before hlast => h before (Or.inr hlast)⟩
    · rintro ⟨hquotes, hlast⟩ before (⟨after, hquote⟩ | hend)
      · exact hquotes before after hquote
      · exact hlast before hend

/-- A bare quote and a backslash at the end get a backslash; the pair before them stays. -/
example : Text.inside "\\x\"\\" = "\\x\\\"\\\\" := by decide

end SmallScheme
