/-
  LEXING piece by piece.

  The lexer goes through a text one character at a time.  Here is what it does with a whole piece
  of it: a symbol, a string literal, a parenthesis, a blank.

  Between the pieces two states of the lexer matter.  `State.Between tokens` says that it is
  between tokens and has cut off these.  `State.Ends tokens` says so too, or that it is inside of a
  symbol, which any of the other pieces will end: a symbol does not know its end before the next
  character.  So each piece takes `Ends` to `Between`, but for a symbol, which has to begin where
  the lexer is `Between` and leaves it in `Ends`.

  Escaped text is what may stand between two double quotes (`Text.isEscaped`), and it stands in a
  literal as it is.
-/
import SmallScheme.Reader.Token
import SmallScheme.Text.Escape

namespace SmallScheme

/-! ## Escaped text -/

/-- Every backslash escapes the character after it, and every double quote is escaped. -/
def Text.isEscaped : List Char → Bool
  | [] => true
  | ['\\'] => false
  | '\\' :: _ :: cs => isEscaped cs
  | c :: cs => c ≠ '"' && isEscaped cs

/-- A backslash takes the next character with it, whatever that is. -/
theorem Text.isEscaped_pair (c : Char) (cs : List Char) :
    Text.isEscaped ('\\' :: c :: cs) = Text.isEscaped cs := by
  rw [Text.isEscaped]

/-- Any other character must not be a double quote. -/
theorem Text.isEscaped_cons {c : Char} (hc : c ≠ '\\') (cs : List Char) :
    Text.isEscaped (c :: cs) = true ↔ c ≠ '"' ∧ Text.isEscaped cs = true := by
  rw [Text.isEscaped]
  · rw [Bool.and_eq_true, decide_eq_true_eq]
  · exact fun h _ => hc h
  · exact fun _ _ h _ => hc h

/-- A character is no backslash if it is neither one alone nor one with something to escape. -/
theorem Text.ne_backslash {c : Char} {cs : List Char} (hlone : c = '\\' → cs = [] → False)
    (hpair : ∀ d ds, c = '\\' → cs = d :: ds → False) : c ≠ '\\' := by
  intro hc
  cases cs with
  | nil => exact hlone hc rfl
  | cons d ds => exact hpair d ds hc rfl

/-- Escaped text stands in a literal as it is. -/
theorem Text.literalBody_of_isEscaped {cs : List Char} (h : Text.isEscaped cs = true) :
    Text.literalBody cs = cs := by
  induction cs using Text.literalBody.induct with
  | case1 => rfl
  | case2 => cases h
  | case3 c cs ih =>
    rw [Text.isEscaped_pair] at h
    rw [Text.literalBody, ih h]
  | case4 cs ih =>
    rw [Text.isEscaped_cons (by decide)] at h
    exact absurd rfl h.1
  | case5 c cs hlone hpair hquote ih =>
    have hc : c ≠ '\\' := Text.ne_backslash hlone hpair
    rw [Text.isEscaped_cons hc] at h
    rw [Text.literalBody, ih h.2]
    · exact hlone
    · exact hpair
    · exact hquote

namespace Lexer

/-! ## The lexer's states -/

/-- The lexer after more characters. -/
def State.feed (s : State) (cs : List Char) : State := cs.foldl State.step s

/-- No characters, no change. -/
theorem State.feed_nil (s : State) : s.feed [] = s := rfl

/-- One character, and then the others. -/
theorem State.feed_cons (s : State) (c : Char) (cs : List Char) :
    s.feed (c :: cs) = (s.step c).feed cs := rfl

/-- Some characters, and then others. -/
theorem State.feed_append (s : State) (cs ds : List Char) :
    s.feed (cs ++ ds) = (s.feed cs).feed ds := List.foldl_append

/-- The lexer counts characters. -/
theorem State.position_feed (s : State) (cs : List Char) :
    (s.feed cs).position = s.position + cs.length := by
  induction cs generalizing s with
  | nil => rfl
  | cons c cs ih =>
    rw [State.feed_cons, ih, List.length_cons]
    show s.position + 1 + cs.length = _
    omega

/-- The lexer is between tokens and has cut off these, the last one first. -/
def State.Between (s : State) (tokens : List Token) : Prop :=
  s.mode = .gap ∧ s.tokens = tokens

/-- The lexer is between tokens, or inside of a symbol; if the symbol ends here, these are the
    tokens, the last one first. -/
def State.Ends (s : State) (tokens : List Token) : Prop :=
  s.Between tokens ∨ ∃ taken, s.mode = .symbol taken ∧ token .symbol taken :: s.tokens = tokens

variable {s : State} {tokens : List Token}

/-- A character that no symbol may hold ends the symbol. -/
theorem State.Ends.step (h : s.Ends tokens) {c : Char} (hc : isSymbolChar c = false) :
    s.step c
      = ⟨s.position + 1, (begin s.position c tokens).1, (begin s.position c tokens).2⟩ := by
  rw [State.step]
  rcases h with ⟨hmode, rfl⟩ | ⟨taken, hmode, rfl⟩
  · rw [hmode]
    rfl
  · rw [hmode, advance, hc, if_neg Bool.false_ne_true]

/-- A blank cannot be in a symbol. -/
theorem isSymbolChar_of_isBlank {c : Char} (hc : Text.isBlank c = true) :
    isSymbolChar c = false := by
  unfold isSymbolChar
  simp only [hc, Bool.true_or, Bool.not_true]

/-- Nor does it begin anything. -/
theorem begin_blank (position : Nat) {c : Char} (hc : Text.isBlank c = true)
    (tokens : List Token) : begin position c tokens = (.gap, tokens) := by
  unfold begin
  rw [if_pos hc]

/-- A blank ends a symbol. -/
theorem State.Ends.blank (h : s.Ends tokens) {c : Char} (hc : Text.isBlank c = true) :
    (s.step c).Between tokens := by
  rw [h.step (isSymbolChar_of_isBlank hc), begin_blank s.position hc]
  exact ⟨rfl, rfl⟩

/-- So does an opening parenthesis, and is a token itself. -/
theorem State.Ends.opening (h : s.Ends tokens) :
    (s.step '(').Between (⟨.opening, "("⟩ :: tokens) := by
  rw [h.step (by decide)]
  exact ⟨rfl, rfl⟩

/-- So does a closing one. -/
theorem State.Ends.closing (h : s.Ends tokens) :
    (s.step ')').Between (⟨.closing, ")"⟩ :: tokens) := by
  rw [h.step (by decide)]
  exact ⟨rfl, rfl⟩

/-- At the end of the text no string is open. -/
theorem State.Ends.finish (h : s.Ends tokens) : s.finish = ⟨tokens.reverse, none⟩ := by
  rw [State.finish]
  rcases h with ⟨hmode, rfl⟩ | ⟨taken, hmode, rfl⟩ <;> rw [hmode]

/-! ## Symbols -/

/-- A character that a symbol may hold begins one. -/
theorem begin_symbol (position : Nat) {c : Char} (hc : isSymbolChar c = true)
    (tokens : List Token) : begin position c tokens = (.symbol [c], tokens) := by
  simp only [isSymbolChar, Bool.not_eq_true', Bool.or_eq_false_iff, beq_eq_false_iff_ne] at hc
  obtain ⟨⟨⟨⟨⟨hblank, hopening⟩, hclosing⟩, hquote⟩, hstring⟩, hcomment⟩ := hc
  unfold begin
  rw [hblank, if_neg Bool.false_ne_true]
  -- each character that begins something else is none that a symbol may hold
  split <;> first | contradiction | rfl

/-- Inside of a symbol, characters that it may hold are taken. -/
theorem State.feed_symbol {taken : List Char} (h : s.mode = .symbol taken) {cs : List Char}
    (hcs : ∀ c ∈ cs, isSymbolChar c = true) :
    (s.feed cs).mode = .symbol (cs.reverse ++ taken) ∧ (s.feed cs).tokens = s.tokens := by
  induction cs generalizing s taken with
  | nil => exact ⟨h, rfl⟩
  | cons c cs ih =>
    obtain ⟨hc, hcs⟩ := List.forall_mem_cons.mp hcs
    have hstep : s.step c = ⟨s.position + 1, .symbol (c :: taken), s.tokens⟩ := by
      rw [State.step, h, advance, hc, if_pos rfl]
    obtain ⟨hmode, htokens⟩ := ih (s := s.step c) (by rw [hstep]) hcs
    rw [State.feed_cons, hmode, htokens, hstep, List.reverse_cons, List.append_assoc]
    exact ⟨rfl, rfl⟩

/-- Characters of a symbol make a symbol token. -/
theorem State.Between.symbol (h : s.Between tokens) {cs : List Char} (hne : cs ≠ [])
    (hcs : ∀ c ∈ cs, isSymbolChar c = true) :
    (s.feed cs).Ends (⟨.symbol, String.ofList cs⟩ :: tokens) := by
  obtain ⟨c, cs, rfl⟩ := List.exists_cons_of_ne_nil hne
  obtain ⟨hc, hcs⟩ := List.forall_mem_cons.mp hcs
  have hstep : s.step c = ⟨s.position + 1, .symbol [c], tokens⟩ := by
    rw [State.step, h.1, h.2, advance, begin_symbol s.position hc]
  obtain ⟨hmode, htokens⟩ := State.feed_symbol (s := s.step c) (by rw [hstep]) hcs
  refine Or.inr ⟨cs.reverse ++ [c], hmode, ?_⟩
  rw [State.feed_cons, htokens, hstep, token, List.reverse_append, List.reverse_reverse]
  rfl

/-! ## String literals -/

/-- Inside of a string, escaped text is taken: the induction goes two characters at a time where the
    first one is a backslash. -/
theorem State.feed_escaped {start : Nat} {taken cs : List Char}
    (h : s.mode = .string start taken) (hcs : Text.isEscaped cs = true) :
    (s.feed cs).mode = .string start (cs.reverse ++ taken) ∧ (s.feed cs).tokens = s.tokens := by
  induction cs using Text.isEscaped.induct generalizing s taken with
  | case1 => exact ⟨h, rfl⟩
  | case2 => cases hcs
  | case3 c cs ih =>
    -- two steps: the backslash, and whatever it escapes
    rw [Text.isEscaped_pair] at hcs
    have hstep : (s.step '\\').step c
        = ⟨s.position + 1 + 1, .string start (c :: '\\' :: taken), s.tokens⟩ := by
      rw [State.step, State.step, h]
      rfl
    obtain ⟨hmode, htokens⟩ := ih (s := (s.step '\\').step c) (by rw [hstep]) hcs
    rw [State.feed_cons, State.feed_cons, hmode, htokens, hstep]
    simp only [List.reverse_cons, List.append_assoc, List.cons_append, List.nil_append, and_self]
  | case4 c cs hlone hpair ih =>
    have hc : c ≠ '\\' := Text.ne_backslash hlone hpair
    obtain ⟨hquote, hcs⟩ := (Text.isEscaped_cons hc cs).mp hcs
    have hstep : s.step c = ⟨s.position + 1, .string start (c :: taken), s.tokens⟩ := by
      rw [State.step, h, advance, if_neg hquote, if_neg hc]
    obtain ⟨hmode, htokens⟩ := ih (s := s.step c) (by rw [hstep]) hcs
    rw [State.feed_cons, hmode, htokens, hstep, List.reverse_cons, List.append_assoc]
    exact ⟨rfl, rfl⟩

/-- Escaped text between double quotes makes a string token. -/
theorem State.Ends.string (h : s.Ends tokens) {cs : List Char} (hcs : Text.isEscaped cs = true) :
    (s.feed ('"' :: cs ++ ['"'])).Between
      (⟨.string, String.ofList ('"' :: cs ++ ['"'])⟩ :: tokens) := by
  have hstep : s.step '"' = ⟨s.position + 1, .string s.position ['"'], tokens⟩ := by
    rw [h.step (by decide)]
    rfl
  obtain ⟨hmode, htokens⟩ := State.feed_escaped (s := s.step '"') (by rw [hstep]) hcs
  rw [List.cons_append, State.feed_cons, State.feed_append, State.feed_cons, State.feed_nil]
  rw [State.step, hmode, htokens, hstep, advance, if_pos rfl]
  refine ⟨rfl, ?_⟩
  rw [token, List.reverse_cons, List.reverse_append, List.reverse_reverse]
  rfl

end Lexer

end SmallScheme
