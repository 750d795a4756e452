/-
  TEXTS THAT ARE JOINED by the end of a line.

  The end of a line ends a comment and a symbol, and only a string goes on after it.  So after a
  text with no string that is open the lexer is where it would be at the beginning of the next
  text, but for its position and the tokens that it has (`Tokens.ofText_joined`).

  The reader takes the tokens of both texts for those of the first, and then, if it accepts the
  first, for those of the second (`Script.ofText_joined`).  What is different is the place of a
  string that nothing closes, for it is counted from the beginning of the first text.

  Structure:
    1. The lexer.  A state may be moved: to a later position, with more tokens before it.  Every
       step of the lexer goes with the move, so a whole text does.
    2. The reader, which does not see positions at all.
    3. The place of a string: the one thing in a script that a move changes.
-/
import SmallScheme.Proofs.CutOff

namespace SmallScheme

/-! ## The lexer -/

namespace Lexer

/-- What the lexer is inside of, where so many characters stand before. -/
def Mode.moved (before : Nat) : Mode → Mode
  | .string start taken => .string (before + start) taken
  | .pair start taken => .pair (before + start) taken
  | mode => mode

/-- The lexer, where so many characters and these tokens, the last one first, stand before. -/
def State.moved (before : Nat) (earlier : List Token) (s : State) : State :=
  ⟨before + s.position, s.mode.moved before, s.tokens ++ earlier⟩

variable (before : Nat) (earlier : List Token)

/-- To begin a token goes with the move. -/
theorem begin_moved (position : Nat) (c : Char) (tokens : List Token) :
    begin (before + position) c (tokens ++ earlier)
      = ((begin position c tokens).1.moved before, (begin position c tokens).2 ++ earlier) := by
  unfold begin
  split
  · rfl
  · split <;> rfl

/-- So does to go on with it, -/
theorem advance_moved (position : Nat) (c : Char) (mode : Mode) (tokens : List Token) :
    advance (before + position) c (mode.moved before) (tokens ++ earlier)
      = ((advance position c mode tokens).1.moved before,
        (advance position c mode tokens).2 ++ earlier) := by
  cases mode with
  | gap => exact begin_moved before earlier position c tokens
  | comment =>
    show ((if c = '\n' then Mode.gap else .comment), tokens ++ earlier) = _
    rw [advance]
    -- where the text starts matters to a string only, which remembers its first quote
    split <;> rfl
  | symbol taken =>
    show advance (before + position) c (.symbol taken) (tokens ++ earlier) = _
    rw [advance, advance]
    split
    · rfl
    · exact begin_moved before earlier position c (token .symbol taken :: tokens)
  | string start taken =>
    show advance (before + position) c (.string (before + start) taken) (tokens ++ earlier) = _
    rw [advance, advance]
    split
    · rfl
    · split <;> rfl
  | pair start taken => rfl

/-- What stands before does not matter to a step of the lexer. -/
theorem State.step_moved (s : State) (c : Char) :
    (s.moved before earlier).step c = (s.step c).moved before earlier := by
  have hadvance := advance_moved before earlier s.position c s.mode s.tokens
  rw [State.step, State.moved, hadvance]
  rfl

/-- to go on with a whole text, -/
theorem State.feed_moved (s : State) (cs : List Char) :
    (s.moved before earlier).feed cs = (s.feed cs).moved before earlier := by
  induction cs generalizing s with
  | nil => rfl
  | cons c cs ih => rw [State.feed_cons, State.feed_cons, State.step_moved, ih]

/-- and to come to the end. -/
theorem State.finish_moved (s : State) :
    (s.moved before earlier).finish
      = ⟨earlier.reverse ++ s.finish.list, s.finish.unclosed?.map (before + ·)⟩ := by
  obtain ⟨position, mode, tokens⟩ := s
  cases mode with
  | symbol taken =>
    show Tokens.mk (token .symbol taken :: (tokens ++ earlier)).reverse none
      = ⟨earlier.reverse ++ (token .symbol taken :: tokens).reverse, none⟩
    rw [← List.reverse_append]
    rfl
  | _ =>
    show Tokens.mk (tokens ++ earlier).reverse _ = ⟨earlier.reverse ++ tokens.reverse, _⟩
    rw [List.reverse_append]
    rfl

/-- Where no string is open, the end of a line ends what the lexer is inside of. -/
theorem State.step_newline {s : State} (h : s.finish.unclosed? = none) :
    s.step '\n' = ⟨s.position + 1, .gap, s.finish.list.reverse⟩ := by
  obtain ⟨position, mode, tokens⟩ := s
  cases mode with
  | string start taken => cases h
  | pair start taken => cases h
  | symbol taken =>
    show State.mk (position + 1) .gap (token .symbol taken :: tokens)
      = ⟨position + 1, .gap, (token .symbol taken :: tokens).reverse.reverse⟩
    rw [List.reverse_reverse]
  | _ =>
    show State.mk (position + 1) .gap tokens = ⟨position + 1, .gap, tokens.reverse.reverse⟩
    rw [List.reverse_reverse]

end Lexer

/-- If no string is open at the end of a text, joining it with another one joins their tokens. -/
theorem Tokens.ofText_joined (source more : String)
    (h : (Tokens.ofText source.toList).unclosed? = none) :
    Tokens.ofText (source ++ "\n" ++ more).toList
      = ⟨(Tokens.ofText source.toList).list ++ (Tokens.ofText more.toList).list,
        (Tokens.ofText more.toList).unclosed?.map (source.length + 1 + ·)⟩ := by
  have hchars : (source ++ "\n" ++ more).toList = source.toList ++ '\n' :: more.toList := by
    simp only [String.toList_append, List.append_assoc]
    rfl
  have hposition := Lexer.State.position_feed ⟨0, .gap, []⟩ source.toList
  -- the lexer begins the second text as it begins any text, with the first one before it
  have hbegin : (Lexer.State.feed ⟨0, .gap, []⟩ source.toList).step '\n'
      = Lexer.State.moved (source.length + 1) (Tokens.ofText source.toList).list.reverse
        ⟨0, .gap, []⟩ := by
    rw [Lexer.State.step_newline (s := Lexer.State.feed _ _) h, hposition, Nat.zero_add,
      String.length_toList]
    rfl
  show (Lexer.State.feed _ (source ++ "\n" ++ more).toList).finish = _
  rw [hchars, Lexer.State.feed_append, Lexer.State.feed_cons, hbegin, Lexer.State.feed_moved,
    Lexer.State.finish_moved, List.reverse_reverse]
  rfl

/-! ## The reader -/

namespace Reader

/-- The forms that end at one of these tokens; where a form ends, the next one begins. -/
def State.formsOn (room : Nat) : State → List Token → List Value
  | _, [] => []
  | s, token :: tokens =>
    match s.step token with
    | .done v => v :: State.formsOn room (.start room) tokens
    | .more t => t.formsOn room tokens
    | .fail _ _ | .tooDeep => []

/-- To read on is to read one form, and then the others. -/
theorem State.formsOn_eq_run (room : Nat) (s : State) (ts : List Token) :
    s.formsOn room ts = match s.run ts with
      | .done v rest => v :: State.formsOn room (.start room) rest
      | .fail _ _ => []
      | .starved _ => [] := by
  induction ts generalizing s with
  | nil => rfl
  | cons token ts ih =>
    rw [State.formsOn, State.run]
    cases s.step token with
    | done v => rfl
    | more t => exact ih t
    | fail fault taken => rfl
    | tooDeep => rfl

/-- The forms that end at the first tokens do not depend on those that follow; the others are read
    where the first tokens lead to, if they do. -/
theorem State.formsOn_append (room : Nat) (s : State) (ts us : List Token) :
    s.formsOn room (ts ++ us) = s.formsOn room ts ++ match s.readOn room ts with
      | .ok t => t.formsOn room us
      | .error _ => [] := by
  induction ts generalizing s with
  | nil => rfl
  | cons token ts ih =>
    rw [List.cons_append, State.formsOn, State.formsOn, State.readOn]
    cases s.step token with
    | done v =>
      dsimp only
      rw [ih, List.cons_append]
    | more t => exact ih t
    | fail fault taken => rfl
    | tooDeep => rfl

end Reader

namespace Script

/-- What a text holds does not depend on what comes after its last token. -/
theorem forms_ofTokens (room : Nat) (tokens : Tokens) :
    (ofTokens room tokens).forms = Reader.State.formsOn room (.start room) tokens.list := by
  rw [ofTokens_eq, Reader.State.formsOn_eq_run]
  cases hrun : (Reader.State.start room).run tokens.list with
  | done v rest =>
    -- the rest of the script has fewer tokens
    have hlt : rest.length < tokens.list.length := Reader.State.length_lt_of_run_done hrun
    have hdatum : tokens.datum room = (.ok (some v), ⟨rest, tokens.unclosed?⟩) := by
      rw [Tokens.datum, hrun]
    rw [hdatum]
    exact congrArg (v :: ·) (forms_ofTokens room ⟨rest, tokens.unclosed?⟩)
  | fail fault rest =>
    have hdatum : tokens.datum room = (.error fault, ⟨rest, tokens.unclosed?⟩) := by
      rw [Tokens.datum, hrun]
    rw [hdatum]
  | starved s =>
    rw [Tokens.datum_of_starved hrun]
    dsimp only
    cases s.errorAtEnd tokens.unclosed? <;> rfl
termination_by tokens.list.length

variable {room : Nat} {tokens : Tokens}

/-- At the end of an accepted text no string is open, and the reader is where it began. -/
theorem readOn_of_accepted (h : (ofTokens room tokens).fault? = none) :
    tokens.unclosed? = none ∧
    (Reader.State.start room).readOn room tokens.list = .ok (.start room) := by
  rw [fault?_ofTokens] at h
  cases hread : (Reader.State.start room).readOn room tokens.list with
  | error fault =>
    rw [hread] at h
    cases h
  | ok s =>
    rw [hread] at h
    have hend : s.errorAtEnd tokens.unclosed? = none := Option.map_eq_none_iff.mp h
    cases hunclosed : tokens.unclosed? with
    | some position =>
      rw [hunclosed] at hend
      cases hend
    | none =>
      rw [hunclosed] at hend
      obtain ⟨before, inner, -, hholds⟩ := Reader.State.Holds.readOn (.ready .nil) hread
      -- inside of a form the end would be a fault, so the reader is inside of nothing
      cases hholds with
      | full => cases hend
      | ready hcontexts =>
        cases hcontexts with
        | nil => exact ⟨rfl, rfl⟩
        | _ => cases hend

/-- It is at a token that the reader goes too deep, and not at the end of the text. -/
theorem readOn_of_tooDeep (h : (ofTokens room tokens).fault? = some .tooDeep) :
    (Reader.State.start room).readOn room tokens.list = .error .tooDeep := by
  rw [fault?_ofTokens] at h
  cases hread : (Reader.State.start room).readOn room tokens.list with
  | error fault =>
    rw [hread] at h
    rw [Option.some.inj h]
  | ok s =>
    rw [hread] at h
    obtain ⟨e, -, he⟩ := Option.map_eq_some_iff.mp h
    cases he

/-- A text that is accepted in some room is accepted in any room, or goes too deep. -/
theorem fault?_of_accepted {source : String} (h : (ofText room source).fault? = none)
    (room' : Nat) :
    (ofText room' source).fault? = none ∨ (ofText room' source).fault? = some .tooDeep := by
  rcases Nat.le_total room room' with hle | hle
  · rcases ofTokens_opens hle (Tokens.ofText source.toList) with hsame | ⟨hdeep, -⟩
    · exact Or.inl ((congrArg fault? hsame).trans h)
    · cases h.symm.trans hdeep
  · rcases ofTokens_opens hle (Tokens.ofText source.toList) with hsame | ⟨hdeep, -⟩
    · exact Or.inl ((congrArg fault? hsame).symm.trans h)
    · exact Or.inr hdeep

end Script

/-! ## The place of a string -/

/-- The fault that the reader meets where so many characters stand before the text. -/
def Fault.moved (before : Nat) : Fault → Fault
  | .error (.unterminatedString position) => .error (.unterminatedString (before + position))
  | fault => fault

/-- It is the same, if it does not tell of a string that nothing closes. -/
theorem Fault.moved_eq_self {fault : Fault}
    (h : ∀ position, fault ≠ .error (.unterminatedString position)) (before : Nat) :
    fault.moved before = fault := by
  unfold moved
  split
  · exact absurd rfl (h _)
  · rfl

namespace Reader

/-- And only the end of a text tells of such a string. -/
theorem State.readOn_error {room : Nat} {s : State} {ts : List Token} {fault : Fault}
    (h : s.readOn room ts = .error fault) (before : Nat) : fault.moved before = fault := by
  induction ts generalizing s with
  | nil => cases h
  | cons token ts ih =>
    rw [State.readOn] at h
    cases hs : s.step token with
    | done v =>
      rw [hs] at h
      exact ih h
    | more t =>
      rw [hs] at h
      exact ih h
    | fail fault' taken =>
      rw [hs] at h
      cases h
      -- only an open quote has a position, and that is no fault of the reader
      exact Fault.moved_eq_self (State.step_ne_unterminated hs) before
    | tooDeep =>
      rw [hs] at h
      cases h
      rfl

/-- And there the string is as many characters further on. -/
theorem State.errorAtEnd_moved (s : State) (unclosed? : Option Nat) (before : Nat) :
    (s.errorAtEnd (unclosed?.map (before + ·))).map Fault.error
      = ((s.errorAtEnd unclosed?).map Fault.error).map (Fault.moved before) := by
  cases unclosed? with
  | some position => rfl
  | none =>
    cases s with
    | full room items tail contexts => rfl
    | ready room contexts =>
      cases contexts with
      | nil => rfl
      | cons context outer => cases context <;> rfl

end Reader

namespace Script

variable {room : Nat} {source : String}

/-- Joining an accepted text with another one joins their forms, and what stops the reader is what
    stops it in the second. -/
theorem ofText_joined (h : (ofText room source).fault? = none) (more : String) :
    (ofText room (source ++ "\n" ++ more)).forms
        = (ofText room source).forms ++ (ofText room more).forms ∧
      (ofText room (source ++ "\n" ++ more)).fault?
        = (ofText room more).fault?.map (Fault.moved (source.length + 1)) := by
  -- the first text leaves the reader where it started, so the second one is read as if it stood
  -- alone
  obtain ⟨hunclosed, hread⟩ := readOn_of_accepted h
  have htokens := Tokens.ofText_joined source more hunclosed
  constructor
  · rw [ofText, forms_ofTokens, htokens, Reader.State.formsOn_append, hread, ofText,
      forms_ofTokens, ofText, forms_ofTokens]
  · rw [ofText, fault?_ofTokens, htokens, Reader.State.readOn_append, hread, ofText,
      fault?_ofTokens]
    show (match (Reader.State.start room).readOn room (Tokens.ofText more.toList).list with
      | .ok s => _
      | .error fault => _) = _
    cases hmore : (Reader.State.start room).readOn room (Tokens.ofText more.toList).list with
    | ok s => exact s.errorAtEnd_moved _ _
    | error fault =>
      show some fault = some (fault.moved _)
      rw [Reader.State.readOn_error hmore]

/-- Where the reader goes too deep, it does not get to the second text. -/
theorem ofText_joined_of_tooDeep (hunclosed : (Tokens.ofText source.toList).unclosed? = none)
    (h : (ofText room source).fault? = some .tooDeep) (more : String) :
    (ofText room (source ++ "\n" ++ more)).forms = (ofText room source).forms ∧
      (ofText room (source ++ "\n" ++ more)).fault? = some .tooDeep := by
  have hread := readOn_of_tooDeep h
  have htokens := Tokens.ofText_joined source more hunclosed
  constructor
  · rw [ofText, forms_ofTokens, htokens, Reader.State.formsOn_append, hread, ofText,
      forms_ofTokens, List.append_nil]
  · rw [ofText, fault?_ofTokens, htokens, Reader.State.readOn_append, hread]
    rfl

end Script

end SmallScheme
