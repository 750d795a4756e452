/-
  TEXTS THAT ARE CUT OFF.

  Cutting a text off leaves its first tokens, except that a symbol may be cut short
  (`Tokens.ofText_cutOff`).  So if the whole text is accepted, the reader meets no fault before the
  end of what is left, unless at a symbol that was cut short (`Reader.State.readOn_symbol`).  At the
  end it is between forms or inside of one.

  Inside of a form the text should count as incomplete, and it does inside of a string, a quote or
  a list.  It does not past the dot of a list (`Holds.errorAtEnd`): there the end of the text is
  taken for a token that may not follow.

  Structure:
    1. The tokens of a text that is cut off, by what the lexer adds to the tokens that it has.
    2. The reader on all tokens of a text, one form after the other.
    3. The end of a text that is cut off: each place where that can be, and what is said there.
-/
import SmallScheme.Proofs.Grammar
import SmallScheme.Proofs.Pattern

namespace SmallScheme

/-! ## The tokens of a text that is cut off -/

namespace Lexer

/-- To begin a token takes none away. -/
theorem suffix_begin (position : Nat) (c : Char) (tokens : List Token) :
    tokens <:+ (begin position c tokens).2 := by
  unfold begin
  split
  · exact List.suffix_refl tokens
  · split <;> first | exact List.suffix_refl tokens | exact List.suffix_cons _ tokens

/-- Nor does to go on with it. -/
theorem suffix_advance (position : Nat) (c : Char) (mode : Mode) (tokens : List Token) :
    tokens <:+ (advance position c mode tokens).2 := by
  cases mode with
  | gap => exact suffix_begin position c tokens
  | comment => exact List.suffix_refl tokens
  | symbol taken =>
    rw [advance]
    split
    · exact List.suffix_refl tokens
    · exact (List.suffix_cons _ tokens).trans (suffix_begin position c _)
  | string start taken =>
    rw [advance]
    split
    · exact List.suffix_cons _ tokens
    · split <;> exact List.suffix_refl tokens
  | pair start taken => exact List.suffix_refl tokens

/-- Tokens that are cut off stay. -/
theorem State.suffix_feed (s : State) (cs : List Char) : s.tokens <:+ (s.feed cs).tokens := by
  induction cs generalizing s with
  | nil => exact List.suffix_refl s.tokens
  | cons c cs ih => exact (suffix_advance s.position c s.mode s.tokens).trans (ih (s.step c))

/-- The tokens so far are the first when the text is at its end. -/
theorem State.prefix_finish (s : State) : s.tokens.reverse <+: s.finish.list := by
  rw [State.finish]
  cases s.mode with
  | symbol taken =>
    show s.tokens.reverse <+: (token .symbol taken :: s.tokens).reverse
    rw [List.reverse_cons]
    exact List.prefix_append _ _
  | _ => exact List.prefix_refl _

/-- All tokens that the lexer has are there in the end. -/
theorem State.prefix_finish_feed (s : State) (cs : List Char) :
    s.tokens.reverse <+: (s.feed cs).finish.list :=
  (List.reverse_prefix.mpr (s.suffix_feed cs)).trans (s.feed cs).prefix_finish

/-- A symbol that has begun becomes the next token, perhaps with more characters. -/
theorem State.feed_inside_symbol {s : State} {taken : List Char} (h : s.mode = .symbol taken)
    (cs : List Char) : ∃ more, s.tokens.reverse ++ [token .symbol (more ++ taken)]
      <+: (s.feed cs).finish.list := by
  induction cs generalizing s taken with
  | nil =>
    have hends : s.Ends (token .symbol taken :: s.tokens) := Or.inr ⟨taken, h, rfl⟩
    refine ⟨[], ?_⟩
    rw [State.feed_nil, hends.finish, List.reverse_cons]
    exact List.prefix_refl _
  | cons c cs ih =>
    rw [State.feed_cons]
    cases hc : isSymbolChar c with
    | true =>
      have hstep : s.step c = ⟨s.position + 1, .symbol (c :: taken), s.tokens⟩ := by
        rw [State.step, h, advance, hc, if_pos rfl]
      obtain ⟨more, hmore⟩ := ih (s := s.step c) (by rw [hstep])
      rw [hstep] at hmore ⊢
      refine ⟨more ++ [c], ?_⟩
      rw [List.append_assoc]
      exact hmore
    | false =>
      -- the symbol ends here and is the last token so far
      have hends : s.Ends (token .symbol taken :: s.tokens) := Or.inr ⟨taken, h, rfl⟩
      have hbegin := suffix_begin s.position c (token .symbol taken :: s.tokens)
      have hsuffix : token .symbol taken :: s.tokens <:+ ((s.step c).feed cs).tokens := by
        refine List.IsSuffix.trans ?_ ((s.step c).suffix_feed cs)
        rw [hends.step hc]
        exact hbegin
      refine ⟨[], ?_⟩
      have hprefix := (List.reverse_prefix.mpr hsuffix).trans ((s.step c).feed cs).prefix_finish
      rw [List.reverse_cons] at hprefix
      exact hprefix

end Lexer

/-- The tokens are the first of the others, except that the last one, a symbol with this text, is
    longer there. -/
def CutShort (ts whole : List Token) (text : String) : Prop :=
  ∃ before more after, more ≠ [] ∧ ts = before ++ [⟨.symbol, text⟩] ∧
    whole = before ++ ⟨.symbol, String.ofList (text.toList ++ more)⟩ :: after

/-- A symbol that is longer than another one is not the dot. -/
theorem Token.IsLexeme.longer_ne_dot {text : String} {more : List Char}
    (h : Token.IsLexeme ⟨.symbol, text⟩) (hmore : more ≠ []) :
    String.ofList (text.toList ++ more) ≠ "." := by
  obtain ⟨c, cs, hcs, -⟩ := h.begins
  obtain ⟨d, ds, rfl⟩ := List.exists_cons_of_ne_nil hmore
  intro hdot
  have hlist := congrArg String.toList hdot
  rw [hcs, String.toList_ofList] at hlist
  exact List.append_ne_nil_of_right_ne_nil cs (List.cons_ne_nil d ds) (List.cons.inj hlist).2

/-- A text that is cut off has the first tokens of the whole, or its last symbol is cut short. -/
theorem Tokens.ofText_cutOff (cs more : List Char) :
    (Tokens.ofText cs).list <+: (Tokens.ofText (cs ++ more)).list ∨
    ∃ text, CutShort (Tokens.ofText cs).list (Tokens.ofText (cs ++ more)).list text := by
  show (Lexer.State.feed _ cs).finish.list <+: (Lexer.State.feed _ (cs ++ more)).finish.list ∨
    ∃ text, CutShort (Lexer.State.feed _ cs).finish.list
      (Lexer.State.feed _ (cs ++ more)).finish.list text
  rw [Lexer.State.feed_append]
  generalize Lexer.State.feed _ cs = s
  -- only inside a symbol can the rest of the text change a token that the beginning has
  cases hmode : s.mode with
  | symbol taken =>
    obtain ⟨rest, after, hafter⟩ := Lexer.State.feed_inside_symbol hmode more
    have hends : s.Ends (Lexer.token .symbol taken :: s.tokens) := Or.inr ⟨taken, hmode, rfl⟩
    rw [hends.finish, List.reverse_cons, ← hafter]
    cases rest with
    | nil => exact Or.inl (List.prefix_append _ after)
    | cons c rest =>
      refine Or.inr ⟨String.ofList taken.reverse, s.tokens.reverse, (c :: rest).reverse, after,
        ?_, rfl, ?_⟩
      · exact fun hnil => List.cons_ne_nil _ _ (List.reverse_eq_nil_iff.mp hnil)
      · rw [List.append_assoc, String.toList_ofList, ← List.reverse_append]
        rfl
  | _ =>
    refine Or.inl ?_
    have hfinish : s.finish.list = s.tokens.reverse := by rw [Lexer.State.finish, hmode]
    rw [hfinish]
    exact s.prefix_finish_feed more

/-! ## The reader on all tokens of a text -/

namespace Reader

/-- The reader after all of these tokens; where a datum ends, the next one begins. -/
def State.readOn (room : Nat) : State → List Token → Except Fault State
  | s, [] => .ok s
  | s, token :: tokens =>
    match s.step token with
    | .done _ => State.readOn room (.start room) tokens
    | .more t => t.readOn room tokens
    | .fail fault _ => .error fault
    | .tooDeep => .error .tooDeep

/-- Reading on stops at a fault only. -/
theorem State.readOn_append (room : Nat) (s : State) (ts us : List Token) :
    s.readOn room (ts ++ us) = s.readOn room ts >>= fun t => t.readOn room us := by
  induction ts generalizing s with
  | nil => rfl
  | cons token ts ih =>
    rw [List.cons_append, State.readOn, State.readOn]
    cases s.step token with
    | done v => exact ih _
    | more t => exact ih t
    | fail fault taken => rfl
    | tooDeep => rfl

/-- To read on is to read one datum, and then the others. -/
theorem State.readOn_eq_run (room : Nat) (s : State) (ts : List Token) :
    s.readOn room ts = match s.run ts with
      | .done _ rest => State.readOn room (.start room) rest
      | .fail fault _ => .error fault
      | .starved t => .ok t := by
  induction ts generalizing s with
  | nil => rfl
  | cons token ts ih =>
    rw [State.readOn, State.run]
    cases s.step token with
    | done v => rfl
    | more t => exact ih t
    | fail fault taken => rfl
    | tooDeep => rfl

/-- What all tokens of a text lead to, from the beginning of a form on. -/
theorem State.Holds.readOn {room : Nat} {s t : State} {ts us : List Token}
    (h : s.Holds (room + Room.margin) ts) (hread : s.readOn room us = .ok t) :
    ∃ before inner, ts ++ us = before ++ inner ∧ t.Holds (room + Room.margin) inner := by
  induction us generalizing s ts with
  | nil =>
    cases hread
    exact ⟨[], ts, List.append_nil ts, h⟩
  | cons token us ih =>
    have hstep := h.step token
    rw [State.readOn] at hread
    rw [List.append_cons]
    cases hs : s.step token with
    | done v =>
      -- the form that ends here is behind the reader
      rw [hs] at hread
      obtain ⟨before, inner, hus, hholds⟩ := ih (.ready .nil) hread
      refine ⟨ts ++ [token] ++ before, inner, ?_, hholds⟩
      rw [List.append_assoc (ts ++ [token]), ← hus]
      rfl
    | more s' =>
      rw [hs] at hread hstep
      exact ih hstep hread
    | fail fault taken =>
      rw [hs] at hread
      cases hread
    | tooDeep =>
      rw [hs] at hread
      cases hread

end Reader

/-- What is wrong when the text ends here, perhaps inside of a string. -/
def Reader.State.errorAtEnd (s : Reader.State) : (unclosed? : Option Nat) → Option Error
  | some position => some (.unterminatedString position)
  | none => s.atEnd

/-- Where the tokens end before a datum does, there is a fault, unless no datum has begun. -/
theorem Tokens.datum_of_starved {room : Nat} {tokens : Tokens} {s : Reader.State}
    (h : (Reader.State.start room).run tokens.list = .starved s) :
    tokens.datum room = ((s.errorAtEnd tokens.unclosed?).elim (.ok none)
      fun e => .error (.error e), ⟨[], none⟩) := by
  rw [Tokens.datum, h]
  cases tokens.unclosed? with
  | some position => rfl
  | none =>
    dsimp only [Reader.State.errorAtEnd]
    cases s.atEnd <;> rfl

/-- What stops the reader in a text, by the place where the tokens lead to. -/
theorem Script.fault?_ofTokens (room : Nat) (tokens : Tokens) :
    (Script.ofTokens room tokens).fault?
      = match (Reader.State.start room).readOn room tokens.list with
        | .ok s => (s.errorAtEnd tokens.unclosed?).map .error
        | .error fault => some fault := by
  rw [Script.ofTokens_eq, Reader.State.readOn_eq_run]
  cases hrun : (Reader.State.start room).run tokens.list with
  | done v rest =>
    -- a datum takes at least one token, so the script gets shorter
    have hlt : rest.length < tokens.list.length := Reader.State.length_lt_of_run_done hrun
    have hdatum : tokens.datum room = (.ok (some v), ⟨rest, tokens.unclosed?⟩) := by
      rw [Tokens.datum, hrun]
    rw [hdatum]
    exact Script.fault?_ofTokens room ⟨rest, tokens.unclosed?⟩
  | fail fault rest =>
    have hdatum : tokens.datum room = (.error fault, ⟨rest, tokens.unclosed?⟩) := by
      rw [Tokens.datum, hrun]
    rw [hdatum]
  | starved s =>
    rw [Tokens.datum_of_starved hrun]
    dsimp only
    cases s.errorAtEnd tokens.unclosed? <;> rfl
termination_by tokens.list.length

/-! ## The end of a text that is cut off -/

/-- The tokens end past the dot of a list that is open, and this is how the reader takes it. -/
inductive PastDot : List Token → Error → Prop where
  /-- Right after the dot. -/
  | dot {depth : Nat} {before items : List Token} {mark : String} {vs : List Value} (hne : vs ≠ [])
    (hitems : Items depth items vs) :
    PastDot (before ++ ⟨.opening, mark⟩ :: (items ++ [Token.dot])) .nothingAfterDot
  /-- After the tail, before the closing parenthesis. -/
  | tail {depth : Nat} {before items ts : List Token} {mark : String} {vs : List Value} {v : Value}
    (hne : vs ≠ []) (hitems : Items depth items vs) (htail : Datum depth ts v) :
    PastDot (before ++ ⟨.opening, mark⟩ :: (items ++ Token.dot :: ts)) .unclosedDot

/-- Where the text may not end, it is incomplete, or it ends past a dot. -/
theorem Reader.State.Holds.errorAtEnd {base : Nat} {s : Reader.State} {inner : List Token}
    {unclosed? : Option Nat} {e : Error} (h : s.Holds base inner)
    (hend : s.errorAtEnd unclosed? = some e) (before : List Token) :
    e.kind = .incomplete ∨ PastDot (before ++ inner) e := by
  cases unclosed? with
  | some position =>
    cases hend
    exact Or.inl rfl
  | none =>
    -- only past a dot is the list that is open no reason to count the text as incomplete
    cases h with
    | ready h =>
      cases h with
      | nil => cases hend
      | quote =>
        cases hend
        exact Or.inl rfl
      | list =>
        cases hend
        exact Or.inl rfl
      | tail h hne hitems =>
        cases hend
        rw [← List.append_assoc]
        exact Or.inr (.dot hne hitems)
    | full h hne hitems htail =>
      cases hend
      rw [← List.append_assoc]
      exact Or.inr (.tail hne hitems htail)

/-- A symbol that is cut short is refused, and the whole symbol is not: then what is left is a dot
    at the beginning of a list, or a numeral of too many digits.  It is not for want of room, since
    the whole symbol takes as much. -/
theorem Reader.State.readOn_symbol {room : Nat} {s t : Reader.State} {text longer : String}
    {fault : Fault} (hfail : s.readOn room [⟨.symbol, text⟩] = .error fault)
    (hlonger : s.readOn room [⟨.symbol, longer⟩] = .ok t) (hdot : longer ≠ ".") :
    (text = "." ∧ fault = .error .leadingDot) ∨
    ∃ count, Numeral.read text.toList = .tooLong count ∧ fault = .digitsRead count := by
  cases s with
  | full inner items tail contexts => cases hlonger
  | ready inner contexts =>
    have hwhole : Reader.symbol longer inner contexts = Reader.atom longer inner contexts :=
      Reader.symbol_eq_atom (fun h => absurd h hdot) inner
    -- the longer symbol was read, so there was room for an atom
    have hroom : Room.atom ≤ inner := by
      refine Nat.le_of_not_lt fun hlt => ?_
      have hstep : (State.ready inner contexts).step ⟨.symbol, longer⟩ = .fail .tooDeep true := by
        show Reader.symbol longer inner contexts = _
        rw [hwhole]
        exact if_pos hlt
      rw [readOn, hstep] at hlonger
      cases hlonger
    have hstep : (State.ready inner contexts).step ⟨.symbol, text⟩
        = Reader.symbol text inner contexts := rfl
    rw [readOn, hstep] at hfail
    cases hs : Reader.symbol text inner contexts with
    | done v =>
      rw [hs] at hfail
      cases hfail
    | more next =>
      rw [hs] at hfail
      cases hfail
    | tooDeep => exact absurd hs (Reader.symbol_ne_tooDeep _ _ _)
    | fail found taken =>
      rw [hs] at hfail
      obtain rfl : found = fault := Except.error.inj hfail
      refine (Reader.symbol_eq_fail hs).imp_right fun hatom => ?_
      exact (Reader.atom_eq_fail hatom).resolve_left fun ⟨hlt, _⟩ => Nat.not_lt_of_le hroom hlt

/-- Where the reader meets no fault before the end, the text is accepted, or it ends inside of a
    form. -/
theorem Script.all_of_readOn {room : Nat} {tokens : Tokens} {s : Reader.State}
    (h : (Reader.State.start room).readOn room tokens.list = .ok s) :
    (∃ ws, (Script.ofTokens room tokens).all = .ok ws) ∨
    ∃ e, (Script.ofTokens room tokens).all = .error (.error e) ∧
      (e.kind = .incomplete ∨ PastDot tokens.list e) := by
  -- whatever is wrong shows at the end of the tokens
  have hfault : (Script.ofTokens room tokens).fault?
      = (s.errorAtEnd tokens.unclosed?).map .error := by
    rw [Script.fault?_ofTokens, h]
  cases hend : s.errorAtEnd tokens.unclosed? with
  | none =>
    rw [hend] at hfault
    exact Or.inl ⟨_, Script.all_eq_ok_iff.mpr ⟨hfault, rfl⟩⟩
  | some e =>
    rw [hend] at hfault
    obtain ⟨before, inner, htokens, hholds⟩ := Reader.State.Holds.readOn (.ready .nil) h
    have hwhere := hholds.errorAtEnd hend before
    rw [← htokens] at hwhere
    exact Or.inr ⟨e, Script.all_eq_error_iff.mpr hfault, hwhere⟩

/-- The tokens of an accepted text lead somewhere. -/
theorem Script.readOn_of_all {room : Nat} {tokens : Tokens} {vs : List Value}
    (h : (Script.ofTokens room tokens).all = .ok vs) :
    ∃ s, (Reader.State.start room).readOn room tokens.list = .ok s := by
  have hnone := (Script.all_eq_ok_iff.mp h).1
  rw [Script.fault?_ofTokens] at hnone
  cases hread : (Reader.State.start room).readOn room tokens.list with
  | ok s => exact ⟨s, rfl⟩
  | error fault =>
    rw [hread] at hnone
    cases hnone

/-- Tokens that lead somewhere do so by way of where the first of them lead. -/
theorem Reader.State.readOn_prefix {room : Nat} {s t : Reader.State} {ts us : List Token}
    (h : s.readOn room (ts ++ us) = .ok t) :
    ∃ middle, s.readOn room ts = .ok middle ∧ middle.readOn room us = .ok t := by
  rw [Reader.State.readOn_append] at h
  cases hread : s.readOn room ts with
  | ok middle =>
    rw [hread] at h
    exact ⟨middle, rfl, h⟩
  | error fault =>
    rw [hread] at h
    cases h

/-- An accepted text that is cut off is accepted or incomplete, but for two kinds of place.  One is
    past the dot of a list that is still open: there the reader finds a fault in the form.  The
    other is inside of a symbol, if what is left of it is a dot at the beginning of a list or a
    numeral of too many digits. -/
theorem accepted_text_cut_off (room : Nat) (source more : String) (vs : List Value)
    (h : (Script.ofText room (source ++ more)).all = .ok vs) :
    (∃ ws, (Script.ofText room source).all = .ok ws) ∨
    (∃ e, (Script.ofText room source).all = .error (.error e) ∧
      (e.kind = .incomplete ∨ PastDot (Tokens.ofText source.toList).list e)) ∨
    ∃ text, CutShort (Tokens.ofText source.toList).list
        (Tokens.ofText (source ++ more).toList).list text ∧
      ((text = "." ∧ (Script.ofText room source).all = .error (.error .leadingDot)) ∨
        ∃ count, Numeral.read text.toList = .tooLong count ∧
          (Script.ofText room source).all = .error (.digitsRead count)) := by
  obtain ⟨t, hread⟩ := Script.readOn_of_all h
  have hcut := Tokens.ofText_cutOff source.toList more.toList
  rw [← String.toList_append] at hcut
  rcases hcut with ⟨rest, hrest⟩ | ⟨text, hshort⟩
  · rw [← hrest] at hread
    obtain ⟨middle, hmiddle, -⟩ := Reader.State.readOn_prefix hread
    exact (Script.all_of_readOn hmiddle).imp_right Or.inl
  · obtain ⟨before, rest, after, hrest, hts, hwhole⟩ := id hshort
    have hlexeme : Token.IsLexeme ⟨.symbol, text⟩ :=
      Tokens.isLexeme_ofText source.toList _ (by rw [hts]; exact List.mem_concat_self)
    rw [hwhole, List.append_cons] at hread
    obtain ⟨last, hlast, -⟩ := Reader.State.readOn_prefix hread
    obtain ⟨middle, hmiddle, hlonger⟩ := Reader.State.readOn_prefix hlast
    have hlast : (Reader.State.start room).readOn room (Tokens.ofText source.toList).list
        = middle.readOn room [⟨.symbol, text⟩] := by
      rw [hts, Reader.State.readOn_append, hmiddle]
      rfl
    cases hshortened : middle.readOn room [⟨.symbol, text⟩] with
    | ok s =>
      rw [hshortened] at hlast
      exact (Script.all_of_readOn hlast).imp_right Or.inl
    | error fault =>
      rw [hshortened] at hlast
      have hall : (Script.ofText room source).all = .error fault := by
        rw [Script.all_eq_error_iff, Script.ofText, Script.fault?_ofTokens, hlast]
      refine Or.inr (Or.inr ⟨text, hshort, ?_⟩)
      -- the whole symbol is taken, so only what is left of it may be refused
      rcases Reader.State.readOn_symbol hshortened hlonger (hlexeme.longer_ne_dot hrest) with
        ⟨htext, rfl⟩ | ⟨count, hcount, rfl⟩
      · exact Or.inl ⟨htext, hall⟩
      · exact Or.inr ⟨count, hcount, hall⟩

/-- A list with a tail, cut off inside of its items. -/
theorem accepted_text_cut_off_items :
    (∃ vs, (Script.ofText 2 ("(quote (a" ++ "b . c))")).all = .ok vs) ∧
    ((∃ ws, (Script.ofText 2 "(quote (a").all = .ok ws) ∨
      (∃ e, (Script.ofText 2 "(quote (a").all = .error (.error e) ∧
        (e.kind = .incomplete ∨ PastDot (Tokens.ofText "(quote (a".toList).list e)) ∨
      ∃ text, CutShort (Tokens.ofText "(quote (a".toList).list
          (Tokens.ofText ("(quote (a" ++ "b . c))").toList).list text ∧
        ((text = "." ∧ (Script.ofText 2 "(quote (a").all = .error (.error .leadingDot)) ∨
          ∃ count, Numeral.read text.toList = .tooLong count ∧
            (Script.ofText 2 "(quote (a").all = .error (.digitsRead count))) := by
  have hnone : (Script.ofText 2 ("(quote (a" ++ "b . c))")).fault? = none := by
    rw [Script.ofText, Script.fault?_ofTokens]
    rfl
  have haccepted := Script.all_eq_ok_iff.mpr ⟨hnone, rfl⟩
  exact ⟨⟨_, haccepted⟩, accepted_text_cut_off 2 "(quote (a" "b . c))" _ haccepted⟩

/-- `(a . b)` is accepted, and the same text without its end is malformed rather than
    incomplete. -/
theorem cut_off_past_dot_refused :
    (∃ vs, (Script.ofText Room.standard ("(a . b" ++ ")")).all = .ok vs) ∧
    (Script.ofText Room.standard "(a . b").all = .error (.error .unclosedDot) ∧
    Error.unclosedDot.kind = .malformed := by
  refine ⟨⟨_, Script.all_eq_ok_iff.mpr ⟨?_, rfl⟩⟩, ?_, rfl⟩
  · rw [Script.ofText, Script.fault?_ofTokens]
    rfl
  · rw [Script.all_eq_error_iff, Script.ofText, Script.fault?_ofTokens]
    rfl

end SmallScheme
