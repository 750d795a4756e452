/-
  LAYOUT: what a text is made of.

  A text is tokens with gaps around them.  A gap is blanks and comments; it may be empty, except
  between two symbols, which would be one symbol without it.  At the end of the text a comment
  may lack its line feed.  A text that is not laid out in this way has a double quote that nothing
  closes, and is laid out up to there.

  `Layout` and `Unclosed` say so without the lexer.  The lexer agrees with them: it cuts a text
  that is laid out into just these tokens (`Layout.ofText`), and it stops at the quote where a
  string is not closed (`Unclosed.ofText`).

  Structure:
    1. Gaps, lexemes and layouts, as inductive predicates on lists of characters.  A blank may be
       put in front of a layout and taken away from it again (`Layout.prepend`, `Layout.tail`).
    2. The lexer on gaps and lexemes: a gap ends the symbol before it, and adds no token
       (`State.Ends.gap`); a lexeme adds its token (`State.Ends.lexeme`, `State.Between.lexeme`).
    3. Strings that nothing closes: the lexer stays inside of the string that is open.
    4. A whole text, by induction on its layout (`Layout.feed`).

  That every text is one or the other, and only in one way, is shown with the tokens themselves.
-/
import SmallScheme.Proofs.Lexing

namespace SmallScheme

namespace Text

/-! ## Gaps, lexemes and layouts -/

/-- What may stand between two tokens: blanks, and comments up to their line feeds. -/
inductive Gap : List Char → Prop where
  | nil : Gap []
  | blank {c : Char} {cs : List Char} (hc : isBlank c = true) (hcs : Gap cs) : Gap (c :: cs)
  | comment {body cs : List Char} (hbody : '\n' ∉ body) (hcs : Gap cs) :
    Gap (';' :: (body ++ '\n' :: cs))

/-- What may stand after the last token: a gap, and a comment that goes to the end. -/
inductive LastGap : List Char → Prop where
  | closed {cs : List Char} (hcs : Gap cs) : LastGap cs
  | comment {cs body : List Char} (hcs : Gap cs) (hbody : '\n' ∉ body) :
    LastGap (cs ++ ';' :: body)

end Text

/-- The token is written as one of its kind. -/
inductive Token.IsLexeme : Token → Prop where
  | quote : IsLexeme ⟨.quote, "'"⟩
  | opening : IsLexeme ⟨.opening, "("⟩
  | closing : IsLexeme ⟨.closing, ")"⟩
  | string {inside : List Char} (h : Text.isEscaped inside = true) :
    IsLexeme ⟨.string, String.ofList ('"' :: inside ++ ['"'])⟩
  | symbol {cs : List Char} (hne : cs ≠ []) (hcs : ∀ c ∈ cs, Lexer.isSymbolChar c = true) :
    IsLexeme ⟨.symbol, String.ofList cs⟩

/-- The token is a symbol. -/
def Token.isSymbol (t : Token) : Bool := t.kind = .symbol

/-- No symbol has a blank in it. -/
theorem Lexer.isBlank_eq_false {c : Char} (h : Lexer.isSymbolChar c = true) :
    Text.isBlank c = false := by
  cases hc : Text.isBlank c with
  | false => rfl
  | true =>
    rw [Lexer.isSymbolChar_of_isBlank hc] at h
    cases h

/-- A lexeme begins with a character that is no blank, and a symbol with one of a symbol. -/
theorem Token.IsLexeme.begins {t : Token} (h : t.IsLexeme) :
    ∃ c cs, t.text.toList = c :: cs ∧ Text.isBlank c = false ∧
      (t.isSymbol = true → Lexer.isSymbolChar c = true) := by
  cases h with
  | quote => exact ⟨_, _, rfl, by decide, fun hkind => (nomatch hkind)⟩
  | opening => exact ⟨_, _, rfl, by decide, fun hkind => (nomatch hkind)⟩
  | closing => exact ⟨_, _, rfl, by decide, fun hkind => (nomatch hkind)⟩
  | string hinside =>
    refine ⟨'"', _, String.toList_ofList, by decide, fun hkind => (nomatch hkind)⟩
  | symbol hne hcs =>
    obtain ⟨c, cs, rfl⟩ := List.exists_cons_of_ne_nil hne
    have hc := hcs c List.mem_cons_self
    exact ⟨c, cs, String.toList_ofList, Lexer.isBlank_eq_false hc, fun _ => hc⟩

namespace Text

/-- The text is these tokens with gaps around them, and ends as `last` says.  `touching` says that
    it comes right after a symbol: then it does not begin with another one. -/
inductive Layout (last : List Char → Prop) :
    (touching : Bool) → List Char → List Token → Prop where
  | nil {touching : Bool} {cs : List Char} (hcs : last cs) : Layout last touching cs []
  | cons {touching : Bool} {gap cs : List Char} {t : Token} {ts : List Token} (hgap : Gap gap)
    (ht : t.IsLexeme) (happart : touching = true → t.isSymbol = true → gap ≠ [])
    (hcs : Layout last t.isSymbol cs ts) :
    Layout last touching (gap ++ (t.text.toList ++ cs)) (t :: ts)

/-- No double quote closes a string whose inside begins here. -/
def NeverCloses (cs : List Char) : Prop :=
  ∀ inside rest, isEscaped inside = true → cs ≠ inside ++ '"' :: rest

/-- At the position there is a double quote that nothing closes; the text before it is laid out,
    and has these tokens. -/
def Unclosed (cs : List Char) (ts : List Token) (position : Nat) : Prop :=
  ∃ before after, cs = before ++ '"' :: after ∧ before.length = position ∧
    Layout Gap false before ts ∧ NeverCloses after

/-- Blanks are a gap. -/
theorem gap_of_all {cs : List Char} (h : cs.all isBlank = true) : Gap cs := by
  induction cs with
  | nil => exact .nil
  | cons c cs ih =>
    rw [List.all_cons, Bool.and_eq_true] at h
    exact .blank h.1 (ih h.2)

/-- Two gaps are one. -/
theorem Gap.append {cs ds : List Char} (hcs : Gap cs) (hds : Gap ds) : Gap (cs ++ ds) := by
  induction hcs with
  | nil => exact hds
  | blank hc _ ih => exact .blank hc ih
  | @comment body cs hbody _ ih =>
    have hassoc : ';' :: (body ++ '\n' :: cs) ++ ds = ';' :: (body ++ '\n' :: (cs ++ ds)) := by
      simp
    rw [hassoc]
    exact .comment hbody ih

/-- A gap goes with the last one, too. -/
theorem LastGap.prepend {cs ds : List Char} (hcs : Gap cs) (hds : LastGap ds) :
    LastGap (cs ++ ds) := by
  cases hds with
  | closed h => exact .closed (hcs.append h)
  | comment h hbody =>
    rw [← List.append_assoc]
    exact .comment (hcs.append h) hbody

/-- A gap that begins with a blank is a gap without it. -/
theorem Gap.tail {c : Char} {cs : List Char} (h : Gap (c :: cs)) (hc : isBlank c = true) :
    Gap cs := by
  cases h with
  | blank _ hcs => exact hcs
  | comment hbody hcs => exact absurd hc (by decide)

/-- So is the last gap. -/
theorem LastGap.tail {c : Char} {cs : List Char} (h : LastGap (c :: cs)) (hc : isBlank c = true) :
    LastGap cs := by
  generalize heq : c :: cs = whole at h
  cases h with
  | closed h =>
    subst heq
    exact .closed (h.tail hc)
  | @comment gap body h hbody =>
    -- the blank belongs to the gap before the comment, for a comment begins with a semicolon
    cases gap with
    | nil =>
      have hsemicolon : c = ';' := (List.cons.inj heq).1
      subst hsemicolon
      exact absurd hc (by decide)
    | cons d gap =>
      obtain ⟨rfl, rfl⟩ := List.cons.inj heq
      exact .comment (h.tail hc) hbody

/-- More gap in front of a text that is laid out. -/
theorem Layout.prepend {last : List Char → Prop} {touching touching' : Bool} {gap cs : List Char}
    {ts : List Token} (h : Layout last touching' cs ts) (hgap : Gap gap) (hne : gap ≠ [])
    (hlast : last cs → last (gap ++ cs)) : Layout last touching (gap ++ cs) ts := by
  cases h with
  | nil hcs => exact .nil (hlast hcs)
  | cons hgap' ht _ hcs =>
    rw [← List.append_assoc]
    refine .cons (hgap.append hgap') ht (fun _ _ hnil => ?_) hcs
    exact hne (List.append_eq_nil_iff.mp hnil).1

/-- A text that is laid out, without a blank at its beginning. -/
theorem Layout.tail {last : List Char → Prop} {touching : Bool} {c : Char} {cs : List Char}
    {ts : List Token} (h : Layout last touching (c :: cs) ts) (hc : isBlank c = true)
    (hlast : last (c :: cs) → last cs) : Layout last false cs ts := by
  generalize heq : c :: cs = whole at h
  cases h with
  | nil hcs =>
    subst heq
    exact .nil (hlast hcs)
  | @cons _ gap rest t ts hgap ht _ hrest =>
    cases gap with
    | nil =>
      -- no lexeme begins with a blank
      obtain ⟨d, text, htext, hd, -⟩ := ht.begins
      rw [htext] at heq
      have hcd : c = d := (List.cons.inj heq).1
      rw [← hcd, hc] at hd
      cases hd
    | cons d gap =>
      obtain ⟨rfl, rfl⟩ := List.cons.inj heq
      exact .cons (hgap.tail hc) ht (fun h => nomatch h) hrest

/-- Nothing closes the string one character further, either. -/
theorem NeverCloses.tail {c : Char} {cs : List Char} (h : NeverCloses (c :: cs)) (hc : c ≠ '\\') :
    c ≠ '"' ∧ NeverCloses cs := by
  have hquote : c ≠ '"' := by
    rintro rfl
    exact h [] cs rfl rfl
  refine ⟨hquote, fun inside rest hinside heq => ?_⟩
  refine h (c :: inside) rest ((isEscaped_cons hc inside).mpr ⟨hquote, hinside⟩) ?_
  rw [heq, List.cons_append]

/-- Nor after a backslash and what it escapes. -/
theorem NeverCloses.pair {c : Char} {cs : List Char} (h : NeverCloses ('\\' :: c :: cs)) :
    NeverCloses cs := by
  intro inside rest hinside heq
  refine h ('\\' :: c :: inside) rest ?_ ?_
  · rw [isEscaped_pair]
    exact hinside
  · rw [heq, List.cons_append, List.cons_append]

end Text

/-! ## The lexer on gaps and lexemes -/

namespace Lexer

variable {s : State} {tokens : List Token}

/-- A comment goes on for as long as there is no line feed. -/
theorem State.feed_comment {cs : List Char} (h : s.mode = .comment) (hcs : '\n' ∉ cs) :
    (s.feed cs).mode = .comment ∧ (s.feed cs).tokens = s.tokens := by
  induction cs generalizing s with
  | nil => exact ⟨h, rfl⟩
  | cons c cs ih =>
    rw [List.mem_cons, not_or] at hcs
    have hstep : s.step c = ⟨s.position + 1, .comment, s.tokens⟩ := by
      rw [State.step, h, advance, if_neg (Ne.symm hcs.1)]
    obtain ⟨hmode, htokens⟩ := ih (s := s.step c) (by rw [hstep]) hcs.2
    rw [State.feed_cons, hmode, htokens, hstep]
    exact ⟨rfl, rfl⟩

/-- A comment begins, and goes on for as long as there is no line feed. -/
theorem State.Ends.comment (h : s.Ends tokens) {body : List Char} (hbody : '\n' ∉ body) :
    (s.feed (';' :: body)).mode = .comment ∧ (s.feed (';' :: body)).tokens = tokens := by
  have hstep : s.step ';' = ⟨s.position + 1, .comment, tokens⟩ := by
    rw [h.step (by decide)]
    rfl
  obtain ⟨hmode, htokens⟩ := State.feed_comment (s := s.step ';') (by rw [hstep]) hbody
  rw [State.feed_cons, hmode, htokens, hstep]
  exact ⟨rfl, rfl⟩

/-- A comment with its line feed is passed over. -/
theorem State.Ends.line (h : s.Ends tokens) {body : List Char} (hbody : '\n' ∉ body) :
    (s.feed (';' :: (body ++ ['\n']))).Between tokens := by
  obtain ⟨hmode, htokens⟩ := h.comment hbody
  rw [← List.cons_append, State.feed_append, State.feed_cons, State.feed_nil, State.step, hmode,
    htokens]
  exact ⟨rfl, rfl⟩

/-- Between two tokens a gap makes no difference. -/
theorem State.Between.gap {gap : List Char} (h : s.Between tokens) (hgap : Text.Gap gap) :
    (s.feed gap).Between tokens := by
  induction hgap generalizing s with
  | nil => exact h
  | blank hc _ ih => exact ih (State.Ends.blank (Or.inl h) hc)
  | @comment body cs hbody _ ih =>
    have hsplit : ';' :: (body ++ '\n' :: cs) = ';' :: (body ++ ['\n']) ++ cs := by simp
    rw [hsplit, State.feed_append]
    exact ih (State.Ends.line (Or.inl h) hbody)

/-- A gap with something in it ends a symbol. -/
theorem State.Ends.gap {gap : List Char} (h : s.Ends tokens) (hgap : Text.Gap gap)
    (hne : gap ≠ []) : (s.feed gap).Between tokens := by
  cases hgap with
  | nil => exact absurd rfl hne
  | blank hc hcs => exact (h.blank hc).gap hcs
  | @comment body cs hbody hcs =>
    have hsplit : ';' :: (body ++ '\n' :: cs) = ';' :: (body ++ ['\n']) ++ cs := by simp
    rw [hsplit, State.feed_append]
    exact (h.line hbody).gap hcs

/-- An empty gap ends nothing. -/
theorem State.Ends.anyGap {gap : List Char} (h : s.Ends tokens) (hgap : Text.Gap gap) :
    (s.feed gap).Ends tokens := by
  by_cases hne : gap = []
  · rw [hne]
    exact h
  · exact Or.inl (h.gap hgap hne)

/-- A quote ends what is before it, and is a token of its own. -/
theorem State.Ends.quote (h : s.Ends tokens) :
    (s.step '\'').Between (⟨.quote, "'"⟩ :: tokens) := by
  rw [h.step (by decide)]
  exact ⟨rfl, rfl⟩

/-- A token that is no symbol can follow anything. -/
theorem State.Ends.lexeme {t : Token} (h : s.Ends tokens) (ht : t.IsLexeme)
    (hkind : t.isSymbol = false) : (s.feed t.text.toList).Between (t :: tokens) := by
  cases ht with
  | quote => exact h.quote
  | opening => exact h.opening
  | closing => exact h.closing
  | string hinside =>
    have hstring := h.string hinside
    rw [String.toList_ofList]
    exact hstring
  | symbol hne hcs => cases hkind

/-- Where the lexer is between tokens, any token can follow. -/
theorem State.Between.lexeme {t : Token} (h : s.Between tokens) (ht : t.IsLexeme) :
    (s.feed t.text.toList).Ends (t :: tokens) := by
  cases ht with
  | symbol hne hcs =>
    have hsymbol := h.symbol hne hcs
    rw [String.toList_ofList]
    exact hsymbol
  | quote => exact Or.inl (State.Ends.lexeme (Or.inl h) .quote rfl)
  | opening => exact Or.inl (State.Ends.lexeme (Or.inl h) .opening rfl)
  | closing => exact Or.inl (State.Ends.lexeme (Or.inl h) .closing rfl)
  | string hinside => exact Or.inl (State.Ends.lexeme (Or.inl h) (.string hinside) rfl)

/-- At the end of the text a comment counts as closed. -/
theorem State.Ends.lastGap {gap : List Char} (h : s.Ends tokens) (hgap : Text.LastGap gap) :
    (s.feed gap).finish = ⟨tokens.reverse, none⟩ := by
  cases hgap with
  | closed hcs => exact (h.anyGap hcs).finish
  | comment hcs hbody =>
    obtain ⟨hmode, htokens⟩ := (h.anyGap hcs).comment hbody
    rw [State.feed_append, State.finish, hmode, htokens]

/-! ## Strings that nothing closes -/

/-- The lexer is inside of a string that began at `start`. -/
def State.Inside (s : State) (start : Nat) : Prop :=
  (∃ taken, s.mode = .string start taken) ∨ ∃ taken, s.mode = .pair start taken

/-- In a string that nothing closes, the lexer stays to the end. -/
theorem State.feed_neverCloses {start : Nat} {taken cs : List Char}
    (h : s.mode = .string start taken) (hcs : Text.NeverCloses cs) :
    (s.feed cs).Inside start ∧ (s.feed cs).tokens = s.tokens := by
  induction cs using Text.isEscaped.induct generalizing s taken with
  | case1 => exact ⟨Or.inl ⟨taken, h⟩, rfl⟩
  | case2 =>
    -- a lone backslash waits for what it escapes
    have hstep : s.step '\\' = ⟨s.position + 1, .pair start ('\\' :: taken), s.tokens⟩ := by
      rw [State.step, h]
      rfl
    rw [State.feed_cons, State.feed_nil, hstep]
    exact ⟨Or.inr ⟨_, rfl⟩, rfl⟩
  | case3 c cs ih =>
    have hstep : (s.step '\\').step c
        = ⟨s.position + 1 + 1, .string start (c :: '\\' :: taken), s.tokens⟩ := by
      rw [State.step, State.step, h]
      rfl
    obtain ⟨hinside, htokens⟩ := ih (s := (s.step '\\').step c) (by rw [hstep]) hcs.pair
    rw [State.feed_cons, State.feed_cons, htokens]
    exact ⟨hinside, by rw [hstep]⟩
  | case4 c cs hlone hpair ih =>
    have hc : c ≠ '\\' := Text.ne_backslash hlone hpair
    obtain ⟨hquote, hcs⟩ := hcs.tail hc
    have hstep : s.step c = ⟨s.position + 1, .string start (c :: taken), s.tokens⟩ := by
      rw [State.step, h, advance, if_neg hquote, if_neg hc]
    obtain ⟨hinside, htokens⟩ := ih (s := s.step c) (by rw [hstep]) hcs
    rw [State.feed_cons, htokens]
    exact ⟨hinside, by rw [hstep]⟩

/-- A double quote that nothing closes: the tokens before it, and its position. -/
theorem State.Ends.unclosed (h : s.Ends tokens) {cs : List Char} (hcs : Text.NeverCloses cs) :
    (s.feed ('"' :: cs)).finish = ⟨tokens.reverse, some s.position⟩ := by
  have hstep : s.step '"' = ⟨s.position + 1, .string s.position ['"'], tokens⟩ := by
    rw [h.step (by decide)]
    rfl
  obtain ⟨hinside, htokens⟩ := State.feed_neverCloses (s := s.step '"') (by rw [hstep]) hcs
  rw [State.feed_cons, State.finish, htokens, hstep]
  rw [hstep] at hinside
  rcases hinside with ⟨taken, hmode⟩ | ⟨taken, hmode⟩ <;> rw [hmode]

end Lexer

/-! ## The lexer on a whole text -/

namespace Text

open Lexer (State)

/-- The lexer cuts off the tokens of a layout, and then there is the last gap. -/
theorem Layout.feed {last : List Char → Prop} {touching : Bool} {cs : List Char}
    {ts : List Token} (h : Layout last touching cs ts) {s : State} {tokens : List Token}
    (hs : s.Ends tokens) (htouching : touching = false → s.Between tokens) :
    ∃ before gap, cs = before ++ gap ∧ last gap ∧ (s.feed before).Ends (ts.reverse ++ tokens) := by
  induction h generalizing s tokens with
  | @nil touching cs hcs => exact ⟨[], cs, rfl, hcs, hs⟩
  | @cons touching gap cs t ts hgap ht happart hcs ih =>
    -- after its gap and the token itself, the others are cut off the rest of the text
    have htoken : ((s.feed gap).feed t.text.toList).Ends (t :: tokens) ∧
        (t.isSymbol = false → ((s.feed gap).feed t.text.toList).Between (t :: tokens)) := by
      -- only a symbol after a symbol has to be kept apart from it
      refine ⟨?_, fun hkind => (hs.anyGap hgap).lexeme ht hkind⟩
      cases hkind : t.isSymbol with
      | false => exact Or.inl ((hs.anyGap hgap).lexeme ht hkind)
      | true =>
        cases touching with
        | false => exact ((htouching rfl).gap hgap).lexeme ht
        | true => exact (hs.gap hgap (happart rfl hkind)).lexeme ht
    obtain ⟨before, lastGap, rfl, hlast, hends⟩ := ih htoken.1 htoken.2
    refine ⟨gap ++ (t.text.toList ++ before), lastGap, ?_, hlast, ?_⟩
    · simp only [List.append_assoc]
    · rw [State.feed_append, State.feed_append, List.reverse_cons, List.append_assoc]
      exact hends

/-- A text that is laid out is cut into its tokens. -/
theorem Layout.ofText {cs : List Char} {ts : List Token} (h : Layout LastGap false cs ts) :
    Tokens.ofText cs = ⟨ts, none⟩ := by
  obtain ⟨before, gap, rfl, hgap, hends⟩ :=
    h.feed (s := ⟨0, .gap, []⟩) (Or.inl ⟨rfl, rfl⟩) fun _ => ⟨rfl, rfl⟩
  show State.finish (State.feed _ _) = _
  rw [State.feed_append, hends.lastGap hgap, List.append_nil, List.reverse_reverse]

/-- A text with a double quote that nothing closes is cut up to there. -/
theorem Unclosed.ofText {cs : List Char} {ts : List Token} {position : Nat}
    (h : Unclosed cs ts position) : Tokens.ofText cs = ⟨ts, some position⟩ := by
  obtain ⟨before, after, rfl, rfl, hbefore, hafter⟩ := h
  have hends : (State.feed ⟨0, .gap, []⟩ before).Ends (ts.reverse ++ []) := by
    obtain ⟨front, gap, rfl, hgap, hends⟩ :=
      hbefore.feed (s := ⟨0, .gap, []⟩) (Or.inl ⟨rfl, rfl⟩) fun _ => ⟨rfl, rfl⟩
    rw [State.feed_append]
    exact hends.anyGap hgap
  show State.finish (State.feed _ _) = _
  rw [State.feed_append, hends.unclosed hafter, State.position_feed, List.append_nil,
    List.reverse_reverse]
  show Tokens.mk ts (some (0 + before.length)) = _
  rw [Nat.zero_add]

end Text

end SmallScheme
