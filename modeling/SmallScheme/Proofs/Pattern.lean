/-
  THE TOKEN PATTERN: cutting a text piece by piece.

  What a token looks like can be written down as one pattern with alternatives, which are tried in
  order after any blanks: a comment, a quote, the parentheses, a string, a string that is not
  closed, a symbol.  `scan` matches the pattern again and again, each time where the last match
  ended.  A text that no alternative matches is at its end, or holds a character that was not
  expected; `scan` tells these apart.

  Structure:
    1. The alternatives (`find`), and how a scan ends (`Ending`).
    2. Strings: the double quote that closes one is the first outside of a pair (`closing?`).
    3. What the alternatives find: a comment, a lexeme with a symbol that is as long as it can be,
       or a double quote that nothing closes.
    4. Scanning, by recursion on the length of the text (`scan_sound`).
    5. Texts and their tokens: the lexer, the pattern and the layout agree.

  Every piece is what a layout allows, so what `scan` finds is a layout of the text, or of the
  text up to a double quote that nothing closes (`scan_sound`).  No character is ever unexpected.
  The lexer agrees with layouts, so it agrees with the pattern, and the tokens of a text are those
  of its only layout.
-/
import SmallScheme.Proofs.Layout
import SmallScheme.Reader.Datum

namespace SmallScheme

namespace Pattern

/-! ## The alternatives -/

/-- The inside of a string, and the text after its closing quote. -/
def closing? : List Char → Option (List Char × List Char)
  | [] => none
  | ['\\'] => none
  | '\\' :: c :: cs => (closing? cs).map fun (inside, rest) => ('\\' :: c :: inside, rest)
  | '"' :: cs => some ([], cs)
  | c :: cs => (closing? cs).map fun (inside, rest) => (c :: inside, rest)

/-- What a match has found, and the text after it. -/
inductive Found where
  | comment (rest : List Char)
  | token (t : Token) (rest : List Char)
  | unclosed
  | nothing

/-- The alternatives in their order, for a text that begins with no blank. -/
def find : List Char → Found
  | [] => .nothing
  | ';' :: cs => .comment (cs.dropWhile (· ≠ '\n'))
  | '\'' :: cs => .token ⟨.quote, "'"⟩ cs
  | '(' :: cs => .token ⟨.opening, "("⟩ cs
  | ')' :: cs => .token ⟨.closing, ")"⟩ cs
  | '"' :: cs =>
    match closing? cs with
    | some (inside, rest) => .token ⟨.string, String.ofList ('"' :: inside ++ ['"'])⟩ rest
    | none => .unclosed
  | c :: cs =>
    if Lexer.isSymbolChar c then
      .token ⟨.symbol, String.ofList (c :: cs.takeWhile Lexer.isSymbolChar)⟩
        (cs.dropWhile Lexer.isSymbolChar)
    else .nothing

/-- How scanning ends. -/
inductive Ending where
  | complete
  | unclosed (position : Nat)
  | unexpected (position : Nat)

/-! ## Strings -/

/-- What is found is the inside of a string, and what comes after it. -/
theorem closing?_eq_some {cs inside rest : List Char} (h : closing? cs = some (inside, rest)) :
    cs = inside ++ '"' :: rest ∧ Text.isEscaped inside = true := by
  induction cs using closing?.induct generalizing inside with
  | case1 | case2 => cases h
  | case3 c cs ih =>
    rw [closing?, Option.map_eq_some_iff] at h
    obtain ⟨⟨inside', rest'⟩, hcs, heq⟩ := h
    cases heq
    obtain ⟨rfl, hinside⟩ := ih hcs
    refine ⟨rfl, ?_⟩
    rw [Text.isEscaped_pair]
    exact hinside
  | case4 cs =>
    cases h
    exact ⟨rfl, rfl⟩
  | case5 c cs hlone hpair hquote ih =>
    rw [closing?, Option.map_eq_some_iff] at h
    · obtain ⟨⟨inside', rest'⟩, hcs, heq⟩ := h
      cases heq
      obtain ⟨rfl, hinside⟩ := ih hcs
      -- a backslash would have made a pair with the character after it
      have hc : c ≠ '\\' := by
        intro hc
        cases inside' with
        | nil => exact hpair '"' rest hc rfl
        | cons d ds => exact hpair d (ds ++ '"' :: rest) hc rfl
      exact ⟨rfl, (Text.isEscaped_cons hc inside').mpr ⟨hquote, hinside⟩⟩
    · exact hlone
    · exact hpair
    · exact hquote

/-- The first double quote outside of a pair is found. -/
theorem closing?_append {inside : List Char} (h : Text.isEscaped inside = true)
    (rest : List Char) : closing? (inside ++ '"' :: rest) = some (inside, rest) := by
  induction inside using Text.isEscaped.induct with
  | case1 => rfl
  | case2 => cases h
  | case3 c cs ih =>
    rw [Text.isEscaped_pair] at h
    show closing? ('\\' :: c :: (cs ++ '"' :: rest)) = _
    rw [closing?, ih h]
    rfl
  | case4 c cs hlone hpair ih =>
    -- neither a pair nor a quote, so the scan steps over it
    have hc : c ≠ '\\' := Text.ne_backslash hlone hpair
    obtain ⟨hquote, hcs⟩ := (Text.isEscaped_cons hc cs).mp h
    show closing? (c :: (cs ++ '"' :: rest)) = _
    rw [closing?, ih hcs]
    · rfl
    · exact fun hc' _ => hc hc'
    · exact fun _ _ hc' _ => hc hc'
    · exact hquote

/-- Where no quote is found, nothing closes the string. -/
theorem neverCloses_of_closing? {cs : List Char} (h : closing? cs = none) :
    Text.NeverCloses cs := by
  rintro inside rest hinside rfl
  rw [closing?_append hinside] at h
  cases h

/-! ## What the alternatives find -/

/-- A comment goes up to a line feed, or to the end of the text. -/
theorem find_comment {cs rest : List Char} (h : find cs = .comment rest) :
    ∃ body, cs = ';' :: (body ++ rest) ∧ '\n' ∉ body ∧
      (rest = [] ∨ ∃ more, rest = '\n' :: more) := by
  unfold find at h
  split at h
  case h_2 cs =>
    cases h
    refine ⟨cs.takeWhile (· ≠ '\n'), ?_, fun hmem => ?_, ?_⟩
    · rw [List.takeWhile_append_dropWhile]
    · have hne := List.all_eq_true.mp List.all_takeWhile _ hmem
      simp at hne
    · cases hrest : cs.dropWhile (· ≠ '\n') with
      | nil => exact Or.inl rfl
      | cons d more =>
        -- what stops is the first line feed
        have hd := List.head_dropWhile_not (p := (· ≠ '\n')) (l := cs)
          (by rw [hrest]; exact List.cons_ne_nil d more)
        have heq : d = '\n' := by simpa only [hrest, List.head_cons, decide_eq_false_iff_not,
          ne_eq, Decidable.not_not] using hd
        exact Or.inr ⟨more, by rw [heq]⟩
  case h_6 => split at h <;> cases h
  case h_7 => split at h <;> cases h
  all_goals cases h

/-- A token is a lexeme; if it is a symbol, it does not go on after it. -/
theorem find_token {cs rest : List Char} {t : Token} (h : find cs = .token t rest) :
    t.IsLexeme ∧ cs = t.text.toList ++ rest ∧
      (t.isSymbol = true → ∀ c more, rest = c :: more → Lexer.isSymbolChar c = false) := by
  unfold find at h
  split at h
  case h_3 cs =>
    cases h
    exact ⟨.quote, rfl, fun hkind => (nomatch hkind)⟩
  case h_4 cs =>
    cases h
    exact ⟨.opening, rfl, fun hkind => (nomatch hkind)⟩
  case h_5 cs =>
    cases h
    exact ⟨.closing, rfl, fun hkind => (nomatch hkind)⟩
  case h_6 cs =>
    split at h
    · next inside rest' hclosing =>
      cases h
      obtain ⟨rfl, hinside⟩ := closing?_eq_some hclosing
      refine ⟨.string hinside, ?_, fun hkind => (nomatch hkind)⟩
      rw [String.toList_ofList]
      simp
    · cases h
  case h_7 c cs _ _ _ _ _ =>
    split at h
    · next hc =>
      cases h
      refine ⟨.symbol (List.cons_ne_nil _ _) fun d hd => ?_, ?_, fun _ d more hrest => ?_⟩
      · rcases List.mem_cons.mp hd with rfl | hd
        · exact hc
        · exact List.all_eq_true.mp List.all_takeWhile d hd
      · rw [String.toList_ofList, List.cons_append, List.takeWhile_append_dropWhile]
      -- the symbol ends at the first character that cannot belong to it
      · have hd := List.head_dropWhile_not (p := Lexer.isSymbolChar) (l := cs)
          (by rw [hrest]; exact List.cons_ne_nil d more)
        simpa only [hrest, List.head_cons] using hd
    · cases h
  all_goals cases h

/-- A string that is not closed is one that nothing closes. -/
theorem find_unclosed {cs : List Char} (h : find cs = .unclosed) :
    ∃ after, cs = '"' :: after ∧ Text.NeverCloses after := by
  unfold find at h
  split at h
  case h_6 cs =>
    split at h
    · cases h
    · next hclosing => exact ⟨cs, rfl, neverCloses_of_closing? hclosing⟩
  case h_7 => split at h <;> cases h
  all_goals cases h

/-- Every character but a blank begins some piece. -/
theorem find_nothing {cs : List Char} (h : find cs = .nothing) :
    cs = [] ∨ ∃ c rest, cs = c :: rest ∧ Text.isBlank c = true := by
  unfold find at h
  split at h
  case h_1 => exact Or.inl rfl
  case h_6 => split at h <;> cases h
  case h_7 c cs hcomment hquote hopening hclosing hstring =>
    split at h
    · cases h
    · next hc =>
      have hnot : ∀ d : Char, c ≠ d → (c == d) = false := fun d hd => beq_eq_false_iff_ne.mpr hd
      rw [Lexer.isSymbolChar, hnot '(' hopening, hnot ')' hclosing, hnot '\'' hquote,
        hnot '"' hstring, hnot ';' hcomment] at hc
      exact Or.inr ⟨c, cs, rfl, by simpa using hc⟩
  all_goals cases h

/-- Each piece takes up some of the text. -/
theorem length_lt_of_find {cs rest : List Char}
    (h : find cs = .comment rest ∨ ∃ t, find cs = .token t rest) : rest.length < cs.length := by
  rcases h with h | ⟨t, h⟩
  · obtain ⟨body, rfl, -, -⟩ := find_comment h
    simp only [List.length_cons, List.length_append]
    omega
  · obtain ⟨ht, rfl, -⟩ := find_token h
    obtain ⟨c, text, htext, -⟩ := ht.begins
    rw [htext]
    simp only [List.length_cons, List.length_append]
    omega

/-! ## Scanning -/

/-- Matches the pattern again and again, from the position on: the tokens, and how it ends. -/
def scan (position : Nat) (cs : List Char) : List Token × Ending :=
  match _h : find (cs.dropWhile Text.isBlank) with
  | .comment rest => scan (position + (cs.length - rest.length)) rest
  | .token t rest =>
    let (ts, ending) := scan (position + (cs.length - rest.length)) rest
    (t :: ts, ending)
  | .unclosed => ([], .unclosed (position + (cs.takeWhile Text.isBlank).length))
  | .nothing => ([], if Text.hasInk cs then .unexpected position else .complete)
termination_by cs.length
decreasing_by
  all_goals refine Nat.lt_of_lt_of_le ?_ (List.dropWhile_suffix Text.isBlank).length_le
  · exact length_lt_of_find (Or.inl _h)
  · exact length_lt_of_find (Or.inr ⟨_, _h⟩)

/-- What scanning finds is a layout: of the text, or of the text up to a double quote that nothing
    closes.  Nothing is unexpected. -/
def Sound (position : Nat) (touching : Bool) (cs : List Char) : List Token × Ending → Prop
  | (ts, .complete) => Text.Layout Text.LastGap touching cs ts
  | (ts, .unclosed place) => ∃ before after, cs = before ++ '"' :: after ∧
      position + before.length = place ∧ Text.Layout Text.Gap touching before ts ∧
      Text.NeverCloses after
  | (_, .unexpected _) => False

/-- The first piece, and then a scan of what comes after it. -/
theorem scan_eq (position : Nat) (cs : List Char) :
    scan position cs = match find (cs.dropWhile Text.isBlank) with
      | .comment rest => scan (position + (cs.length - rest.length)) rest
      | .token t rest =>
        (t :: (scan (position + (cs.length - rest.length)) rest).1,
          (scan (position + (cs.length - rest.length)) rest).2)
      | .unclosed => ([], .unclosed (position + (cs.takeWhile Text.isBlank).length))
      | .nothing => ([], if Text.hasInk cs then .unexpected position else .complete) := by
  rw [scan]
  split <;> next h => rw [h]

/-- A gap in front of what has been scanned. -/
theorem Sound.prepend {position : Nat} {touching touching' : Bool} {gap cs : List Char}
    {found : List Token × Ending} (h : Sound (position + gap.length) touching' cs found)
    (hgap : Text.Gap gap) (hne : gap ≠ []) : Sound position touching (gap ++ cs) found := by
  obtain ⟨ts, ending⟩ := found
  cases ending with
  | complete => exact Text.Layout.prepend h hgap hne fun hcs => hcs.prepend hgap
  | unclosed place =>
    obtain ⟨before, after, rfl, rfl, hbefore, hafter⟩ := h
    refine ⟨gap ++ before, after, (List.append_assoc _ _ _).symm, ?_, ?_, hafter⟩
    · rw [List.length_append]
      omega
    · exact hbefore.prepend hgap hne fun hcs => hgap.append hcs
  | unexpected place => exact h.elim

/-- What has been scanned, without a blank at its beginning. -/
theorem Sound.tail {position : Nat} {touching : Bool} {c : Char} {cs : List Char}
    {found : List Token × Ending} (h : Sound position touching (c :: cs) found)
    (hc : Text.isBlank c = true) : Sound (position + 1) false cs found := by
  obtain ⟨ts, ending⟩ := found
  cases ending with
  | complete => exact Text.Layout.tail h hc fun hcs => hcs.tail hc
  | unclosed place =>
    obtain ⟨before, after, heq, rfl, hbefore, hafter⟩ := h
    cases before with
    | nil =>
      -- an open quote does not start with a blank
      have hquote : c = '"' := (List.cons.inj heq).1
      subst hquote
      exact absurd hc (by decide)
    | cons d before =>
      obtain ⟨rfl, rfl⟩ := List.cons.inj heq
      refine ⟨before, after, rfl, ?_, hbefore.tail hc fun hcs => hcs.tail hc, hafter⟩
      rw [List.length_cons]
      omega
  | unexpected place => exact h.elim

/-- A comment in front of what has been scanned.  The line feed that ends it has been scanned as a
    blank. -/
theorem Sound.line {position : Nat} {touching : Bool} {gap body more : List Char}
    {found : List Token × Ending} (hgap : Text.Gap gap) (hbody : '\n' ∉ body)
    (h : Sound (position + (gap ++ ';' :: body).length) false ('\n' :: more) found) :
    Sound position touching (gap ++ ';' :: body ++ '\n' :: more) found := by
  have hline : Text.Gap (gap ++ ';' :: (body ++ ['\n'])) := hgap.append (.comment hbody .nil)
  have hwhole : gap ++ ';' :: body ++ '\n' :: more = gap ++ ';' :: (body ++ ['\n']) ++ more := by
    simp only [List.append_assoc, List.cons_append, List.nil_append]
  have hlength : (gap ++ ';' :: body).length + 1 = (gap ++ ';' :: (body ++ ['\n'])).length := by
    simp only [List.length_append, List.length_cons, List.length_nil]
    omega
  have htail := h.tail (by decide)
  rw [Nat.add_assoc, hlength] at htail
  rw [hwhole]
  exact htail.prepend hline (List.append_ne_nil_of_right_ne_nil gap (List.cons_ne_nil _ _))

/-- A gap and a token in front of what has been scanned. -/
theorem Sound.token {position : Nat} {touching : Bool} {gap cs : List Char} {t : Token}
    {found : List Token × Ending} (hgap : Text.Gap gap) (ht : t.IsLexeme)
    (happart : touching = true → t.isSymbol = true → gap ≠ [])
    (h : Sound (position + (gap ++ t.text.toList).length) t.isSymbol cs found) :
    Sound position touching (gap ++ t.text.toList ++ cs) (t :: found.1, found.2) := by
  rw [List.append_assoc]
  obtain ⟨ts, ending⟩ := found
  cases ending with
  | complete => exact .cons hgap ht happart h
  | unclosed place =>
    obtain ⟨before, after, rfl, rfl, hbefore, hafter⟩ := h
    refine ⟨gap ++ (t.text.toList ++ before), after, ?_, ?_, .cons hgap ht happart hbefore, hafter⟩
    · simp only [List.append_assoc]
    · simp only [List.length_append]
      omega
  | unexpected place => exact h.elim

/-- There is nothing to scan in an empty text. -/
theorem scan_nil (position : Nat) : scan position [] = ([], .complete) := by
  rw [scan_eq]
  rfl

/-- Scanning is sound, where the text does not go on with a symbol that has begun before. -/
theorem scan_sound (position : Nat) (touching : Bool) (cs : List Char)
    (hstart : touching = true → ∀ c rest, cs = c :: rest → Lexer.isSymbolChar c = false) :
    Sound position touching cs (scan position cs) := by
  -- the blanks that the pattern passes over, and then the piece that it finds
  have hblanks : (cs.takeWhile Text.isBlank).all Text.isBlank = true := List.all_takeWhile
  have hsplit := List.takeWhile_append_dropWhile (p := Text.isBlank) (l := cs)
  have hshort := (List.dropWhile_suffix (p := Text.isBlank) (l := cs)).length_le
  rw [scan_eq]
  generalize cs.takeWhile Text.isBlank = gap at *
  have hgap : Text.Gap gap := Text.gap_of_all hblanks
  have hposition : ∀ piece rest : List Char,
      (gap ++ piece ++ rest).length - rest.length = (gap ++ piece).length := by
    intro piece rest
    rw [List.length_append, Nat.add_sub_cancel]
  split
  · next rest hfind =>
    have hlt := Nat.lt_of_lt_of_le (length_lt_of_find (Or.inl hfind)) hshort
    obtain ⟨body, hpiece, hbody, hend⟩ := find_comment hfind
    rw [hpiece, ← List.cons_append, ← List.append_assoc] at hsplit
    subst hsplit
    rw [hposition]
    rcases hend with rfl | ⟨more, rfl⟩
    · rw [scan_nil, List.append_nil]
      exact .nil (.comment hgap hbody)
    · exact .line hgap hbody (scan_sound _ false ('\n' :: more) (fun h => nomatch h))
  · next t rest hfind =>
    have hlt := Nat.lt_of_lt_of_le (length_lt_of_find (Or.inr ⟨t, hfind⟩)) hshort
    obtain ⟨ht, hpiece, hnext⟩ := find_token hfind
    rw [hpiece, ← List.append_assoc] at hsplit
    subst hsplit
    rw [hposition]
    refine .token hgap ht (fun htouching hsymbol hnil => ?_) (scan_sound _ t.isSymbol rest hnext)
    -- without a gap the symbol would go on with the first character of this one
    obtain ⟨c, text, htext, -, hc⟩ := ht.begins
    have hnot := hstart htouching c (text ++ rest) (by rw [hnil, htext]; rfl)
    rw [hc hsymbol] at hnot
    cases hnot
  · next hfind =>
    obtain ⟨after, hafter, hnever⟩ := find_unclosed hfind
    rw [hafter] at hsplit
    exact ⟨gap, after, hsplit.symm, rfl, .nil hgap, hnever⟩
  · next hfind =>
    have hnil : cs.dropWhile Text.isBlank = [] := by
      rcases find_nothing hfind with hnil | ⟨c, rest, hrest, hc⟩
      · exact hnil
      -- after the blanks there is none
      · have hnot := List.head_dropWhile_not (p := Text.isBlank) (l := cs)
          (by rw [hrest]; exact List.cons_ne_nil c rest)
        simp only [hrest, List.head_cons, hc] at hnot
        cases hnot
    rw [hnil, List.append_nil] at hsplit
    subst hsplit
    have hink : Text.hasInk gap = false := by
      rw [Text.hasInk, List.any_eq_false]
      intro c hc
      rw [List.all_eq_true.mp hblanks c hc]
      decide
    rw [hink, if_neg Bool.false_ne_true]
    exact .nil (.closed hgap)
termination_by cs.length

/-- The place of the double quote that is not closed, if scanning ends at one. -/
def Ending.unclosed? : Ending → Option Nat
  | .unclosed position => some position
  | _ => none

/-- The lexer cuts a text as the pattern does, and the pattern never meets a character that it did
    not expect. -/
theorem ofText_eq_scan (cs : List Char) :
    Tokens.ofText cs = ⟨(scan 0 cs).1, (scan 0 cs).2.unclosed?⟩ ∧
    ∀ position, (scan 0 cs).2 ≠ .unexpected position := by
  have hsound := scan_sound 0 false cs fun h => nomatch h
  generalize scan 0 cs = found at hsound ⊢
  obtain ⟨ts, ending⟩ := found
  cases ending with
  | complete => exact ⟨Text.Layout.ofText hsound, fun _ h => nomatch h⟩
  | unclosed place =>
    obtain ⟨before, after, hcs, hplace, hbefore, hafter⟩ := hsound
    rw [Nat.zero_add] at hplace
    have hunclosed : Text.Unclosed cs ts place := ⟨before, after, hcs, hplace, hbefore, hafter⟩
    exact ⟨hunclosed.ofText, fun _ h => nomatch h⟩
  | unexpected place => exact hsound.elim

end Pattern

/-! ## Texts and their tokens -/

/-- A text is laid out, or it has a double quote that nothing closes. -/
theorem Text.layout_or_unclosed (cs : List Char) :
    (∃ ts, Layout LastGap false cs ts) ∨ ∃ ts position, Unclosed cs ts position := by
  have hsound := Pattern.scan_sound 0 false cs fun h => nomatch h
  generalize Pattern.scan 0 cs = found at hsound
  obtain ⟨ts, ending⟩ := found
  cases ending with
  | complete => exact Or.inl ⟨ts, hsound⟩
  | unclosed place =>
    obtain ⟨before, after, hcs, _, hbefore, hafter⟩ := hsound
    exact Or.inr ⟨ts, before.length, before, after, hcs, rfl, hbefore, hafter⟩
  | unexpected place => exact hsound.elim

/-- Only lexemes are laid out. -/
theorem Text.Layout.isLexeme {last : List Char → Prop} {touching : Bool} {cs : List Char}
    {ts : List Token} (h : Layout last touching cs ts) : ∀ t ∈ ts, t.IsLexeme := by
  induction h with
  | nil => exact List.forall_mem_nil _
  | cons _ ht _ _ ih => exact List.forall_mem_cons.mpr ⟨ht, ih⟩

/-- The tokens of a text are written as their kinds are. -/
theorem Tokens.isLexeme_ofText (cs : List Char) : ∀ t ∈ (Tokens.ofText cs).list, t.IsLexeme := by
  rcases Text.layout_or_unclosed cs with ⟨ts, h⟩ | ⟨ts, position, h⟩
  · rw [h.ofText]
    exact h.isLexeme
  · rw [h.ofText]
    obtain ⟨before, after, -, -, hlayout, -⟩ := h
    exact hlayout.isLexeme

/-- Drawing a token leaves fewer of them. -/
theorem Tokens.length_lt_of_advance {tokens rest : Tokens} {t : Token}
    (h : tokens.advance = (.ok (some t), rest)) : rest.list.length < tokens.list.length := by
  obtain ⟨ts, unclosed?⟩ := tokens
  cases ts with
  | nil => cases unclosed? <;> cases h
  | cons t ts =>
    cases h
    exact Nat.lt_succ_self _

/-- All tokens, drawn one after the other, and the fault that is met after the last of them. -/
def Tokens.drawAll (tokens : Tokens) : List Token × Option Fault :=
  match _h : tokens.advance with
  | (.ok (some t), rest) => (t :: rest.drawAll.1, rest.drawAll.2)
  | (.ok none, _) => ([], none)
  | (.error fault, _) => ([], some fault)
termination_by tokens.list.length
decreasing_by all_goals exact Tokens.length_lt_of_advance _h

/-- Drawn one after the other, they are the tokens and the fault that there are. -/
theorem Tokens.drawAll_eq (tokens : Tokens) :
    tokens.drawAll = (tokens.list,
      tokens.unclosed?.map fun position => .error (.unterminatedString position)) := by
  obtain ⟨ts, unclosed?⟩ := tokens
  induction ts with
  | nil => cases unclosed? <;> (rw [Tokens.drawAll]; rfl)
  | cons t ts ih =>
    rw [Tokens.drawAll]
    show (t :: (Tokens.mk ts unclosed?).drawAll.1, (Tokens.mk ts unclosed?).drawAll.2) = _
    rw [ih]

/-- A text has the tokens of its layout and no fault; it has no layout but one.  A text that is
    not laid out has the tokens of its layout up to the first double quote that nothing closes, and
    then the fault that the text is incomplete at the place of that quote.  The pattern of tokens
    finds the same, and no character is ever unexpected. -/
theorem tokens_are_of_layout (cs : List Char) :
    (∀ ts, (Tokens.ofText cs).drawAll = (ts, none) ↔ Text.Layout Text.LastGap false cs ts) ∧
    (∀ ts position, Text.Unclosed cs ts position ↔
      (Tokens.ofText cs).drawAll = (ts, some (.error (.unterminatedString position)))) ∧
    ((¬ ∃ ts, Text.Layout Text.LastGap false cs ts) → ∃ ts position, Text.Unclosed cs ts position) ∧
    (∀ position, (Error.unterminatedString position).kind = .incomplete ∧
      (Error.unterminatedString position).message = s!"Unterminated string at {position}") ∧
    Tokens.ofText cs = ⟨(Pattern.scan 0 cs).1, (Pattern.scan 0 cs).2.unclosed?⟩ ∧
    ∀ position, (Pattern.scan 0 cs).2 ≠ .unexpected position := by
  obtain ⟨hscan, hexpected⟩ := Pattern.ofText_eq_scan cs
  have hlayout : ∀ ts, Text.Layout Text.LastGap false cs ts →
      (Tokens.ofText cs).drawAll = (ts, none) := by
    intro ts h
    rw [h.ofText, Tokens.drawAll_eq]
    rfl
  have hunclosed : ∀ ts position, Text.Unclosed cs ts position →
      (Tokens.ofText cs).drawAll = (ts, some (.error (.unterminatedString position))) := by
    intro ts position h
    rw [h.ofText, Tokens.drawAll_eq]
    rfl
  refine ⟨fun ts => ⟨fun h => ?_, hlayout ts⟩,
    fun ts position => ⟨hunclosed ts position, fun h => ?_⟩, fun hnone => ?_,
    fun _ => ⟨rfl, rfl⟩, hscan, hexpected⟩
  -- the text is laid out or not, and what is drawn tells which, and which tokens there are
  · rcases Text.layout_or_unclosed cs with ⟨ts', h'⟩ | ⟨ts', position, h'⟩
    · rw [hlayout ts' h'] at h
      cases h
      exact h'
    · rw [hunclosed ts' position h'] at h
      cases h
  · rcases Text.layout_or_unclosed cs with ⟨ts', h'⟩ | ⟨ts', position', h'⟩
    · rw [hlayout ts' h'] at h
      cases h
    · rw [hunclosed ts' position' h'] at h
      cases h
      exact h'
  · exact (Text.layout_or_unclosed cs).resolve_left hnone

/-- A comment ends the symbol before it, and the quote after it is closed by nothing. -/
example : Tokens.ofText "a;b\n\"c".toList = ⟨[⟨.symbol, "a"⟩], some 4⟩ := by decide

end SmallScheme
