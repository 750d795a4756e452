/-
  PRINTING AND READING BACK.

  The readable text of a value is read as that value, and the texts of several values, with a
  space between them, as those values.  This is so for all data that has a text of its own:
  numbers, booleans, strings, symbols, and lists of them.

  Structure:
    1. The values.  `Readable` says what has a text of its own, and `forget` what is left of a
       value when the reader makes it anew: the origins of its lists are gone, and the value is
       the same all the same (`same_forget`).
    2. The tokens of a value, by recursion on it (`tokens`).  This is where the two halves of the
       proof meet.
    3. From the text to the tokens.  The text of a value is cut into its tokens (`lex_text`),
       wherever it stands between two blanks or parentheses.
    4. From the tokens to the value.  The tokens of a value are a datum of the grammar, and it
       denotes the value (`datum_tokens`).
    5. Room.  What printing takes and what reading takes, by the height of the value.

  The dot is a symbol too.  Its text is cut out like any other, so `lex_text` is about `Legible`
  values, which may have it anywhere.  But as an item of a list it announces a tail, so
  `datum_tokens` is about those that are `DotFree` besides.  `Readable` values are both.

  How deep lists may be nested is a matter of room.  Reading takes one of it for each list, and
  then what an atom takes (`Fits`); printing takes three for each list.  So what can be printed can
  be read back in the same room.  Not everything can: of lists that are nested deep enough,
  nothing is printed at all.
-/
import SmallScheme.Proofs.Grammar
import SmallScheme.Proofs.Lexing
import SmallScheme.Proofs.Numerals
import SmallScheme.Proofs.Printing
import SmallScheme.Proofs.WellFormed

namespace SmallScheme

/-! ## Values that can be read back -/

/-- A text that is read as a symbol. -/
structure IsSymbolName (name : String) : Prop where
  nonempty : name.toList ≠ []
  chars : ∀ c ∈ name.toList, Lexer.isSymbolChar c = true
  notDot : name ≠ "."
  notTrue : name ≠ "#t"
  notFalse : name ≠ "#f"
  notNumeral : Numeral.read name.toList = .notNumeral

mutual

/-- The value is made of numbers that may be read, booleans, strings with their escapes in order,
    symbols, lists, and dotted lists with items and a tail that is no list. -/
def Value.Readable : Value → Prop
  | .bool _ => True
  | .int n => (Numeral.digitChars n).length ≤ Numeral.maxDigits
  | .str text => Text.isEscaped text.toList = true
  | .symbol name => IsSymbolName name
  | .list _ vs => Value.AllReadable vs
  | .dotted _ vs v => vs ≠ [] ∧ v.isListLike = false ∧ Value.AllReadable vs ∧ v.Readable
  | .primitive _ | .closure _ _ _ | .unspecified | .quit => False

/-- All of the values can be read back. -/
def Value.AllReadable : List Value → Prop
  | [] => True
  | v :: vs => v.Readable ∧ Value.AllReadable vs

end

/-! ## The dot as a value -/

/-- A text that is read as a symbol where the dot is one too. -/
structure IsSymbolText (text : String) : Prop where
  nonempty : text.toList ≠ []
  chars : ∀ c ∈ text.toList, Lexer.isSymbolChar c = true
  notTrue : text ≠ "#t"
  notFalse : text ≠ "#f"
  notNumeral : Numeral.read text.toList = .notNumeral

/-- What is read as a symbol anywhere is one where the dot is. -/
theorem IsSymbolName.isSymbolText {name : String} (h : IsSymbolName name) : IsSymbolText name :=
  ⟨h.nonempty, h.chars, h.notTrue, h.notFalse, h.notNumeral⟩

/-- The symbol that is written as the dot. -/
def Value.dot : Value := .symbol "."

mutual

/-- The value is made of what has a text of its own; the dot may be any of its symbols. -/
def Value.Legible : Value → Prop
  | .bool _ => True
  | .int n => (Numeral.digitChars n).length ≤ Numeral.maxDigits
  | .str text => Text.isEscaped text.toList = true
  | .symbol name => IsSymbolText name
  | .list _ vs => Value.AllLegible vs
  | .dotted _ vs v => vs ≠ [] ∧ v.isListLike = false ∧ Value.AllLegible vs ∧ v.Legible
  | .primitive _ | .closure _ _ _ | .unspecified | .quit => False

/-- All of the values are legible. -/
def Value.AllLegible : List Value → Prop
  | [] => True
  | v :: vs => v.Legible ∧ Value.AllLegible vs

end

mutual

/-- The dot is an item of no list in the value. -/
def Value.DotFree : Value → Prop
  | .list _ vs => Value.dot ∉ vs ∧ Value.AllDotFree vs
  | .dotted _ vs v => Value.dot ∉ vs ∧ Value.AllDotFree vs ∧ v.DotFree
  | _ => True

/-- The dot is an item of no list in any of the values. -/
def Value.AllDotFree : List Value → Prop
  | [] => True
  | v :: vs => v.DotFree ∧ Value.AllDotFree vs

end

mutual

/-- What can be read back is legible. -/
theorem Value.Readable.legible : (v : Value) → v.Readable → v.Legible
  | .bool _ | .int _ | .str _ => id
  | .symbol _ => IsSymbolName.isSymbolText
  | .list _ vs => Value.AllReadable.legible vs
  | .dotted _ vs v => fun ⟨hne, hlist, hvs, hv⟩ =>
    ⟨hne, hlist, Value.AllReadable.legible vs hvs, Value.Readable.legible v hv⟩
  | .primitive _ | .closure _ _ _ | .unspecified | .quit => id

/-- The same of several values. -/
theorem Value.AllReadable.legible : (vs : List Value) → Value.AllReadable vs →
    Value.AllLegible vs
  | [] => id
  | v :: vs => fun ⟨hv, hvs⟩ => ⟨Value.Readable.legible v hv, Value.AllReadable.legible vs hvs⟩

end

/-- What can be read back anywhere is not the dot. -/
theorem Value.Readable.ne_dot {v : Value} (h : v.Readable) : v ≠ .dot := by
  rintro rfl
  exact h.notDot rfl

mutual

/-- What can be read back has the dot as an item of none of its lists. -/
theorem Value.Readable.dotFree : (v : Value) → v.Readable → v.DotFree
  | .list _ vs => Value.AllReadable.dotFree vs
  | .dotted _ vs v => by
    rintro ⟨-, -, hvs, hv⟩
    obtain ⟨hdot, hall⟩ := Value.AllReadable.dotFree vs hvs
    exact ⟨hdot, hall, Value.Readable.dotFree v hv⟩
  | .bool _ | .int _ | .str _ | .symbol _ | .primitive _ | .closure _ _ _ | .unspecified
  | .quit => fun _ => trivial

/-- The dot is none of several values that can be read back, nor an item in any of them. -/
theorem Value.AllReadable.dotFree : (vs : List Value) → Value.AllReadable vs →
    Value.dot ∉ vs ∧ Value.AllDotFree vs
  | [] => fun _ => ⟨List.not_mem_nil, trivial⟩
  | v :: vs => by
    rintro ⟨hv, hvs⟩
    obtain ⟨hdot, hall⟩ := Value.AllReadable.dotFree vs hvs
    refine ⟨fun hmem => ?_, Value.Readable.dotFree v hv, hall⟩
    rcases List.mem_cons.mp hmem with rfl | hmem
    · exact hv.ne_dot rfl
    · exact hdot hmem

end

/-! ## Values without origins -/

mutual

/-- The value without the origins of its lists, as the reader makes it. -/
def Value.forget : Value → Value
  | .list _ vs => .list .unknown (Value.forgetAll vs)
  | .dotted _ vs v => .dotted .unknown (Value.forgetAll vs) v.forget
  | v => v

/-- The values without the origins of their lists. -/
def Value.forgetAll : List Value → List Value
  | [] => []
  | v :: vs => v.forget :: Value.forgetAll vs

end

mutual

/-- Without its origins a value is the same. -/
theorem Value.same_forget : (v : Value) → v.same v.forget = true
  | .list _ vs => Value.allSame_forgetAll vs
  | .dotted _ vs v => by
    rw [Value.forget, Value.same, Value.allSame_forgetAll vs, Value.same_forget v]
    rfl
  | .bool _ | .int _ | .str _ | .symbol _ | .primitive _ | .closure _ _ _ | .unspecified
  | .quit => Value.same_self _

/-- The same of several values. -/
theorem Value.allSame_forgetAll : (vs : List Value) →
    Value.allSame vs (Value.forgetAll vs) = true
  | [] => rfl
  | v :: vs => by
    rw [Value.forgetAll, Value.allSame, Value.same_forget v, Value.allSame_forgetAll vs]
    rfl

end

/-- No value is lost with its origin. -/
theorem Value.forgetAll_eq_nil {vs : List Value} (h : Value.forgetAll vs = []) : vs = [] := by
  cases vs with
  | nil => rfl
  | cons v vs => cases h

/-! ## The tokens of a value -/

mutual

/-- The tokens of a value's readable text. -/
def Value.tokens : Value → List Token
  | .list _ vs => ⟨.opening, "("⟩ :: (Value.allTokens vs ++ [⟨.closing, ")"⟩])
  | .dotted _ vs v =>
    ⟨.opening, "("⟩ :: (Value.allTokens vs ++ ⟨.symbol, "."⟩ :: (v.tokens ++ [⟨.closing, ")"⟩]))
  | .str text => [⟨.string, Text.literal text⟩]
  | v => [⟨.symbol, v.text true⟩]

/-- The tokens of the values, one after the other. -/
def Value.allTokens : List Value → List Token
  | [] => []
  | v :: vs => v.tokens ++ Value.allTokens vs

end

/-! ## From the text to the tokens -/

/-- A digit may stand in a symbol. -/
theorem Lexer.isSymbolChar_of_isDigit {c : Char} (h : c.isDigit = true) :
    Lexer.isSymbolChar c = true := by
  have hrange : 48 ≤ c.toNat ∧ c.toNat ≤ 57 := by
    simp only [Char.isDigit, Bool.and_eq_true, decide_eq_true_eq] at h
    exact h
  have hblank : Text.isBlank c = false := by
    simp only [Text.isBlank, Bool.or_eq_false_iff, Bool.and_eq_false_iff, decide_eq_false_iff_not,
      beq_eq_false_iff_ne]
    omega
  have other : ∀ d : Char, d.toNat < 48 ∨ 57 < d.toNat → (c == d) = false := by
    intro d hd
    rw [beq_eq_false_iff_ne]
    rintro rfl
    omega
  rw [Lexer.isSymbolChar, hblank, other '(' (by decide), other ')' (by decide),
    other '\'' (by decide), other '"' (by decide), other ';' (by decide)]
  rfl

/-- A numeral is made of what may stand in a symbol. -/
theorem Numeral.isSymbolChar_text {n : Int} {c : Char} (h : c ∈ (Numeral.text n).toList) :
    Lexer.isSymbolChar c = true := by
  have digit : c ∈ Numeral.digitChars n → Lexer.isSymbolChar c = true := fun hc =>
    Lexer.isSymbolChar_of_isDigit (Numeral.isDigit_of_mem_digitChars hc)
  rw [Numeral.toList_text] at h
  split at h
  · rcases List.mem_cons.mp h with rfl | h
    · decide
    · exact digit h
  · exact digit h

/-- Every number has a numeral. -/
theorem Numeral.text_ne_nil (n : Int) : (Numeral.text n).toList ≠ [] := by
  rw [Numeral.toList_text]
  split
  · exact List.cons_ne_nil _ _
  · exact Numeral.digitChars_ne_nil n

/-- A text of symbol characters is cut off as one symbol. -/
theorem Lexer.State.Between.text {s : Lexer.State} {tokens : List Token} (h : s.Between tokens)
    {text : String} (hne : text.toList ≠ [])
    (hcs : ∀ c ∈ text.toList, Lexer.isSymbolChar c = true) :
    (s.feed text.toList).Ends (⟨.symbol, text⟩ :: tokens) := by
  have hends := h.symbol hne hcs
  rw [String.ofList_toList] at hends
  exact hends

mutual

/-- The text of a value is cut into the tokens of the value. -/
theorem Value.lex_text : (v : Value) → v.Legible → ∀ (s : Lexer.State) (tokens : List Token),
    s.Between tokens → (s.feed (v.text true).toList).Ends (v.tokens.reverse ++ tokens)
  | .bool true => by
    intro _ s tokens h
    exact h.text (by decide) (List.all_eq_true.mp (by decide))
  | .bool false => by
    intro _ s tokens h
    exact h.text (by decide) (List.all_eq_true.mp (by decide))
  | .int n => by
    intro _ s tokens h
    exact h.text (Numeral.text_ne_nil n) fun c hc => Numeral.isSymbolChar_text hc
  | .str text => by
    -- an escaped text is its own literal, between double quotes
    intro htext s tokens h
    have hliteral : (Text.literal text).toList = '"' :: text.toList ++ ['"'] := by
      rw [Text.literal, String.toList_ofList, Text.literalBody_of_isEscaped htext]
    have hstring := Lexer.State.Ends.string (Or.inl h) htext
    rw [← hliteral, String.ofList_toList] at hstring
    exact Or.inl hstring
  | .symbol name => by
    intro hname s tokens h
    exact h.text hname.nonempty hname.chars
  | .list origin vs => by
    intro hvs s tokens h
    have htext : (Value.text true (.list origin vs)).toList
        = '(' :: ((Value.texts true vs).toList ++ [')']) := by
      rw [Value.text, String.toList_append, String.toList_append]
      rfl
    have htokens : (Value.tokens (.list origin vs)).reverse ++ tokens
        = ⟨.closing, ")"⟩ :: ((Value.allTokens vs).reverse ++ ⟨.opening, "("⟩ :: tokens) := by
      rw [Value.tokens]
      simp only [List.reverse_cons, List.reverse_append, List.reverse_nil, List.nil_append,
        List.append_assoc, List.cons_append]
    have hitems := Value.lex_texts vs hvs _ _ (Lexer.State.Ends.opening (Or.inl h))
    rw [htext, htokens, Lexer.State.feed_cons, Lexer.State.feed_append]
    exact Or.inl hitems.closing
  | .dotted origin vs v => by
    rintro ⟨-, -, hvs, hv⟩ s tokens h
    have htext : (Value.text true (.dotted origin vs v)).toList
        = '(' :: ((Value.texts true vs).toList
            ++ ' ' :: (".".toList ++ ' ' :: ((v.text true).toList ++ [')']))) := by
      rw [Value.text]
      simp only [String.toList_append, List.append_assoc]
      rfl
    have htokens : (Value.tokens (.dotted origin vs v)).reverse ++ tokens
        = ⟨.closing, ")"⟩ :: (v.tokens.reverse ++ ⟨.symbol, "."⟩ ::
            ((Value.allTokens vs).reverse ++ ⟨.opening, "("⟩ :: tokens)) := by
      rw [Value.tokens]
      simp only [List.reverse_cons, List.reverse_append, List.reverse_nil, List.nil_append,
        List.append_assoc, List.cons_append]
    have hitems := Value.lex_texts vs hvs _ _ (Lexer.State.Ends.opening (Or.inl h))
    -- the blanks on both sides keep the dot from being a part of a symbol
    have hdot := (hitems.blank (c := ' ') (by decide)).text
      (by decide : ".".toList ≠ []) (List.all_eq_true.mp (by decide))
    have htail := Value.lex_text v hv _ _ (hdot.blank (c := ' ') (by decide))
    rw [htext, htokens, Lexer.State.feed_cons, Lexer.State.feed_append, Lexer.State.feed_cons,
      Lexer.State.feed_append, Lexer.State.feed_cons, Lexer.State.feed_append]
    exact Or.inl htail.closing
  | .primitive _ | .closure _ _ _ | .unspecified | .quit => fun h => h.elim

/-- The texts of values are cut into the tokens of the values. -/
theorem Value.lex_texts : (vs : List Value) → Value.AllLegible vs →
    ∀ (s : Lexer.State) (tokens : List Token), s.Between tokens →
      (s.feed (Value.texts true vs).toList).Ends ((Value.allTokens vs).reverse ++ tokens)
  | [] => fun _ _ _ h => Or.inl h
  | [v] => by
    intro hv s tokens h
    have htokens : Value.allTokens [v] = v.tokens := List.append_nil _
    rw [htokens]
    exact Value.lex_text v hv.1 s tokens h
  | v :: w :: ws => by
    intro hvs s tokens h
    have hfirst := Value.lex_text v hvs.1 s tokens h
    have hothers := Value.lex_texts (w :: ws) hvs.2 _ _ (hfirst.blank (c := ' ') (by decide))
    have htext : (Value.texts true (v :: w :: ws)).toList
        = (v.text true).toList ++ ' ' :: (Value.texts true (w :: ws)).toList := by
      rw [Value.texts, String.toList_append, String.toList_append, List.append_assoc]
      · rfl
      · nofun
    rw [htext, Value.allTokens, List.reverse_append, List.append_assoc, Lexer.State.feed_append,
      Lexer.State.feed_cons]
    exact hothers

end

/-! ## From the tokens to the value -/

/-- A symbol token that is no boolean is a number if its text is a numeral, and else a symbol. -/
theorem Value.ofAtom?_of_ne {text : String} (htrue : text ≠ "#t") (hfalse : text ≠ "#f") :
    Value.ofAtom? text = match Numeral.read text.toList with
      | .number n => .ok (.int n)
      | .tooLong count => .error (.digitsRead count)
      | .notNumeral => .ok (.symbol text) := by
  unfold Value.ofAtom?
  split
  · exact absurd rfl htrue
  · exact absurd rfl hfalse
  · rfl

/-- A numeral is none of the other symbol tokens. -/
theorem Numeral.text_ne {n : Int} {text : String} {c : Char} (h : text.toList.head? = some c)
    (hc : c ≠ '-' ∧ c.isDigit = false) : Numeral.text n ≠ text := by
  rintro rfl
  -- a numeral begins with its sign or with a digit
  rw [Numeral.toList_text] at h
  split at h
  · cases h
    exact hc.1 rfl
  · have hmem : c ∈ Numeral.digitChars n := List.mem_of_mem_head? h
    have hdigit := Numeral.isDigit_of_mem_digitChars hmem
    rw [hc.2] at hdigit
    cases hdigit

/-- The numeral of a number is read as that number, unless it is too long to be read at all. -/
theorem Value.ofAtom?_text {n : Int}
    (h : (Numeral.digitChars n).length ≤ Numeral.maxDigits) :
    Value.ofAtom? (Numeral.text n) = .ok (.int n) := by
  have hhash : ∀ text : String, text.toList.head? = some '#' → Numeral.text n ≠ text :=
    fun text htext => Numeral.text_ne htext ⟨by decide, by decide⟩
  rw [Value.ofAtom?_of_ne (hhash "#t" (by decide)) (hhash "#f" (by decide)),
    Numeral.read_text h]

/-- The name of a symbol is read as that symbol. -/
theorem Value.ofAtom?_symbol {name : String} (h : IsSymbolText name) :
    Value.ofAtom? name = .ok (.symbol name) := by
  rw [Value.ofAtom?_of_ne h.notTrue h.notFalse, h.notNumeral]

/-- Between its quotes a string is read as it was. -/
theorem Value.ofLiteral_literal {text : String} (h : Text.isEscaped text.toList = true) :
    Value.ofLiteral (Text.literal text) = .str text := by
  rw [Value.ofLiteral, Text.literal, String.toList_ofList, Text.literalBody_of_isEscaped h]
  show Value.str (String.ofList (text.toList ++ ['"']).dropLast) = _
  rw [List.dropLast_concat, String.ofList_toList]

/-- A tail that is no list stays a tail. -/
theorem Value.ofTail_of_not_list {v : Value} (h : v.isListLike = false) (items : List Value) :
    Value.ofTail items v.forget = .dotted .unknown items v.forget := by
  cases v with
  | list | dotted => cases h
  | _ => rfl

/-- Only the dot itself announces a tail. -/
theorem Token.head?_symbol_ne_dot {text : String} (h : text ≠ ".") :
    [Token.mk .symbol text].head? ≠ some Token.dot := by
  intro hhead
  cases hhead
  exact h rfl

/-- A legible value that is not the dot does not begin with it. -/
theorem Value.head?_tokens_ne_dot : (v : Value) → v.Legible → v ≠ .dot →
    v.tokens.head? ≠ some Token.dot
  | .bool true | .bool false => fun _ _ => by decide
  | .int _ => fun _ _ => Token.head?_symbol_ne_dot
    (Numeral.text_ne (by decide : ".".toList.head? = some '.') ⟨by decide, by decide⟩)
  | .symbol _ => fun _ hdot => Token.head?_symbol_ne_dot fun hname => hdot (congrArg _ hname)
  | .str _ | .list _ _ | .dotted _ _ _ => fun _ _ => nofun
  | .primitive _ | .closure _ _ _ | .unspecified | .quit => fun h => h.elim

mutual

/-- The tokens of a value are a datum that denotes it. -/
theorem Value.datum_tokens : (v : Value) → v.Legible → v.DotFree →
    Datum v.height v.tokens v.forget
  | .bool true | .bool false => fun _ _ => .symbol rfl
  | .int n => fun hn _ => .symbol (Value.ofAtom?_text hn)
  | .str text => by
    intro htext _
    have hdatum : Datum 0 [⟨.string, Text.literal text⟩] (.ofLiteral (Text.literal text)) := .string
    rw [Value.ofLiteral_literal htext] at hdatum
    exact hdatum
  | .symbol name => fun hname _ => .symbol (Value.ofAtom?_symbol hname)
  | .list origin vs => fun hvs hdots => .list (Value.items_allTokens vs hvs hdots.1 hdots.2)
  | .dotted origin vs v => by
    rintro ⟨hne, hlist, hvs, hv⟩ ⟨hdot, hdots, hdotv⟩
    -- items with a tail need an item, and none is lost with the origins
    have hitems := Value.items_allTokens vs hvs hdot hdots
    have htail := Value.datum_tokens v hv hdotv
    have hitem : Value.forgetAll vs ≠ [] := fun hnil => hne (Value.forgetAll_eq_nil hnil)
    have hjoins := Value.joins_iff.mpr (Value.ofTail_of_not_list hlist (Value.forgetAll vs)).symm
    exact .dotted hitem (hitems.mono (Nat.le_max_left _ _)) (htail.mono (Nat.le_max_right _ _))
      hjoins
  | .primitive _ | .closure _ _ _ | .unspecified | .quit => fun h => h.elim

/-- The tokens of values are data, none of which begins with a dot. -/
theorem Value.items_allTokens : (vs : List Value) → Value.AllLegible vs → Value.dot ∉ vs →
    Value.AllDotFree vs → Items (Value.maxHeight vs) (Value.allTokens vs) (Value.forgetAll vs)
  | [] => fun _ _ _ => .nil
  | v :: vs => by
    rintro ⟨hv, hvs⟩ hdot ⟨hdotv, hdots⟩
    obtain ⟨hne, hdot⟩ := List.ne_and_not_mem_of_not_mem_cons hdot
    have hfirst := Value.datum_tokens v hv hdotv
    have hothers := Value.items_allTokens vs hvs hdot hdots
    exact .cons (Value.head?_tokens_ne_dot v hv hne.symm) (hfirst.mono (Nat.le_max_left _ _))
      (hothers.mono (Nat.le_max_right _ _))

end

/-! ## Room -/

mutual

/-- No number in a legible value is too long. -/
theorem Value.Legible.short : (v : Value) → v.Legible →
    ∀ n ∈ v.integers, Numeral.isTooLong n = false
  | .int _ => fun hn => List.forall_mem_singleton.mpr (Numeral.isTooLong_eq_false hn)
  | .list _ vs => Value.AllLegible.short vs
  | .dotted _ vs v => fun ⟨_, _, hvs, hv⟩ =>
    List.forall_mem_append.mpr ⟨Value.AllLegible.short vs hvs, Value.Legible.short v hv⟩
  | .bool _ | .str _ | .symbol _ => fun _ => List.forall_mem_nil _
  | .primitive _ | .closure _ _ _ | .unspecified | .quit => fun h => h.elim

/-- The same of several values. -/
theorem Value.AllLegible.short : (vs : List Value) → Value.AllLegible vs →
    ∀ n ∈ Value.allIntegers vs, Numeral.isTooLong n = false
  | [] => fun _ => List.forall_mem_nil _
  | v :: vs => fun ⟨hv, hvs⟩ =>
    List.forall_mem_append.mpr ⟨Value.Legible.short v hv, Value.AllLegible.short vs hvs⟩

end

/-- A legible value is printed, but for its nesting. -/
theorem Value.Legible.print {v : Value} (h : v.Legible) (room : Nat) :
    v.print room true = .ok (v.text true) ∨
      v.print room true = .error .nesting ∧ room < 3 * v.height :=
  Value.print_of_short room (Value.Legible.short v h)

/-- There is room for reading the text of the value: for its lists, and for an atom in the innermost
    one. -/
def Value.Fits (room : Nat) (v : Value) : Prop := v.height + Room.atom ≤ room + Room.margin

/-- A value that is no deeper than the room goes, fits. -/
theorem Value.fits_of_height_le {room : Nat} {v : Value} (h : v.height ≤ room) : v.Fits room :=
  Nat.add_le_add h (by decide)

mutual

/-- A legible value that is printed has three of the room for each list. -/
theorem Value.height_le_of_textLimit? : (v : Value) → v.Legible → ∀ room,
    v.textLimit? true room = none → 3 * v.height ≤ room
  | .list origin vs => by
    intro hvs room h
    have hitem : Room.item = 3 := rfl
    rw [Value.textLimit?, Limit.guarded] at h
    split at h
    · cases h
    · have hitems := Value.maxHeight_le_of_textLimits? vs hvs _ h
      rw [Value.height]
      omega
  | .dotted origin vs v => by
    rintro ⟨-, hlist, hvs, -⟩ room h
    have hitem : Room.item = 3 := rfl
    -- the tail is no list, so it is the items that count
    have htail : v.height = 0 := by cases v <;> first | rfl | cases hlist
    rw [Value.textLimit?, Limit.guarded] at h
    split at h
    · cases h
    · split at h
      · next hnone =>
        have hitems := Value.maxHeight_le_of_textLimits? vs hvs _ hnone
        rw [Value.height, htail]
        omega
      · next hlimit => exact absurd h hlimit
  | .bool _ | .int _ | .str _ | .symbol _ | .primitive _ | .closure _ _ _ | .unspecified
  | .quit => fun _ _ _ => Nat.zero_le _

/-- So have legible values that are printed one after the other. -/
theorem Value.maxHeight_le_of_textLimits? : (vs : List Value) → Value.AllLegible vs → ∀ room,
    Value.textLimits? true room vs = none → 3 * Value.maxHeight vs ≤ room
  | [] => fun _ _ _ => Nat.zero_le _
  | v :: vs => by
    rintro ⟨hv, hvs⟩ room h
    rw [Value.textLimits?] at h
    split at h
    · next hnone =>
      have hfirst := Value.height_le_of_textLimit? v hv room hnone
      have hothers := Value.maxHeight_le_of_textLimits? vs hvs room h
      rw [Value.maxHeight]
      omega
    · next hlimit => exact absurd h hlimit

end

/-- What is printed fits: a list takes three times as much to print as to read, and this makes up
    for the atom. -/
theorem Value.Legible.fits {v : Value} (h : v.Legible) {room : Nat}
    (hprint : v.print room true = .ok (v.text true)) : v.Fits room := by
  have hheight := Value.height_le_of_textLimit? v h _ (Value.print_eq_ok_iff.mp hprint).1
  have hmargin : Room.margin = 16 := rfl
  have hatom : Room.atom = 4 := rfl
  unfold Value.Fits
  omega

/-! ## Reading back -/

/-- All of the values can be read back just if each of them can. -/
theorem Value.allReadable_iff {vs : List Value} :
    Value.AllReadable vs ↔ ∀ v ∈ vs, v.Readable := by
  induction vs with
  | nil => exact ⟨fun _ _ h => (nomatch h), fun _ => trivial⟩
  | cons v vs ih => rw [Value.AllReadable, ih, List.forall_mem_cons]

/-- The tokens of values are read as the values, where these fit. -/
theorem Value.ofTokens_allTokens {vs : List Value} (hvs : Value.AllLegible vs)
    (hdots : Value.AllDotFree vs) {room : Nat} (hroom : ∀ v ∈ vs, v.Fits room) :
    Script.ofTokens room ⟨Value.allTokens vs, none⟩
      = ⟨Value.forgetAll vs, none, ⟨[], none⟩⟩ := by
  induction vs with
  | nil => rw [Script.ofTokens_eq]; rfl
  | cons v vs ih =>
    obtain ⟨hv, hvs⟩ := hvs
    obtain ⟨hdotv, hdots⟩ := hdots
    obtain ⟨hroomv, hroom⟩ := List.forall_mem_cons.mp hroom
    have hread :=
      (Value.datum_tokens v hv hdotv).read_within_margin hroomv (Value.allTokens vs) none
    rw [Value.allTokens, Script.ofTokens_eq, hread]
    show Script.mk _ _ _ = _
    rw [ih hvs hdots hroom]
    rfl

/-- The text of values is cut into their tokens. -/
theorem Value.tokens_texts {vs : List Value} (hvs : Value.AllLegible vs) :
    Tokens.ofText (Value.texts true vs).toList = ⟨Value.allTokens vs, none⟩ := by
  have hlex := Value.lex_texts vs hvs ⟨0, .gap, []⟩ [] ⟨rfl, rfl⟩
  show Lexer.State.finish (Lexer.State.feed _ _) = _
  rw [hlex.finish, List.append_nil, List.reverse_reverse]

/-- The text of values is read as the values, where these fit. -/
theorem Value.ofText_texts {vs : List Value} (hvs : Value.AllReadable vs) {room : Nat}
    (hroom : ∀ v ∈ vs, v.Fits room) :
    Script.ofText room (Value.texts true vs) = ⟨Value.forgetAll vs, none, ⟨[], none⟩⟩ := by
  have hlegible := Value.AllReadable.legible vs hvs
  have hdots := (Value.AllReadable.dotFree vs hvs).2
  rw [Script.ofText, Value.tokens_texts hlegible, Value.ofTokens_allTokens hlegible hdots hroom]

/-- The texts of values are their joined texts. -/
theorem joined_texts (vs : List Value) :
    joined " " (vs.map (Value.text true)) = Value.texts true vs := by
  match vs with
  | [] => rfl
  | [v] => rfl
  | v :: w :: ws =>
    have ih := joined_texts (w :: ws)
    have htexts : Value.texts true (v :: w :: ws)
        = v.text true ++ " " ++ Value.texts true (w :: ws) := by
      rw [Value.texts]
      nofun
    rw [htexts, ← ih]
    rfl

/-- What is printed is read back.  A value that can be read back is printed, or else, and only where
    there is less than three times the room of its height, it is nested too deep for that.  If
    values are printed, their texts with a space between them are read as the values in the same
    room; and the text of each one that is printed is read as that value. -/
theorem printed_reads_back (vs : List Value) (hvs : ∀ v ∈ vs, v.Readable) (room : Nat) :
    (∀ v ∈ vs, v.print room true = .ok (v.text true) ∨
      v.print room true = .error .nesting ∧ room < 3 * v.height) ∧
    ((∀ v ∈ vs, v.print room true = .ok (v.text true)) →
      ∃ ws, (Script.ofText room (joined " " (vs.map (Value.text true)))).all = .ok ws ∧
        Value.allSame vs ws = true) ∧
    ∀ v ∈ vs, v.print room true = .ok (v.text true) →
      ∃ w, (Script.ofText room (v.text true)).single = .ok w ∧ v.same w = true := by
  have hlegible : ∀ v ∈ vs, v.Legible := fun v hv => Value.Readable.legible v (hvs v hv)
  refine ⟨fun v hv => (hlegible v hv).print room, fun hprint => ?_, fun v hv hprint => ?_⟩
  · have hroom : ∀ v ∈ vs, v.Fits room := fun v hv => (hlegible v hv).fits (hprint v hv)
    refine ⟨Value.forgetAll vs, ?_, Value.allSame_forgetAll vs⟩
    rw [joined_texts, Value.ofText_texts (Value.allReadable_iff.mpr hvs) hroom]
    rfl
  -- one value is a list of values without a space
  · have hall : Value.AllReadable [v] := ⟨hvs v hv, trivial⟩
    have hone : Script.ofText room (v.text true) = ⟨[v.forget], none, ⟨[], none⟩⟩ :=
      Value.ofText_texts hall (List.forall_mem_singleton.mpr ((hlegible v hv).fits hprint))
    refine ⟨v.forget, ?_, Value.same_forget v⟩
    rw [hone]
    rfl

/-- `(a . -1)` and a string with an escape in it. -/
theorem printed_reads_back_pair : ∃ ws,
    (Script.ofText 10 (joined " " ([.dotted .unknown [.symbol "a"] (.int (-1)),
      .str "b\\n"].map (Value.text true)))).all = .ok ws ∧
    Value.allSame [.dotted .unknown [.symbol "a"] (.int (-1)), .str "b\\n"] ws = true := by
  have hname : IsSymbolName "a" :=
    ⟨by decide, List.all_eq_true.mp (by decide), by decide, by decide, by decide, by decide⟩
  have hnumber : (Numeral.digitChars (-1)).length ≤ Numeral.maxDigits := by decide
  have hstring : Text.isEscaped "b\\n".toList = true := by decide
  have hvs : ∀ v ∈ [Value.dotted .unknown [.symbol "a"] (.int (-1)), .str "b\\n"], v.Readable :=
    Value.allReadable_iff.mp
      ⟨⟨List.cons_ne_nil _ _, rfl, ⟨hname, trivial⟩, hnumber⟩, hstring, trivial⟩
  obtain ⟨hprinted, hback, -⟩ := printed_reads_back _ hvs 10
  refine hback fun v hv => (hprinted v hv).resolve_right fun ⟨_, hlt⟩ => ?_
  have hheight : ∀ v ∈ [Value.dotted .unknown [.symbol "a"] (.int (-1)), .str "b\\n"],
      3 * v.height ≤ 10 := by decide
  exact Nat.not_le_of_lt hlt (hheight v hv)

/-- A nest of lists can be read back. -/
theorem Value.readable_nest (depth : Nat) : (Value.nest depth).Readable := by
  induction depth with
  | zero => trivial
  | succ depth ih => exact ⟨ih, trivial⟩

/-- Of 4001 lists that are nested in each other nothing is printed, in the room that there is, so
    nothing can be read back. -/
theorem deep_nest_not_printed :
    (Value.nest 4000).Readable ∧ (Value.nest 4000).print Room.standard true = .error .nesting :=
  ⟨Value.readable_nest 4000, Value.print_nest (by decide)⟩

end SmallScheme
