/-
  EVERY TEXT CAN BE DISPLAYED.

  `display` prints its arguments raw, puts their texts one after the other, and only then finds out
  what the escapes mean.  That gives code points, and what is written is the text that they are.
  It may fail in two ways, in each case before anything is written (`Value.displayed`): an argument
  cannot be printed, or a code point is a surrogate, which is in no text.

  1. Strings.  A program that is one call of `display` on strings writes what its strings mean
     together (`Interpreter.eval_displayCall`).  So it writes nothing where an escape in them names
     a surrogate (`surrogate_not_displayed`).

  2. Escaping.  To write a text as a string in a program, put a backslash before each backslash and
     each double quote.  The reader keeps the escapes as they are, and `display` finds them where
     they were put, for a backslash that is escaped never begins another escape
     (`unescapeChars_escapeChars`).

  3. Together: a program that displays strings written in this way writes just the texts
     (`texts_are_displayed`).
-/
import SmallScheme.Proofs.Composition
import SmallScheme.Proofs.FixedRoom
import SmallScheme.Proofs.Literals
import SmallScheme.Proofs.NormalForm

namespace SmallScheme

namespace Text

/-! ## Escaping -/

/-- The text with a backslash before each backslash and each double quote. -/
def escapeChars : List Char → List Char
  | [] => []
  | c :: cs => if c = '\\' ∨ c = '"' then '\\' :: c :: escapeChars cs else c :: escapeChars cs

/-- `escapeChars` on strings. -/
def escape (s : String) : String := String.ofList (escapeChars s.toList)

/-- An escaped text has its escapes in order. -/
theorem isEscaped_escapeChars (cs : List Char) : isEscaped (escapeChars cs) = true := by
  induction cs with
  | nil => rfl
  | cons c cs ih =>
    rw [escapeChars]
    split
    · rw [isEscaped_pair, ih]
    · next hc =>
      obtain ⟨hlone, hquote⟩ := not_or.mp hc
      exact (isEscaped_cons hlone _).mpr ⟨hquote, ih⟩

/-- What comes before does not change what the escapes mean that come after. -/
theorem unescapeChars_escapeChars (cs rest : List Char) :
    unescapeChars (escapeChars cs ++ rest) = codes cs ++ unescapeChars rest := by
  induction cs with
  | nil => rfl
  | cons c cs ih =>
    rw [escapeChars]
    split
    · next hc =>
      rw [List.cons_append, List.cons_append, unescapeChars_self hc, ih]
      rfl
    · next hc =>
      rw [List.cons_append, unescapeChars_cons (not_or.mp hc).1, ih]
      rfl

/-- So do texts that are escaped one by one. -/
theorem unescapeChars_flatMap_escape (texts : List String) :
    unescapeChars ((texts.map escape).flatMap String.toList)
      = codes (texts.flatMap String.toList) := by
  induction texts with
  | nil =>
    rw [List.map_nil, List.flatMap_nil, unescapeChars]
    rfl
  | cons t texts ih =>
    rw [List.map_cons, List.flatMap_cons, List.flatMap_cons, escape, String.toList_ofList,
      unescapeChars_escapeChars, ih, codes, codes, codes, List.map_append]

/-- Texts that are escaped one by one mean themselves, one after the other. -/
theorem unescape_join_escape (texts : List String) :
    unescape (String.join (texts.map escape)) = codes (String.join texts).toList := by
  rw [unescape, String.toList_join, unescapeChars_flatMap_escape, String.toList_join]

/-- As a literal, an escaped text is itself between double quotes. -/
theorem literal_escape (s : String) : literal (escape s) = "\"" ++ escape s ++ "\"" := by
  have hinside : literalBody (escape s).toList = (escape s).toList := by
    rw [escape, String.toList_ofList, literalBody_of_isEscaped (isEscaped_escapeChars _)]
  apply String.toList_injective
  rw [literal, hinside, String.toList_ofList, String.toList_append, String.toList_append]
  rfl

end Text

/-! ## What is displayed -/

namespace Value

/-- The raw texts of the values, one after the other. -/
def rawTexts (vs : List Value) : String := String.join (vs.map (Value.text false))

/-- The code points that the raw texts of the values mean together. -/
def shown (vs : List Value) : List Nat := Text.unescape (rawTexts vs)

/-- What `display` writes of the values, or the fault that it ends in before anything is
    written. -/
def displayed (room : Nat) (vs : List Value) : Except Fault String :=
  match textLimits? false (room + Room.margin) vs with
  | some limit => .error (.ofLimit limit)
  | none => (Text.ofCodes (shown vs)).mapError .unencodable

variable {room : Nat}

/-- The raw texts of values, by the first of them. -/
theorem rawTexts_cons (v : Value) (vs : List Value) :
    rawTexts (v :: vs) = v.text false ++ rawTexts vs := by
  rw [rawTexts, List.map_cons, String.join_cons]
  rfl

/-- A string is printed wherever there is room for anything. -/
theorem textLimits?_strings (hroom : 0 < room) (texts : List String) :
    textLimits? false room (texts.map .str) = none := by
  induction texts with
  | nil => rfl
  | cons t texts ih =>
    have ht : (Value.str t).textLimit? false room = none := if_neg (Nat.not_lt.mpr hroom)
    rw [List.map_cons, textLimits?, ht, ih]

/-- The raw texts of strings are the strings. -/
theorem rawTexts_strings (texts : List String) :
    rawTexts (texts.map .str) = String.join texts := by
  have htext : Value.text false ∘ Value.str = id := rfl
  rw [rawTexts, List.map_map, htext, List.map_id]

/-- What strings are written as depends on their escapes only. -/
theorem displayed_strings (texts : List String) : displayed room (texts.map .str)
    = (Text.ofCodes (Text.unescape (String.join texts))).mapError .unencodable := by
  rw [displayed, textLimits?_strings (Nat.add_pos_right room (by decide)), shown, rawTexts_strings]

end Value

namespace Primitive

variable {room : Nat} {s : State}

/-- The raw texts are all printed, or the first limit stops them. -/
theorem rawText_apply (vs : List Value) : rawText room vs s
    = match Value.textLimits? false (room + Room.margin) vs with
      | none => .ok (Value.rawTexts vs) s
      | some limit => .error (.ofLimit limit) s := by
  induction vs with
  | nil => rfl
  | cons v vs ih =>
    rw [rawText, Run.bind_apply, Value.textLimits?, Value.print]
    -- the first value that is beyond the limits decides
    cases v.textLimit? false (room + Room.margin) with
    | some limit => rfl
    | none =>
      show (rawText room vs >>= fun rest => pure (v.text false ++ rest)) s = _
      rw [Run.bind_apply, ih]
      cases Value.textLimits? false (room + Room.margin) vs with
      | some limit => rfl
      | none =>
        rw [Value.rawTexts_cons]
        rfl

/-- `display` writes all of the values, or nothing. -/
theorem call_display (vs : List Value) : call "display" room vs s
    = match Value.displayed room vs with
      | .ok text => .ok .unspecified { s with out := s.out ++ text }
      | .error fault => .error fault s := by
  show display.apply room vs s = _
  rw [apply, Run.bind_apply, rawText_apply, Value.displayed]
  cases Value.textLimits? false (room + Room.margin) vs with
  | some limit => rfl
  | none =>
    dsimp only
    rw [← Value.shown, Run.displayCodes]
    cases Text.ofCodes (Value.shown vs) <;> rfl

end Primitive

/-! ## Displaying strings -/

/-- A call that displays strings. -/
def displayCall (origin : Origin) (strings : List String) : Value :=
  .list origin (.symbol "display" :: strings.map .str)

/-- Strings have no origins. -/
theorem stampAll_strings (next : Nat) (strings : List String) :
    Value.stampAll next (strings.map .str) = (strings.map .str, next) := by
  induction strings with
  | nil => rfl
  | cons t strings ih =>
    have hstring : (Value.str t).stamp next = (.str t, next) := rfl
    simp only [List.map_cons, Value.stampAll, hstring, ih]

/-- Letting the call in makes its list. -/
theorem letIn_displayCall (origin : Origin) (strings : List String) (s : State) :
    Run.letIn (displayCall origin strings) s
      = .ok (displayCall (.made s.made) strings) { s with made := s.made + 1 } := by
  simp only [Run.letIn, displayCall, Value.stamp, Value.stampAll, stampAll_strings]

namespace Eval

variable {loader? : Option Loader} {steps room : Nat} {s : State}

/-- A constant comes to its value, wherever there is room for it. -/
theorem run_constant {below : Nat} (hroom : below < room) {expr v : Value} {env : Env}
    (hform : Form.ofExpr? expr = .ok (.constant v)) :
    (within loader? (steps + 1) room).run below expr env s = .ok v s := by
  obtain ⟨small, hsmall⟩ : ∃ small, room - below = small + 1 := ⟨room - below - 1, by omega⟩
  show evaluate loader? (steps + 1) room below expr env s = _
  rw [evaluate_below, hsmall]
  refine evaluate_done ?_
  rw [step_of_form (Nat.succ_ne_zero small) hform]
  rfl

/-- Strings come to themselves. -/
theorem operands_strings (hroom : Room.operand < room) (env : Env) (strings : List String) :
    operands (within loader? (steps + 1) room) env (strings.map .str) s
      = .ok (some (strings.map .str)) s := by
  induction strings with
  | nil => rfl
  | cons t strings ih =>
    rw [List.map_cons, operands, Run.bind_apply, run_constant hroom rfl]
    dsimp only
    rw [Run.bind_apply, ih]
    rfl

/-- Evaluating the call makes nothing, and writes what its strings mean together. -/
theorem evaluate_displayCall (hroom : Room.operand < room) (origin : Origin)
    (strings : List String) (env : Env) :
    evaluate loader? (steps + 1) room 0 (displayCall origin strings) env s
      = match Text.ofCodes (Text.unescape (String.join strings)) with
        | .ok text => .ok .unspecified { s with out := s.out ++ text }
        | .error bad => .error (.unencodable bad) s := by
  have hform : Form.ofExpr? (displayCall origin strings)
      = .ok (.call (.symbol "display") (strings.map .str)) := rfl
  have hoperator : Room.operator < Room.operand := by decide
  obtain ⟨small, rfl⟩ : ∃ small, room = small + 1 := ⟨room - 1, by omega⟩
  show follow (stepIn loader? (steps + 1) small) (steps + 1) 0 none _ env s = _
  -- the operator, the operands, and then the call itself
  rw [follow_succ, Run.bind_apply, stepIn_eq, Nat.sub_zero,
    step_of_form (Nat.succ_ne_zero small) hform, formStep, unlessQuit, Run.bind_apply,
    run_constant (Nat.lt_trans hoperator hroom) rfl]
  dsimp only
  rw [Run.bind_apply, operands_strings hroom]
  dsimp only
  rw [call, Run.bind_apply, Primitive.call_display, Value.displayed_strings]
  cases Text.ofCodes (Text.unescape (String.join strings)) <;> rfl

end Eval

/-- A program that is one call of `display` on strings writes what the strings mean together, or
    ends with nothing written where that is no text.  The one list of the program has been made, and
    nothing else changes. -/
theorem Interpreter.eval_displayCall (i : Interpreter) (hi : i.halted = false)
    (hroom : Room.operand < i.room) {source : String} {strings : List String}
    (hread : Script.ofText i.room source = ⟨[displayCall .unknown strings], none, ⟨[], none⟩⟩)
    (s : State) :
    i.eval source s = match Text.ofCodes (Text.unescape (String.join strings)) with
      | .ok text => .ok .unspecified { s with out := s.out ++ text, made := s.made + 1 }
      | .error bad => .error (.unencodable bad) { s with made := s.made + 1 } := by
  -- one step is enough, and there are more
  obtain ⟨steps, hsteps⟩ : ∃ steps, Interpreter.maxSteps = steps + 1 :=
    Nat.exists_eq_succ_of_ne_zero (by decide)
  -- the numbers that the literal is stamped with make no difference to what is displayed
  have hform : ∀ (origin : Origin) (t : State), i.evalForm (displayCall origin strings) t
      = match Text.ofCodes (Text.unescape (String.join strings)) with
        | .ok text => .ok .unspecified { t with out := t.out ++ text }
        | .error bad => .error (.unencodable bad) t := by
    intro origin t
    show Eval.evaluate (some i.loader) Interpreter.maxSteps i.room 0 _ .empty t = _
    rw [hsteps]
    exact Eval.evaluate_displayCall hroom origin strings .empty
  rw [Interpreter.eval, if_neg (by rw [hi]; exact Bool.false_ne_true), hread, Run.bind_apply,
    Interpreter.evalForms, Run.bind_apply, letIn_displayCall]
  dsimp only
  rw [Run.bind_apply, Run.guardDepth_apply, hform]
  cases Text.ofCodes (Text.unescape (String.join strings)) <;> rfl

/-- The source of a call that displays the texts. -/
def displaying (texts : List String) : String :=
  "(display" ++ String.join (texts.map fun t => " \"" ++ Text.escape t ++ "\"") ++ ")"

/-- The first of several texts, and what comes after it. -/
theorem Value.texts_cons (v : Value) (ws : List Value) : Value.texts true (v :: ws)
    = v.text true ++ String.join (ws.map fun w => " " ++ w.text true) := by
  induction ws generalizing v with
  | nil => exact (String.append_empty).symm
  | cons w ws ih =>
    rw [Value.texts, ih, List.map_cons, String.join_cons, String.append_assoc, String.append_assoc]
    exact List.cons_ne_nil w ws

/-- It is the text of the call on the texts, escaped. -/
theorem displaying_eq (texts : List String) :
    displaying texts = (displayCall .unknown (texts.map Text.escape)).text true := by
  have hstring : ∀ t, " \"" ++ Text.escape t ++ "\""
      = " " ++ (Value.str (Text.escape t)).text true := by
    intro t
    show _ = " " ++ Text.literal (Text.escape t)
    rw [Text.literal_escape, String.append_assoc, String.append_assoc, ← String.append_assoc]
    rfl
  rw [displaying, displayCall, Value.text, Value.texts_cons, List.map_map, List.map_map]
  simp only [hstring, ← String.append_assoc]
  rfl

/-- It is read as it was meant, where there is room for one list. -/
theorem ofText_displaying {room : Nat} (hroom : 0 < room) (texts : List String) :
    Script.ofText room (displaying texts)
      = ⟨[displayCall .unknown (texts.map Text.escape)], none, ⟨[], none⟩⟩ := by
  have hname : IsSymbolName "display" :=
    ⟨by decide, List.all_eq_true.mp (by decide), by decide, by decide, by decide, by decide⟩
  -- the text of the call is that of its items, which are read back one by one
  have hstrings : ∀ v ∈ Value.symbol "display" :: (texts.map Text.escape).map .str,
      v.Readable ∧ v.height = 0 ∧ v.forget = v := by
    refine List.forall_mem_cons.mpr ⟨⟨hname, rfl, rfl⟩, fun v hv => ?_⟩
    rw [List.map_map] at hv
    obtain ⟨t, -, rfl⟩ := List.mem_map.mp hv
    refine ⟨?_, rfl, rfl⟩
    show Text.isEscaped (String.ofList _).toList = true
    rw [String.toList_ofList]
    exact Text.isEscaped_escapeChars t.toList
  have hreadable : Value.AllReadable [displayCall .unknown (texts.map Text.escape)] :=
    ⟨Value.allReadable_iff.mpr fun v hv => (hstrings v hv).1, trivial⟩
  have hheight : (displayCall .unknown (texts.map Text.escape)).height ≤ room := by
    rw [displayCall, Value.height]
    have hmost := Value.maxHeight_le_iff.mpr fun v hv => Nat.le_of_eq (hstrings v hv).2.1
    omega
  have hforget : (displayCall .unknown (texts.map Text.escape)).forget
      = displayCall .unknown (texts.map Text.escape) := by
    rw [displayCall, Value.forget, Value.forgetAll_eq_iff.mpr fun v hv => (hstrings v hv).2.2]
  have hfits := Value.fits_of_height_le hheight
  have hread := Value.ofText_texts hreadable (List.forall_mem_singleton.mpr hfits)
  rw [Value.texts, ← displaying_eq, Value.forgetAll, hforget] at hread
  exact hread

/-- Every text can be displayed exactly.  A program that displays the texts, escaped, as strings
    writes just the texts, one after the other, and its value is unspecified.  The one list of the
    program has been made, and nothing else changes. -/
theorem texts_are_displayed (i : Interpreter) (hi : i.halted = false)
    (hroom : Room.operand < i.room) (texts : List String) (s : State) :
    i.eval (displaying texts) s
      = .ok .unspecified
          { s with out := s.out ++ String.join texts, made := s.made + 1 } := by
  have hread := ofText_displaying (Nat.zero_lt_of_lt hroom) texts
  have hcodes : Text.ofCodes (Text.unescape (String.join (texts.map Text.escape)))
      = .ok (String.join texts) := by
    rw [Text.unescape_join_escape, Text.ofCodes_codes, String.ofList_toList]
  rw [i.eval_displayCall hi hroom hread, hcodes]

/-- A text that looks like escapes, and one that would end the string and begin a comment. -/
theorem texts_are_displayed_quote :
    displaying ["\\x41\\", "\";\n"] = "(display \"\\\\x41\\\\\" \"\\\";\n\")" ∧
    Interpreter.eval ⟨⟨[], ⟨[], []⟩, []⟩, Room.standard, false⟩ (displaying ["\\x41\\", "\";\n"])
      .initial = .ok .unspecified { State.initial with out := "\\x41\\\";\n", made := 1 } := by
  refine ⟨by decide, ?_⟩
  exact texts_are_displayed _ rfl (by decide) ["\\x41\\", "\";\n"] .initial

end SmallScheme
