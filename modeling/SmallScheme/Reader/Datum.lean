/-
  DATA from tokens.

  The reader goes through the tokens once.  What it is inside of — quotes, lists, and lists whose
  dot it has passed — is a stack of contexts; a datum that is complete goes to the context on
  top.  How deep data is nested is the height of the stack, and there is room for so much of it.

  A list or a quote takes one of the room for as long as it is open.  A leaf, which is an atom or a
  string, is read at once, but takes some of the room while it is: so where the room comes to its
  end, there may still be an empty list and no symbol.  A reader starts with the margin besides its
  room (`State.start`), so leaves are read wherever the room is enough for the lists and quotes
  that they are in.

  The dot is a symbol like any other, except directly inside a list: there it announces the tail.
  A tail that is itself a list is taken apart, so `(a . (b c))` is `(a b c)`.
-/
import SmallScheme.Fault
import SmallScheme.Reader.Token

namespace SmallScheme

/-! ## Atoms -/

/-- The value of a symbol token: a boolean, a number, or else a symbol. -/
def Value.ofAtom? (text : String) : Except Fault Value :=
  match text with
  | "#t" => .ok (.bool true)
  | "#f" => .ok (.bool false)
  | _ =>
    match Numeral.read text.toList with
    | .number n => .ok (.int n)
    | .tooLong count => .error (.digitsRead count)
    | .notNumeral => .ok (.symbol text)

/-- The value of a string token: what stands between its quotes. -/
def Value.ofLiteral (text : String) : Value := .str (String.ofList text.toList.tail.dropLast)

/-- Items with a tail after the dot. -/
def Value.ofTail (items : List Value) : Value → Value
  | .list _ vs => .ofItems (items ++ vs)
  | .dotted _ vs v => .dotted .unknown (items ++ vs) v
  | v => .dotted .unknown items v

namespace Reader

/-- What a datum is part of.  Items are kept last one first. -/
inductive Context where
  | quote
  | list (items : List Value)
  /-- A list whose dot has been passed. -/
  | tail (items : List Value)

/-- The reader between two tokens.  `room` is for how many contexts more there is room. -/
inductive State where
  /-- The next token begins a datum, or ends a list. -/
  | ready (room : Nat) (contexts : List Context)
  /-- A list has its tail: the next token has to end it. -/
  | full (room : Nat) (items : List Value) (tail : Value) (contexts : List Context)

/-- The reader where a datum may begin. -/
def State.start (room : Nat) : State := .ready (room + Room.margin) []

/-- What a token comes to. -/
inductive Step where
  | done (v : Value)
  | more (s : State)
  /-- The token is refused; `taken` tells whether it is used up all the same. -/
  | fail (fault : Fault) (taken : Bool)
  /-- The token is used up, but there is no room for drawing the one that has to follow. -/
  | tooDeep

/-- A datum is complete. -/
def complete (v : Value) (room : Nat) : List Context → Step
  | [] => .done v
  | .quote :: outer => complete (.quoteOf v) (room + 1) outer
  | .list items :: outer => .more (.ready room (.list (v :: items) :: outer))
  | .tail items :: outer => .more (.full room items v outer)

/-- A datum begins that is a context for others. -/
def enter (context : Context) (room : Nat) (contexts : List Context) : Step :=
  match room with
  | 0 => .tooDeep
  | room + 1 => .more (.ready room (context :: contexts))

/-- A leaf: a token that is a datum on its own, if there is room for what reading it takes. -/
def leaf (needed : Nat) (result : Except Fault Value) (room : Nat) (contexts : List Context) :
    Step :=
  if room < needed then .fail .tooDeep true
  else
    match result with
    | .ok v => complete v room contexts
    | .error fault => .fail fault true

/-- An atom. -/
def atom (text : String) (room : Nat) (contexts : List Context) : Step :=
  leaf Room.atom (Value.ofAtom? text) room contexts

/-- A symbol token: a dot directly inside a list, or an atom. -/
def symbol (text : String) (room : Nat) (contexts : List Context) : Step :=
  match contexts with
  | .list items :: outer =>
    if text = "." then
      if items.isEmpty then .fail (.error .leadingDot) true
      else .more (.ready room (.tail items :: outer))
    else atom text room contexts
  | _ => atom text room contexts

/-- A closing parenthesis where a datum may begin. -/
def close (room : Nat) : List Context → Step
  | .list items :: outer => complete (.ofItems items.reverse) (room + 1) outer
  | .tail _ :: _ => .fail (.error .nothingAfterDot) false
  | _ => .fail (.error .strayClose) false

/-- Takes a token. -/
def State.step : State → Token → Step
  | .ready room contexts, token =>
    match token.kind with
    | .symbol => symbol token.text room contexts
    | .string => leaf Room.literal (.ok (.ofLiteral token.text)) room contexts
    | .quote => enter .quote room contexts
    | .opening => enter (.list []) room contexts
    | .closing => close room contexts
    | .other name => .fail (.error (.unknownToken name token.text)) false
  | .full room items tail contexts, token =>
    match token.kind with
    | .closing => complete (.ofTail items.reverse tail) (room + 1) contexts
    | _ => .fail (.error .unclosedDot) false

/-- What tokens come to. -/
inductive Outcome where
  | done (v : Value) (rest : List Token)
  | fail (fault : Fault) (rest : List Token)
  /-- The tokens end before the datum does. -/
  | starved (s : State)

/-- Takes tokens until a datum is complete. -/
def State.run : State → List Token → Outcome
  | s, [] => .starved s
  | s, token :: tokens =>
    match s.step token with
    | .done v => .done v tokens
    | .more t => t.run tokens
    | .fail fault taken => .fail fault (if taken then tokens else token :: tokens)
    | .tooDeep => .fail .tooDeep tokens

/-- A datum takes at least one token. -/
theorem State.length_lt_of_run_done : ∀ {tokens : List Token} {s : State} {v : Value}
    {rest : List Token}, s.run tokens = .done v rest → rest.length < tokens.length := by
  intro tokens
  induction tokens with
  | nil => intro s v rest h; cases h
  | cons token tokens ih =>
    intro s v rest h
    rw [State.run] at h
    split at h
    · cases h
      exact Nat.lt_succ_self _
    · exact Nat.lt_succ_of_lt (ih h)
    · cases h
    · cases h

/-- What is wrong when the tokens end; nothing, if no datum has begun. -/
def State.atEnd : State → Option Error
  | .ready _ [] => none
  | .ready _ (.quote :: _) => some .nothingQuoted
  | .ready _ (.list _ :: _) => some .unclosedList
  | .ready _ (.tail _ :: _) => some .nothingAfterDot
  | .full _ _ _ _ => some .unclosedDot

end Reader

namespace Tokens

/-! ## Reading step by step -/

/-- What follows the last token: the place of an unclosed string, once, or the end. -/
def atEnd (tokens : Tokens) : Except Fault (Option Token) × Tokens :=
  match tokens.unclosed? with
  | some position => (.error (.error (.unterminatedString position)), ⟨[], none⟩)
  | none => (.ok none, ⟨[], none⟩)

/-- The next token, which stays. -/
def peek (tokens : Tokens) : Except Fault (Option Token) × Tokens :=
  match tokens.list with
  | [] => tokens.atEnd
  | token :: _ => (.ok (some token), tokens)

/-- The next token, which is used up. -/
def advance (tokens : Tokens) : Except Fault (Option Token) × Tokens :=
  match tokens.list with
  | [] => tokens.atEnd
  | token :: rest => (.ok (some token), ⟨rest, tokens.unclosed?⟩)

/-- The next datum, if there is room for it, or nothing at the end. -/
def datum (room : Nat) (tokens : Tokens) : Except Fault (Option Value) × Tokens :=
  match (Reader.State.start room).run tokens.list with
  | .done v rest => (.ok (some v), ⟨rest, tokens.unclosed?⟩)
  | .fail fault rest => (.error fault, ⟨rest, tokens.unclosed?⟩)
  | .starved s =>
    match tokens.unclosed? with
    | some position => (.error (.error (.unterminatedString position)), ⟨[], none⟩)
    | none =>
      match s.atEnd with
      | some e => (.error (.error e), ⟨[], none⟩)
      | none => (.ok none, ⟨[], none⟩)

/-- A datum leaves fewer tokens than there were. -/
theorem length_lt_of_datum {room : Nat} {tokens rest : Tokens} {v : Value}
    (h : tokens.datum room = (.ok (some v), rest)) : rest.list.length < tokens.list.length := by
  unfold datum at h
  split at h
  · next hr =>
    cases h
    exact Reader.State.length_lt_of_run_done hr
  · cases h
  · split at h
    · cases h
    · split at h <;> cases h

end Tokens

/-- What a text holds: the forms that can be read, what then stops the reader, if not the end of
    the text, and the tokens that are left. -/
structure Script where
  forms : List Value
  fault? : Option Fault
  rest : Tokens

namespace Script

/-- Reads tokens to the end, or to the first fault, with room for the data. -/
def ofTokens (room : Nat) (tokens : Tokens) : Script :=
  match _h : tokens.datum room with
  | (.ok (some v), rest) =>
    let script := ofTokens room rest
    { script with forms := v :: script.forms }
  | (.ok none, rest) => ⟨[], none, rest⟩
  | (.error fault, rest) => ⟨[], some fault, rest⟩
termination_by tokens.list.length
decreasing_by exact Tokens.length_lt_of_datum _h

/-- Reads a text, with room for its data. -/
def ofText (room : Nat) (source : String) : Script :=
  ofTokens room (Tokens.ofText source.toList)

/-- All forms of a text that has no fault. -/
def all (script : Script) : Except Fault (List Value) :=
  match script.fault? with
  | some fault => .error fault
  | none => .ok script.forms

/-- The only form of a text that has just one and no fault. -/
def single (script : Script) : Except Fault Value :=
  match script.all with
  | .ok [v] => .ok v
  | .ok forms => .error (.error (.notOneForm forms.length))
  | .error fault => .error fault

end Script

end SmallScheme
