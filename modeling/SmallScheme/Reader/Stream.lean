/-
  STREAMS of tokens, from which tokens and data are taken step by step.

  A token is drawn from a text, or from a list of tokens, only when it is asked for, and can be
  looked at before it is used: so there may be one token that has been drawn and not been used.
  Where a text has a string that nothing closes, whoever draws the token there meets a fault, and
  those who come later meet the end.

  A datum looks at each token before it uses it.  When it is nested too deep, it breaks off where
  there is no room left for drawing a token from a text; and a text that is interrupted there gives
  no more tokens.  Drawing one from a list needs no room, and there only the datum breaks off.  It
  also breaks off at a leaf that there is no room for; but this token has been drawn, and the others
  can still be.
-/
import SmallScheme.Reader.Datum

namespace SmallScheme

/-- A stream of tokens. -/
structure TokenStream where
  /-- Are the tokens cut from a text? -/
  lexing : Bool
  /-- The tokens that have been used, the last one first. -/
  used : List Token
  /-- The token that has been drawn and not been used. -/
  buffer? : Option Token
  undrawn : Tokens

namespace TokenStream

/-- The stream of a text's tokens. -/
def ofText (source : String) : TokenStream := ⟨true, [], none, Tokens.ofText source.toList⟩

/-- The stream of given tokens. -/
def ofList (tokens : List Token) : TokenStream := ⟨false, [], none, ⟨tokens, none⟩⟩

/-- How many tokens are still to be used. -/
def left (s : TokenStream) : Nat := s.buffer?.toList.length + s.undrawn.list.length

/-- Draws a token. -/
def draw (s : TokenStream) : Except Fault (Option Token) × TokenStream :=
  (s.undrawn.advance.1, { s with undrawn := s.undrawn.advance.2 })

/-- The next token, which stays. -/
def peek (s : TokenStream) : Except Fault (Option Token) × TokenStream :=
  match s.buffer? with
  | some token => (.ok (some token), s)
  | none =>
    match s.draw with
    | (.ok (some token), t) => (.ok (some token), { t with buffer? := some token })
    | nothing => nothing

/-- The next token, which is used. -/
def advance (s : TokenStream) : Except Fault (Option Token) × TokenStream :=
  match s.buffer? with
  | some token => (.ok (some token), { s with used := token :: s.used, buffer? := none })
  | none =>
    match s.draw with
    | (.ok (some token), t) => (.ok (some token), { t with used := token :: s.used })
    | nothing => nothing

/-- The stream when a datum, at the token that is next, is nested too deep. -/
def interrupt (s : TokenStream) : TokenStream :=
  if s.lexing then { s.advance.2 with undrawn := ⟨[], none⟩ } else s

/-- What has been looked at and is then used, is one token less to be used. -/
theorem left_lt_of_peek {s t : TokenStream} {token : Token} (h : s.peek = (.ok (some token), t)) :
    t.advance.2.left < s.left := by
  obtain ⟨lexing, used, buffer?, ⟨list, unclosed?⟩⟩ := s
  cases buffer? with
  | some next =>
    cases h
    simp [advance, left]
  | none =>
    cases list with
    | nil => cases unclosed? <;> cases h
    | cons next list =>
      cases h
      simp [advance, left, Tokens.advance]

/-- Takes tokens until a datum is complete; nothing, if there is none. -/
def datumFrom (reader : Reader.State) (s : TokenStream) :
    Except Fault (Option Value) × TokenStream :=
  match _h : s.peek with
  | (.error fault, t) => (.error fault, t)
  | (.ok none, t) =>
    match reader.atEnd with
    | some e => (.error (.error e), t)
    | none => (.ok none, t)
  | (.ok (some token), t) =>
    match reader.step token with
    | .done v => (.ok (some v), t.advance.2)
    | .more reader => datumFrom reader t.advance.2
    | .tooDeep => (.error .tooDeep, t.interrupt)
    | .fail fault taken => (.error fault, if taken then t.advance.2 else t)
termination_by s.left
decreasing_by exact left_lt_of_peek _h

/-- The next datum, if there is room for it, or nothing at the end. -/
def datum (room : Nat) (s : TokenStream) : Except Fault (Option Value) × TokenStream :=
  s.datumFrom (.start room)

/-- A datum leaves fewer tokens to be used. -/
theorem left_lt_of_datumFrom {reader : Reader.State} {s t : TokenStream} {v : Value}
    (h : s.datumFrom reader = (.ok (some v), t)) : t.left < s.left := by
  fun_induction datumFrom reader s with
  | case4 reader s token t hpeek =>
    cases h
    exact left_lt_of_peek hpeek
  | case5 reader s token t hpeek next _ ih => exact Nat.lt_trans (ih h) (left_lt_of_peek hpeek)
  | _ => cases h

/-- All data up to the end. -/
def data (room : Nat) (s : TokenStream) : Except Fault (List Value) × TokenStream :=
  match _h : s.datum room with
  | (.error fault, t) => (.error fault, t)
  | (.ok none, t) => (.ok [], t)
  | (.ok (some v), t) =>
    match data room t with
    | (.ok vs, u) => (.ok (v :: vs), u)
    | failure => failure
termination_by s.left
decreasing_by exact left_lt_of_datumFrom _h

end TokenStream

end SmallScheme
