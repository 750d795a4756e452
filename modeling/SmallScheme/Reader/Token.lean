/-
  TOKENS, and how a text is cut into them.

  A token is a quote mark, a parenthesis, a string in double quotes, or a run of other characters;
  blanks and comments stand between tokens.  The lexer reads one character at a time, and its
  state says what it is inside of.  A string ends at the first double quote that no backslash
  precedes in a pair; if there is none, the text has no token from its opening quote on.

  A lexer that goes character by character has no piece of text to look ahead in, and every
  statement about it is an induction on the characters with one case for each mode.  It agrees with
  the pattern that describes tokens piece by piece, and it meets no character that it does not
  expect (see the token pattern).

  There are more kinds of token than the lexer makes, since tokens may come from elsewhere.
-/
import SmallScheme.Text.Blank

namespace SmallScheme

/-- The kinds of token.  The lexer makes only the first five. -/
inductive Token.Kind where
  | quote
  | opening
  | closing
  | string
  | symbol
  | other (name : String)
  deriving DecidableEq, Repr

/-- A token: its kind, and its text as it was written. -/
structure Token where
  kind : Token.Kind
  text : String
  deriving DecidableEq, Repr

/-- How a kind of token is called. -/
def Token.Kind.name : Token.Kind → String
  | .quote => "quote"
  | .opening => "lparen"
  | .closing => "rparen"
  | .string => "string"
  | .symbol => "symbol"
  | .other name => name

/-- The kind of token of that name. -/
def Token.Kind.ofName : String → Token.Kind
  | "quote" => .quote
  | "lparen" => .opening
  | "rparen" => .closing
  | "string" => .string
  | "symbol" => .symbol
  | name => .other name

/-- Tokens that are still to be read.  Where a text has a double quote that nothing closes, its
    place is met after the last token: once, and then the tokens are at an end. -/
structure Tokens where
  list : List Token
  unclosed? : Option Nat
  deriving DecidableEq, Repr

namespace Lexer

/-- What the lexer is inside of.  Characters of the token at hand are kept last one first. -/
inductive Mode where
  | gap
  | comment
  | symbol (taken : List Char)
  | string (start : Nat) (taken : List Char)
  /-- Inside a string, after a backslash. -/
  | pair (start : Nat) (taken : List Char)
  deriving DecidableEq, Repr

/-- The lexer between two characters. -/
structure State where
  position : Nat
  mode : Mode
  /-- The tokens so far, the last one first. -/
  tokens : List Token

/-- The token of the given kind whose characters were taken, the last one first. -/
def token (kind : Token.Kind) (taken : List Char) : Token :=
  ⟨kind, String.ofList taken.reverse⟩

/-- A character that a symbol may hold. -/
def isSymbolChar (c : Char) : Bool :=
  !(Text.isBlank c || c == '(' || c == ')' || c == '\'' || c == '"' || c == ';')

/-- Takes a character where no token is open. -/
def begin (position : Nat) (c : Char) (tokens : List Token) : Mode × List Token :=
  if Text.isBlank c then (.gap, tokens)
  else
    match c with
    | ';' => (.comment, tokens)
    | '\'' => (.gap, token .quote [c] :: tokens)
    | '(' => (.gap, token .opening [c] :: tokens)
    | ')' => (.gap, token .closing [c] :: tokens)
    | '"' => (.string position [c], tokens)
    | _ => (.symbol [c], tokens)

/-- Takes a character. -/
def advance (position : Nat) (c : Char) : Mode → List Token → Mode × List Token
  | .gap, tokens => begin position c tokens
  | .comment, tokens => (if c = '\n' then .gap else .comment, tokens)
  | .symbol taken, tokens =>
    if isSymbolChar c then (.symbol (c :: taken), tokens)
    else begin position c (token .symbol taken :: tokens)
  | .string start taken, tokens =>
    if c = '"' then (.gap, token .string (c :: taken) :: tokens)
    else if c = '\\' then (.pair start (c :: taken), tokens)
    else (.string start (c :: taken), tokens)
  | .pair start taken, tokens => (.string start (c :: taken), tokens)

/-- The lexer after one more character. -/
def State.step (s : State) (c : Char) : State :=
  let (mode, tokens) := advance s.position c s.mode s.tokens
  ⟨s.position + 1, mode, tokens⟩

/-- The tokens, when the text is at its end. -/
def State.finish (s : State) : Tokens :=
  match s.mode with
  | .gap | .comment => ⟨s.tokens.reverse, none⟩
  | .symbol taken => ⟨(token .symbol taken :: s.tokens).reverse, none⟩
  | .string start _ | .pair start _ => ⟨s.tokens.reverse, some start⟩

end Lexer

/-- Cuts a text into tokens. -/
def Tokens.ofText (cs : List Char) : Tokens :=
  (cs.foldl Lexer.State.step ⟨0, .gap, []⟩).finish

end SmallScheme
