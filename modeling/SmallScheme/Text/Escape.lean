/-
  ESCAPES in string literals.

  A string value keeps its escapes as they were written, so three walks over the same text have
  to agree on where an escape begins:

  * `literal`  — writes a text between double quotes: a pair of backslash and character stays as
    it is, a bare double quote and a backslash at the very end get a backslash;
  * `unescape` — what the escapes mean, for output: `\n` and its like, `\xHH`, `\uHHHH`; a letter
    with no meaning stands for itself.  This gives code points, for an escape may name one that
    is no character;
  * the lexer, which ends a string at the first double quote that is not part of a pair.
-/
namespace SmallScheme.Text

/-! ## Writing a literal -/

/-- The inside of the string literal for a text. -/
def literalBody : List Char → List Char
  | [] => []
  | ['\\'] => ['\\', '\\']
  | '\\' :: c :: cs => '\\' :: c :: literalBody cs
  | '"' :: cs => '\\' :: '"' :: literalBody cs
  | c :: cs => c :: literalBody cs

/-- The string literal for a text. -/
def literal (s : String) : String := String.ofList ('"' :: literalBody s.toList ++ ['"'])

/-! ## What escapes mean -/

/-- The character that a letter after a backslash stands for. -/
def escapeLetter : Char → Char
  | 'n' => '\n'
  | 't' => '\t'
  | 'r' => '\r'
  | 'a' => '\x07'
  | 'b' => '\x08'
  | 'f' => '\x0c'
  | 'v' => '\x0b'
  | 'e' => '\x1b'
  | 's' => ' '
  | '0' => '\x00'
  | c => c

/-- The value of a digit in base sixteen. -/
def hexValue? (c : Char) : Option Nat :=
  if '0' ≤ c ∧ c ≤ '9' then some (c.toNat - 0x30)
  else if 'a' ≤ c ∧ c ≤ 'f' then some (c.toNat - 0x61 + 10)
  else if 'A' ≤ c ∧ c ≤ 'F' then some (c.toNat - 0x41 + 10)
  else none

/-- The number that the first `width` characters write in base sixteen, if they all are digits;
    `high` is what the digits before them are worth. -/
def hexCode? : (width high : Nat) → List Char → Option Nat
  | 0, high, _ => some high
  | _ + 1, _, [] => none
  | width + 1, high, c :: cs =>
    match hexValue? c with
    | some d => hexCode? width (16 * high + d) cs
    | none => none

/-- How many digits a code escape takes after its letter; zero for the other letters. -/
def codeWidth : Char → Nat
  | 'x' => 2
  | 'u' => 4
  | _ => 0

/-- The code that `letter` and the digits after it write, if they are a code escape. -/
def escapeCode? (letter : Char) (cs : List Char) : Option Nat :=
  if codeWidth letter = 0 then none else hexCode? (codeWidth letter) 0 cs

/-- The code points of the text, with its escapes replaced by what they mean.  A backslash at the
    very end stays. -/
def unescapeChars : List Char → List Nat
  | [] => []
  | ['\\'] => ['\\'.toNat]
  | '\\' :: letter :: cs =>
    match escapeCode? letter cs with
    | some code => code :: unescapeChars (cs.drop (codeWidth letter))
    | none => (escapeLetter letter).toNat :: unescapeChars cs
  | c :: cs => c.toNat :: unescapeChars cs
termination_by cs => cs.length
decreasing_by all_goals simp [List.length_drop] <;> omega

/-- `unescapeChars` on strings. -/
def unescape (s : String) : List Nat := unescapeChars s.toList

end SmallScheme.Text
