/-
  NUMERALS: how integers are read and written.

  A numeral is an optional sign and one or more decimal digits, of any script and freely mixed.
  Reading and writing stop at 4300 digits; numbers themselves have no bound.  A setting is read
  more loosely: blanks around the numeral, and single underscores between its digits.

  So there are three answers to the question what number a text is (`Reading`): a number, none
  since it is no numeral, and none since it is too long.  The last is a fault and not a symbol.

  The limit on writing is about the number and not about a text: a number with more than 4300
  digits cannot be written at all (`isTooLong`), although it can be computed with.
-/
import SmallScheme.Text.Blank
import SmallScheme.Text.Digit

namespace SmallScheme.Numeral

/-- The most digits that a numeral may have when it is read or written. -/
def maxDigits : Nat := 4300

/-- What a text is when it is read as a numeral. -/
inductive Reading where
  | number (n : Int)
  /-- A numeral of `digits` digits, which is more than may be read. -/
  | tooLong (digits : Nat)
  | notNumeral
  deriving DecidableEq, Repr

/-! ## Reading -/

/-- The sign in front (is it a minus?) and what follows it. -/
def splitSign : List Char → Bool × List Char
  | '-' :: cs => (true, cs)
  | '+' :: cs => (false, cs)
  | cs => (false, cs)

/-- The values of the characters, if all are digits. -/
def digitValues? (cs : List Char) : Option (List Nat) := cs.mapM Text.digitValue?

/-- The number that digits write, the most significant first. -/
def ofDigits (digits : List Nat) : Nat := digits.foldl (fun n d => 10 * n + d) 0

/-- The number with the given sign and digits, if there are any and not too many. -/
def assemble (negative : Bool) (digits : List Nat) : Reading :=
  if digits.isEmpty then .notNumeral
  else if maxDigits < digits.length then .tooLong digits.length
  else .number (if negative then -(ofDigits digits : Int) else ofDigits digits)

/-- Reads a token as a numeral. -/
def read (cs : List Char) : Reading :=
  let (negative, rest) := splitSign cs
  match digitValues? rest with
  | some digits => assemble negative digits
  | none => .notNumeral

/-- The blanks that may stand around a setting: the information separators are not among them. -/
def isMargin (c : Char) : Bool := Text.isBlank c && !(0x1c ≤ c.toNat && c.toNat ≤ 0x1f)

/-- Do two underscores stand side by side? -/
def hasDoubleUnderscore (cs : List Char) : Bool :=
  (cs.zip cs.tail).any fun (c, d) => c == '_' && d == '_'

/-- A character that may stand inside the numeral of a setting. -/
def isSettingChar (c : Char) : Bool := (Text.digitValue? c).isSome || c == '_'

/-- The digits of the numeral of a setting, without the underscores; each underscore has to stand
    between two digits. -/
def settingDigits? (cs : List Char) : Option (List Nat) :=
  if cs.head? = some '_' ∨ cs.getLast? = some '_' ∨ hasDoubleUnderscore cs then none
  else digitValues? (cs.filter (· ≠ '_'))

/-- Reads a setting as a numeral.  Too many digits are reported even where what follows them makes
    the setting no numeral at all. -/
def readSetting (cs : List Char) : Reading :=
  let (negative, rest) := splitSign (cs.dropWhile isMargin)
  match settingDigits? (rest.takeWhile isSettingChar) with
  | none => .notNumeral
  | some digits =>
    match assemble negative digits with
    | .number n =>
      if (rest.dropWhile isSettingChar).all isMargin then .number n else .notNumeral
    | reading => reading

/-! ## Writing -/

/-- Is the number too long to be written? -/
def isTooLong (n : Int) : Bool := Nat.pow 10 maxDigits ≤ n.natAbs

/-- The shortest numeral of a number: ASCII digits, and a sign only for a negative one. -/
def text (n : Int) : String :=
  let digits := String.ofList (Nat.toDigits 10 n.natAbs)
  if n < 0 then "-" ++ digits else digits

end SmallScheme.Numeral
