/-
  QUOTED TEXT: a text in quotation marks that shows every character, seen or unseen.

  The marks are apostrophes; a text that holds an apostrophe and no double quote is put in double
  quotes instead.  A backslash, the mark in use, a line feed, a return and a tab get a backslash,
  and any other character that is not printable is written by its code.
-/
import SmallScheme.Text.Printable

namespace SmallScheme.Text

/-- The digits of `n` in base sixteen, filled up with zeros to `width`. -/
def hexDigits (width n : Nat) : List Char :=
  let digits := Nat.toDigits 16 n
  List.replicate (width - digits.length) '0' ++ digits

/-- The shortest of the three code forms that has room for the character. -/
def codeForm (c : Char) : List Char :=
  let n := c.toNat
  if n < 0x100 then '\\' :: 'x' :: hexDigits 2 n
  else if n < 0x10000 then '\\' :: 'u' :: hexDigits 4 n
  else '\\' :: 'U' :: hexDigits 8 n

/-- One character of a text that stands between two `mark`s. -/
def quotedChar (mark c : Char) : List Char :=
  if c = mark ∨ c = '\\' then ['\\', c]
  else if c = '\n' then ['\\', 'n']
  else if c = '\r' then ['\\', 'r']
  else if c = '\t' then ['\\', 't']
  else if isPrintable c then [c]
  else codeForm c

/-- The quotation mark for a text: an apostrophe where possible. -/
def markFor (cs : List Char) : Char :=
  if cs.contains '\'' && !cs.contains '"' then '"' else '\''

/-- The text in quotation marks. -/
def quoted (s : String) : String :=
  let cs := s.toList
  let mark := markFor cs
  String.ofList (mark :: cs.flatMap (quotedChar mark) ++ [mark])

end SmallScheme.Text
