/-
  BLANKS: the characters that separate tokens, and that trimming removes.

  The set is Unicode's white space together with the four information separators
  U+001C to U+001F; the zero-width characters U+200B and U+FEFF are not in it.
-/
namespace SmallScheme.Text

/-- Does the character separate tokens? -/
def isBlank (c : Char) : Bool :=
  let n := c.toNat
  (0x9 ≤ n && n ≤ 0xd) || (0x1c ≤ n && n ≤ 0x20) || n == 0x85 || n == 0xa0 || n == 0x1680
    || (0x2000 ≤ n && n ≤ 0x200a) || n == 0x2028 || n == 0x2029 || n == 0x202f || n == 0x205f
    || n == 0x3000

/-- The text without the blanks it begins and ends with. -/
def trim (cs : List Char) : List Char :=
  ((cs.dropWhile isBlank).reverse.dropWhile isBlank).reverse

/-- Does the text hold anything but blanks? -/
def hasInk (cs : List Char) : Bool := cs.any fun c => !isBlank c

end SmallScheme.Text
