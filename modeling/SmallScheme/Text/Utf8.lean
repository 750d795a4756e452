/-
  UTF-8, decoded strictly.

  A lead byte says how many continuation bytes follow it, and narrows the range of the first of
  them so that no code is written too long, no surrogate and none above U+10FFFF is written.  The
  decoder keeps the sequence that it is inside of, if any.  So the first byte that does not fit
  is met exactly where it stands, and the report names the bytes from the lead up to it.

  Files are decoded before anything else is done with them, and as a whole: a file with one such
  byte has no text, so nothing in it is evaluated.
-/
namespace SmallScheme.Text

/-- Why bytes are not UTF-8. -/
inductive BadUtf8.Reason where
  | invalidStart
  | invalidContinuation
  | unexpectedEnd
  deriving DecidableEq, Repr

/-- The first place where bytes are not UTF-8: `length` bytes from `start` on, the first of them
    being `lead`. -/
structure BadUtf8 where
  lead : Nat
  start : Nat
  length : Nat
  reason : BadUtf8.Reason
  deriving DecidableEq, Repr

/-- A character whose lead byte has been read. -/
structure Utf8.Sequence where
  lead : Nat
  start : Nat
  /-- How many continuation bytes are still to come. -/
  missing : Nat
  /-- The bits read so far. -/
  bits : Nat
  /-- The range of the next continuation byte. -/
  low : Nat
  high : Nat
  deriving Repr

/-- The decoder between two bytes. -/
structure Utf8.Decoder where
  position : Nat
  /-- The characters decoded so far, the last one first. -/
  decoded : List Char
  inside : Option Utf8.Sequence
  deriving Repr

namespace Utf8

/-- The sequence that a lead byte above U+007F opens. -/
def opening? (start b : Nat) : Option Sequence :=
  if 0xc2 ≤ b ∧ b ≤ 0xdf then some ⟨b, start, 1, b - 0xc0, 0x80, 0xbf⟩
  else if b = 0xe0 then some ⟨b, start, 2, 0, 0xa0, 0xbf⟩
  else if b = 0xed then some ⟨b, start, 2, 0xd, 0x80, 0x9f⟩
  else if 0xe1 ≤ b ∧ b ≤ 0xef then some ⟨b, start, 2, b - 0xe0, 0x80, 0xbf⟩
  else if b = 0xf0 then some ⟨b, start, 3, 0, 0x90, 0xbf⟩
  else if 0xf1 ≤ b ∧ b ≤ 0xf3 then some ⟨b, start, 3, b - 0xf0, 0x80, 0xbf⟩
  else if b = 0xf4 then some ⟨b, start, 3, 4, 0x80, 0x8f⟩
  else none

/-- Takes one byte. -/
def Decoder.step (d : Decoder) (byte : UInt8) : Except BadUtf8 Decoder :=
  let b := byte.toNat
  match d.inside with
  | none =>
    if b < 0x80 then .ok ⟨d.position + 1, Char.ofNat b :: d.decoded, none⟩
    else
      match opening? d.position b with
      | some s => .ok ⟨d.position + 1, d.decoded, some s⟩
      | none => .error ⟨b, d.position, 1, .invalidStart⟩
  | some s =>
    if b < s.low ∨ s.high < b then
      .error ⟨s.lead, s.start, d.position - s.start, .invalidContinuation⟩
    else
      let bits := 64 * s.bits + (b - 0x80)
      if s.missing ≤ 1 then .ok ⟨d.position + 1, Char.ofNat bits :: d.decoded, none⟩
      else
        .ok ⟨d.position + 1, d.decoded,
          some { s with missing := s.missing - 1, bits := bits, low := 0x80, high := 0xbf }⟩

/-- Takes the end of the bytes. -/
def Decoder.finish (d : Decoder) : Except BadUtf8 (List Char) :=
  match d.inside with
  | none => .ok d.decoded.reverse
  | some s => .error ⟨s.lead, s.start, d.position - s.start, .unexpectedEnd⟩

/-- The characters that bytes write. -/
def decode (bytes : List UInt8) : Except BadUtf8 (List Char) := do
  let d ← bytes.foldlM Decoder.step ⟨0, [], none⟩
  d.finish

end Utf8

end SmallScheme.Text
