/-
  NUMERALS read back.

  The numeral that is written for a number is ASCII digits with at most a minus in front.  Read
  again it is the same number, provided that it has no more digits than may be read, and then it
  may be written as well (`read_text`, `isTooLong_eq_false`).  A number that has been read, from
  digits of whatever script, never has more than that (`length_digitChars_of_read`).

  Reading is in two parts, the sign and the digits.  What is said about the digits builds on the
  lemmas of the standard library about digits to the base of ten; only their values are found in
  another way here, since there are digits of other scripts too.

  The limit on digits is a number of digits and not a number, and the power of ten that belongs to
  it is far too large to be worked out.  So whatever compares with it is said for any number of
  digits first.
-/
import SmallScheme.Numeral

namespace SmallScheme

/-- An ASCII digit is the first of all digits of that value. -/
theorem Text.digitValue?_of_isDigit {c : Char} (h : c.isDigit = true) :
    Text.digitValue? c = some (c.toNat - 48) := by
  have hrange : 48 ≤ c.toNat ∧ c.toNat ≤ 48 + 9 := by
    simp only [Char.isDigit, Bool.and_eq_true, decide_eq_true_eq] at h
    exact h
  rw [Text.digitValue?, Text.digitZeros, List.findSome?_cons, if_pos hrange]

namespace Numeral

/-- Every ASCII digit has a value. -/
theorem digitValues?_of_isDigit {cs : List Char} (h : ∀ c ∈ cs, c.isDigit = true) :
    digitValues? cs = some (cs.map fun c => c.toNat - 48) := by
  induction cs with
  | nil => rfl
  | cons c cs ih =>
    obtain ⟨hc, hcs⟩ := List.forall_mem_cons.mp h
    rw [digitValues?, List.mapM_cons, Text.digitValue?_of_isDigit hc]
    show (digitValues? cs >>= fun ds => pure ((c.toNat - 48) :: ds)) = _
    rw [ih hcs]
    rfl

/-- The number that digits write is the one that they stand for in ten. -/
theorem ofDigits_map (cs : List Char) :
    ofDigits (cs.map fun c => c.toNat - 48) = Nat.ofDigitChars 10 cs 0 := by
  rw [ofDigits, List.foldl_map, Nat.ofDigitChars_eq_foldl]
  rfl

/-- The decimal digits of a number. -/
def digitChars (n : Int) : List Char := Nat.toDigits 10 n.natAbs

/-- All of them are ASCII digits. -/
theorem isDigit_of_mem_digitChars {n : Int} {c : Char} (h : c ∈ digitChars n) :
    c.isDigit = true :=
  Nat.isDigit_of_mem_toDigits (by decide) (by decide) h

/-- There is at least one. -/
theorem digitChars_ne_nil (n : Int) : digitChars n ≠ [] := Nat.toDigits_ne_nil

/-- What is written has as many digits as may be written, or fewer. -/
theorem isTooLong_eq_false {n : Int} (h : (digitChars n).length ≤ maxDigits) :
    isTooLong n = false := by
  -- for any number of digits: the power is too large to be worked out
  have general : ∀ k, 0 < k → (digitChars n).length ≤ k → ¬ Nat.pow 10 k ≤ n.natAbs := by
    intro k hk hlength
    exact Nat.not_le.mpr ((Nat.length_toDigits_le_iff (by decide) hk).mp hlength)
  rw [isTooLong, decide_eq_false_iff_not]
  exact general maxDigits (by decide) h

/-- Before digits there is no sign. -/
theorem splitSign_of_isDigit {cs : List Char} (h : ∀ c ∈ cs, c.isDigit = true) :
    splitSign cs = (false, cs) := by
  unfold splitSign
  split
  · have hminus : Char.isDigit '-' = true := h '-' List.mem_cons_self
    cases hminus
  · have hplus : Char.isDigit '+' = true := h '+' List.mem_cons_self
    cases hplus
  · rfl

/-- The numeral is the digits, with a minus where the number is negative. -/
theorem toList_text (n : Int) :
    (text n).toList = if n < 0 then '-' :: digitChars n else digitChars n := by
  unfold text digitChars
  split
  · rw [String.toList_append, String.toList_ofList, String.toList_ofList]
    rfl
  · rw [String.toList_ofList]

/-- What comes after the sign is read by its digits. -/
theorem read_of_splitSign {cs rest : List Char} {negative : Bool} {digits : List Nat}
    (hsign : splitSign cs = (negative, rest)) (hdigits : digitValues? rest = some digits) :
    read cs = assemble negative digits := by
  unfold read
  rw [hsign]
  dsimp only
  rw [hdigits]

/-- A numeral that is not too long to be read is read as the number that it was written for. -/
theorem read_text {n : Int} (h : (digitChars n).length ≤ maxDigits) :
    read (text n).toList = .number n := by
  have hdigits : digitValues? (digitChars n) = some ((digitChars n).map fun c => c.toNat - 48) :=
    digitValues?_of_isDigit fun _ hc => isDigit_of_mem_digitChars hc
  have hvalue : ofDigits ((digitChars n).map fun c => c.toNat - 48) = n.natAbs := by
    rw [ofDigits_map, digitChars, Nat.ofDigitChars_ten_toDigits]
  have hassemble : ∀ negative, assemble negative ((digitChars n).map fun c => c.toNat - 48)
      = .number (if negative then -(n.natAbs : Int) else n.natAbs) := by
    intro negative
    have hne : ((digitChars n).map fun c => c.toNat - 48).isEmpty = false := by
      rw [List.isEmpty_map, List.isEmpty_eq_false_iff]
      exact digitChars_ne_nil n
    have hlength : ¬ maxDigits < ((digitChars n).map fun c => c.toNat - 48).length := by
      rw [List.length_map]
      exact Nat.not_lt.mpr h
    rw [assemble, hne, if_neg Bool.false_ne_true, if_neg hlength, hvalue]
  rw [toList_text]
  split
  · next hneg =>
    have hsign : splitSign ('-' :: digitChars n) = (true, digitChars n) := rfl
    rw [read_of_splitSign hsign hdigits, hassemble, if_pos rfl]
    congr 1
    omega
  · next hpos =>
    have hsign := splitSign_of_isDigit fun _ hc => isDigit_of_mem_digitChars (n := n) hc
    rw [read_of_splitSign hsign hdigits, hassemble, if_neg Bool.false_ne_true]
    congr 1
    omega

/-! ## Numbers that have been read -/

/-- All values of digits are at most nine. -/
theorem le_nine_of_digitValues? {cs : List Char} {digits : List Nat}
    (h : digitValues? cs = some digits) : ∀ d ∈ digits, d ≤ 9 := by
  induction cs generalizing digits with
  | nil =>
    cases h
    exact List.forall_mem_nil _
  | cons c cs ih =>
    rw [digitValues?, List.mapM_cons, Option.bind_eq_bind, Option.bind_eq_some_iff] at h
    obtain ⟨d, hd, h⟩ := h
    obtain ⟨others, hothers, h⟩ := Option.bind_eq_some_iff.mp h
    cases h
    exact List.forall_mem_cons.mpr ⟨Text.digitValue?_le_nine hd, ih hothers⟩

/-- Digits after others: so many of them make the number at most that power of ten as large. -/
theorem foldl_digits_lt {digits : List Nat} (h : ∀ d ∈ digits, d ≤ 9) (start : Nat) :
    digits.foldl (fun n d => 10 * n + d) start < (start + 1) * Nat.pow 10 digits.length := by
  induction digits generalizing start with
  | nil =>
    show start < (start + 1) * 1
    omega
  | cons d digits ih =>
    obtain ⟨hd, hdigits⟩ := List.forall_mem_cons.mp h
    have hstart : 10 * start + d + 1 ≤ (start + 1) * 10 := by omega
    calc (d :: digits).foldl (fun n d => 10 * n + d) start
        < (10 * start + d + 1) * Nat.pow 10 digits.length := ih hdigits (10 * start + d)
      _ ≤ (start + 1) * 10 * Nat.pow 10 digits.length := Nat.mul_le_mul_right _ hstart
      _ = (start + 1) * Nat.pow 10 (d :: digits).length := by
        rw [Nat.mul_assoc, Nat.mul_comm 10]
        rfl

/-- So many digits write a number below that power of ten. -/
theorem ofDigits_lt {digits : List Nat} (h : ∀ d ∈ digits, d ≤ 9) :
    ofDigits digits < Nat.pow 10 digits.length := by
  have hlt := foldl_digits_lt h 0
  rwa [Nat.zero_add, Nat.one_mul] at hlt

/-- A number that has been read may be read again, and written. -/
theorem length_digitChars_of_read {cs : List Char} {n : Int} (h : read cs = .number n) :
    (digitChars n).length ≤ maxDigits := by
  -- for any number of digits: the power is too large to be worked out
  have general : ∀ k, 0 < k → ∀ digits : List Nat, digits.length ≤ k →
      ofDigits digits < Nat.pow 10 digits.length →
        (Nat.toDigits 10 (ofDigits digits)).length ≤ k := by
    intro k hk digits hlength hlt
    rw [Nat.length_toDigits_le_iff (by decide) hk]
    exact Nat.lt_of_lt_of_le hlt (Nat.pow_le_pow_right (by decide) hlength)
  unfold read at h
  dsimp only at h
  split at h
  · next digits hdigits =>
    unfold assemble at h
    split at h
    · cases h
    · split at h
      · cases h
      · next hlength =>
        have hcount := general maxDigits (by decide) digits (Nat.not_lt.mp hlength)
          (ofDigits_lt (le_nine_of_digitValues? hdigits))
        have hn : n.natAbs = ofDigits digits := by
          injection h with h
          split at h <;> omega
        rw [digitChars, hn]
        exact hcount
  · cases h

end Numeral

end SmallScheme
