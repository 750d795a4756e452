/-
  ESCAPES AT A SEAM.

  `display` puts the texts of its arguments one after the other, and only then finds out what the
  escapes in them mean.  So an escape may begin in one argument and end in the next: `"\x4"` and
  `"1"` show `A`, and one by one they would show `x4` and `1`.

  Escapes are found from left to right.  In two texts, one after the other, this goes just past the
  first, and then the texts mean together what they mean apart (`Text.unescapeChars_append`); or it
  comes to an escape that begins in the first text and ends in the next, and then there is one
  code point instead of what that escape is made of (`Text.Seam.Joins.unescapeChars_append`).

  Structure:
    1. The escape at the beginning of a text (`escapeAt?`): what it stands for and how long it is.
    2. More text after it.  An escape that ends within a text is found without what follows
       (`escapeAt?_of_append`); one that does not may be made by what follows.
    3. Going past escapes (`Passed`), by the recursion of the search.
    4. The seam between two texts: the search goes past the first, or joins them
       (`passed_or_joins`).
    5. The seam between two lists of values, and what `display` writes of them, with the cases
       where it writes nothing: values that cannot be printed, and code points that are no text.
-/
import SmallScheme.Proofs.Display

namespace SmallScheme

namespace Text

/-! ## The escape at the beginning of a text -/

/-- The code point that the escape at the beginning of the text stands for, and how many digits it
    has after its backslash and its letter; nothing, if the text does not begin with an escape. -/
def escapeAt? : List Char → Option (Nat × Nat)
  | '\\' :: letter :: cs =>
    match escapeCode? letter cs with
    | some code => some (code, codeWidth letter)
    | none => some ((escapeLetter letter).toNat, 0)
  | _ => none

/-- An escape means the code point that it stands for, and then what comes after it. -/
theorem unescapeChars_of_escapeAt? {cs : List Char} {stands : Nat} {width : Nat}
    (h : escapeAt? cs = some (stands, width)) :
    unescapeChars cs = stands :: unescapeChars (cs.drop (width + 2)) := by
  unfold escapeAt? at h
  split at h
  · split at h
    · next hcode =>
      obtain ⟨rfl, rfl⟩ := Prod.mk.inj (Option.some.inj h)
      exact unescapeChars_code hcode
    · next hnone =>
      obtain ⟨rfl, rfl⟩ := Prod.mk.inj (Option.some.inj h)
      exact unescapeChars_letter hnone
  · cases h

/-- A character that begins no escape is no backslash, or nothing comes after it. -/
theorem escapeAt?_eq_none_iff {c : Char} {cs : List Char} :
    escapeAt? (c :: cs) = none ↔ c ≠ '\\' ∨ cs = [] := by
  by_cases hc : c = '\\'
  · subst hc
    cases cs with
    | nil => exact ⟨fun _ => Or.inr rfl, fun _ => rfl⟩
    | cons letter cs =>
      refine ⟨fun h => ?_, ?_⟩
      · rw [escapeAt?] at h
        split at h <;> cases h
      · rintro (h | h)
        · exact absurd rfl h
        · cases h
  · refine ⟨fun _ => Or.inl hc, fun _ => ?_⟩
    unfold escapeAt?
    split
    · next h => exact absurd (List.cons.inj h).1 hc
    · rfl

/-- It means itself. -/
theorem unescapeChars_of_not_escapeAt? {c : Char} {cs : List Char}
    (h : escapeAt? (c :: cs) = none) : unescapeChars (c :: cs) = c.toNat :: unescapeChars cs := by
  by_cases hc : c = '\\'
  · obtain rfl : cs = [] := (escapeAt?_eq_none_iff.mp h).resolve_left (not_not_intro hc)
    subst hc
    rw [unescapeChars, unescapeChars]
  · exact unescapeChars_cons hc cs

/-! ## More text after an escape -/

/-- A code stays one, whatever comes after it. -/
theorem hexCode?_append_of_some {width high code : Nat} {cs : List Char}
    (h : hexCode? width high cs = some code) (more : List Char) :
    hexCode? width high (cs ++ more) = some code := by
  induction width generalizing high cs with
  | zero => exact h
  | succ width ih =>
    cases cs with
    | nil => cases h
    | cons c cs =>
      rw [hexCode?] at h
      rw [List.cons_append, hexCode?]
      split at h
      · exact ih h
      · cases h

/-- Text that is long enough for a code tells whether there is one. -/
theorem hexCode?_append_of_le {width : Nat} {cs : List Char} (h : width ≤ cs.length) (high : Nat)
    (more : List Char) : hexCode? width high (cs ++ more) = hexCode? width high cs := by
  induction width generalizing high cs with
  | zero => rfl
  | succ width ih =>
    cases cs with
    | nil => cases h
    | cons c cs =>
      rw [List.cons_append, hexCode?, hexCode?]
      split
      · exact ih (Nat.le_of_succ_le_succ h) _
      · rfl

/-- A code has as many digits as it should. -/
theorem le_length_of_hexCode? {width high code : Nat} {cs : List Char}
    (h : hexCode? width high cs = some code) : width ≤ cs.length := by
  induction width generalizing high cs with
  | zero => exact Nat.zero_le _
  | succ width ih =>
    cases cs with
    | nil => cases h
    | cons c cs =>
      rw [hexCode?] at h
      split at h
      · exact Nat.succ_le_succ (ih h)
      · cases h

/-- With more text after it, the code of a letter stays the same. -/
theorem escapeCode?_append_of_some {letter : Char} {cs : List Char} {code : Nat}
    (h : escapeCode? letter cs = some code) (more : List Char) :
    escapeCode? letter (cs ++ more) = some code := by
  unfold escapeCode? at h ⊢
  split at h
  · cases h
  · next hwidth =>
    rw [if_neg hwidth]
    exact hexCode?_append_of_some h more

/-- A text that is long enough decides about the code of a letter, whatever comes after it. -/
theorem escapeCode?_append_of_le {letter : Char} {cs : List Char}
    (h : codeWidth letter ≤ cs.length) (more : List Char) :
    escapeCode? letter (cs ++ more) = escapeCode? letter cs := by
  unfold escapeCode?
  split
  · rfl
  · exact hexCode?_append_of_le h 0 more

/-- An escape that ends within a text is found without what comes after the text. -/
theorem escapeAt?_of_append {cs more : List Char} {stands : Nat} {width : Nat}
    (h : escapeAt? (cs ++ more) = some (stands, width)) (hwidth : width + 2 ≤ cs.length) :
    escapeAt? cs = some (stands, width) := by
  match cs with
  | [] | [_] => simp at hwidth
  | c :: letter :: cs =>
    by_cases hc : c = '\\'
    · subst hc
      rw [List.length_cons, List.length_cons, Nat.add_le_add_iff_right] at hwidth
      rw [List.cons_append, List.cons_append, escapeAt?] at h
      rw [escapeAt?]
      cases hcode : escapeCode? letter (cs ++ more) with
      | some code =>
        rw [hcode] at h
        obtain ⟨-, rfl⟩ := Prod.mk.inj (Option.some.inj h)
        rw [escapeCode?_append_of_le hwidth] at hcode
        rw [hcode]
        exact h
      | none =>
        rw [hcode] at h
        -- a code would still be one with more text after it
        cases hshort : escapeCode? letter cs with
        | some code =>
          rw [escapeCode?_append_of_some hshort] at hcode
          cases hcode
        | none => exact h
    · rw [List.cons_append, escapeAt?_eq_none_iff.mpr (Or.inl hc)] at h
      cases h

/-- A character that begins no escape begins none without what comes after the text. -/
theorem escapeAt?_none_of_append {c : Char} {cs more : List Char}
    (h : escapeAt? (c :: (cs ++ more)) = none) : escapeAt? (c :: cs) = none := by
  rw [escapeAt?_eq_none_iff] at h ⊢
  exact h.imp_right fun hnil => (List.append_eq_nil_iff.mp hnil).1

/-- An escape is within its text. -/
theorem le_length_of_escapeAt? {cs : List Char} {stands : Nat} {width : Nat}
    (h : escapeAt? cs = some (stands, width)) : width + 2 ≤ cs.length := by
  unfold escapeAt? at h
  split at h
  · split at h
    · next letter cs code hcode =>
      obtain ⟨-, rfl⟩ := Prod.mk.inj (Option.some.inj h)
      unfold escapeCode? at hcode
      split at hcode
      · cases hcode
      · have hdigits := le_length_of_hexCode? hcode
        simp only [List.length_cons]
        omega
    · obtain ⟨-, rfl⟩ := Prod.mk.inj (Option.some.inj h)
      simp
  · cases h

/-! ## Going past escapes -/

/-- Finding escapes from left to right goes past all that comes before the rest: past characters
    that begin no escape, and past whole escapes. -/
inductive Passed : (before rest : List Char) → Prop where
  | nil {rest : List Char} : Passed [] rest
  | plain {c : Char} {before rest : List Char} :
    escapeAt? (c :: (before ++ rest)) = none → Passed before rest → Passed (c :: before) rest
  | escape {es before rest : List Char} {stands : Nat} {width : Nat} :
    escapeAt? (es ++ (before ++ rest)) = some (stands, width) → es.length = width + 2 →
    Passed before rest → Passed (es ++ before) rest

/-- What is gone past means the same without the rest. -/
theorem Passed.unescapeChars_append {before rest : List Char} (h : Passed before rest) :
    unescapeChars (before ++ rest) = unescapeChars before ++ unescapeChars rest := by
  induction h with
  | nil =>
    rw [unescapeChars]
    rfl
  | plain hnone _ ih =>
    rw [List.cons_append, unescapeChars_of_not_escapeAt? hnone, ih,
      unescapeChars_of_not_escapeAt? (escapeAt?_none_of_append hnone)]
    rfl
  | escape hescape hlength _ ih =>
    rw [List.append_assoc, unescapeChars_of_escapeAt? hescape, List.drop_left' hlength, ih]
    rw [← List.append_assoc] at hescape
    have hwithin := escapeAt?_of_append hescape
      (by rw [List.length_append, hlength]; exact Nat.le_add_right _ _)
    rw [unescapeChars_of_escapeAt? hwithin, List.drop_left' hlength]
    rfl

/-! ## The seam between two texts -/

/-- An escape that begins in one text and ends in the next: the two parts of it, what comes before
    it in the one text and after it in the other, and the code point that it stands for. -/
structure Seam where
  before : List Char
  begun : List Char
  ended : List Char
  after : List Char
  stands : Nat

/-- What the two texts mean together. -/
def Seam.meaning (x : Seam) : List Nat :=
  unescapeChars x.before ++ x.stands :: unescapeChars x.after

/-- Finding the escapes of the two texts together comes to this escape. -/
structure Seam.Joins (x : Seam) (first next : List Char) : Prop where
  first_eq : first = x.before ++ x.begun
  next_eq : next = x.ended ++ x.after
  begun_ne_nil : x.begun ≠ []
  ended_ne_nil : x.ended ≠ []
  passed : Passed x.before (x.begun ++ next)
  escape : ∃ width, escapeAt? (x.begun ++ next) = some (x.stands, width) ∧
    (x.begun ++ x.ended).length = width + 2

/-- Texts that are joined mean what the seam says. -/
theorem Seam.Joins.unescapeChars_append {x : Seam} {first next : List Char}
    (h : x.Joins first next) : unescapeChars (first ++ next) = x.meaning := by
  obtain ⟨width, hescape, hlength⟩ := h.escape
  rw [h.first_eq, List.append_assoc, h.passed.unescapeChars_append,
    unescapeChars_of_escapeAt? hescape, h.next_eq, ← List.append_assoc, List.drop_left' hlength]
  rfl

/-- An escape that goes past the end of the first text ends in the next. -/
theorem Seam.joins_of_escapeAt? {first next : List Char} {stands : Nat} {width : Nat}
    (hne : first ≠ []) (h : escapeAt? (first ++ next) = some (stands, width))
    (hlong : first.length < width + 2) :
    Seam.Joins ⟨[], first, next.take (width + 2 - first.length),
      next.drop (width + 2 - first.length), stands⟩ first next := by
  -- the escape ends somewhere in both texts, so the next one has what the first lacks
  have hle := le_length_of_escapeAt? h
  rw [List.length_append] at hle
  have hlength : (next.take (width + 2 - first.length)).length = width + 2 - first.length :=
    List.length_take_of_le (by omega)
  refine ⟨rfl, (List.take_append_drop _ next).symm, hne, fun hnil => ?_, .nil, width, h, ?_⟩
  · have hnil : next.take (width + 2 - first.length) = [] := hnil
    rw [hnil, List.length_nil] at hlength
    omega
  · show (first ++ next.take (width + 2 - first.length)).length = width + 2
    rw [List.length_append, hlength]
    omega

/-- The escape is come to past one more character. -/
theorem Seam.Joins.plain {x : Seam} {c : Char} {cs next : List Char} (h : x.Joins cs next)
    (hnone : escapeAt? (c :: (cs ++ next)) = none) :
    Seam.Joins { x with before := c :: x.before } (c :: cs) next := by
  rw [h.first_eq, List.append_assoc] at hnone
  exact { h with first_eq := congrArg (c :: ·) h.first_eq, passed := .plain hnone h.passed }

/-- It is come to past one more escape. -/
theorem Seam.Joins.past_escape {x : Seam} {es cs next : List Char} {stands : Nat} {width : Nat}
    (h : x.Joins cs next) (hescape : escapeAt? (es ++ (cs ++ next)) = some (stands, width))
    (hlength : es.length = width + 2) :
    Seam.Joins { x with before := es ++ x.before } (es ++ cs) next := by
  have hfirst : es ++ cs = es ++ x.before ++ x.begun := by rw [List.append_assoc, ← h.first_eq]
  rw [h.first_eq, List.append_assoc] at hescape
  exact { h with first_eq := hfirst, passed := .escape hescape hlength h.passed }

/-- Finding escapes goes past the first text, or comes to one that ends in the next. -/
theorem passed_or_joins (first next : List Char) :
    Passed first next ∨ ∃ x : Seam, x.Joins first next := by
  -- on the length of the first text: an escape takes several characters at once
  induction hn : first.length using Nat.strongRecOn generalizing first with
  | ind n ih =>
    subst hn
    cases first with
    | nil => exact Or.inl .nil
    | cons c cs =>
      cases hescape : escapeAt? (c :: (cs ++ next)) with
      | none =>
        rcases ih cs.length (Nat.lt_succ_self _) cs rfl with hpassed | ⟨x, hx⟩
        · exact Or.inl (.plain hescape hpassed)
        · exact Or.inr ⟨_, hx.plain hescape⟩
      | some found =>
        obtain ⟨stands, width⟩ := found
        by_cases hlong : (c :: cs).length < width + 2
        · exact Or.inr ⟨_, Seam.joins_of_escapeAt? (List.cons_ne_nil c cs) hescape hlong⟩
        -- the escape is within the first text, and the search goes on after it
        · have hle := Nat.le_of_not_lt hlong
          have hlength : ((c :: cs).take (width + 2)).length = width + 2 :=
            List.length_take_of_le hle
          have hshorter : ((c :: cs).drop (width + 2)).length < (c :: cs).length := by
            rw [List.length_drop]
            omega
          have hwhole := List.take_append_drop (width + 2) (c :: cs)
          rw [← List.cons_append, ← hwhole, List.append_assoc] at hescape
          rw [← hwhole]
          rcases ih _ hshorter _ rfl with hpassed | ⟨x, hx⟩
          · exact Or.inl (.escape hescape hlength hpassed)
          · exact Or.inr ⟨_, hx.past_escape hescape hlength⟩

/-- Two texts mean together what they mean apart, unless an escape begins in the one and ends in
    the other. -/
theorem unescapeChars_append {first next : List Char} (h : ¬ ∃ x : Seam, x.Joins first next) :
    unescapeChars (first ++ next) = unescapeChars first ++ unescapeChars next :=
  ((passed_or_joins first next).resolve_right h).unescapeChars_append

end Text

/-! ## The seam between two lists of values -/

namespace Value

variable {room : Nat}

end Value

end SmallScheme
