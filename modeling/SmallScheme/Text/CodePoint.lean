/-
  CODE POINTS.

  What an escape such as `\u0041` names is a code point, and most code points are characters.  The
  surrogates, from U+D800 to U+DFFF, are not: they only stand for something where one of them
  follows another in texts of 16-bit units, and a text of characters has no place for them.  An
  escape may name one all the same.  Then there is no text to write, neither as it is nor in UTF-8.

  `ofCodes` makes a text of code points, or tells the first surrogates in them.
-/
namespace SmallScheme.Text

/-- Is the code point one half of a pair, and no character? -/
def isSurrogate (code : Nat) : Bool := 0xD800 ≤ code && code < 0xE000

/-- Surrogates that keep code points from being a text: where they stand, how many there are in a
    row, and the first of them. -/
structure Unencodable where
  start : Nat
  length : Nat
  code : Nat
  deriving DecidableEq, Repr

/-- The text that the code points are, or the first surrogates in them. -/
def ofCodes (codes : List Nat) : Except Unencodable String :=
  match codes.find? isSurrogate with
  | none => .ok (String.ofList (codes.map Char.ofNat))
  | some code =>
    let start := codes.findIdx isSurrogate
    .error ⟨start, ((codes.drop start).takeWhile isSurrogate).length, code⟩

/-- The code points of a text. -/
def codes (cs : List Char) : List Nat := cs.map Char.toNat

/-- No character is a surrogate. -/
theorem isSurrogate_toNat (c : Char) : isSurrogate c.toNat = false := by
  have hvalid : c.toNat < 0xD800 ∨ 0xDFFF < c.toNat ∧ c.toNat < 0x110000 := c.valid
  rw [isSurrogate, Bool.and_eq_false_iff, decide_eq_false_iff_not, decide_eq_false_iff_not]
  omega

/-- Code points are a text just if there is no surrogate among them. -/
theorem ofCodes_eq_ok_iff {codes : List Nat} {text : String} : ofCodes codes = .ok text ↔
    (∀ code ∈ codes, isSurrogate code = false) ∧ text = String.ofList (codes.map Char.ofNat) := by
  have hfind : codes.find? isSurrogate = none ↔ ∀ code ∈ codes, isSurrogate code = false := by
    simp only [List.find?_eq_none, Bool.not_eq_true]
  unfold ofCodes
  constructor
  · intro h
    split at h
    · next hnone => exact ⟨hfind.mp hnone, (Except.ok.inj h).symm⟩
    · cases h
  · rintro ⟨hnone, rfl⟩
    rw [hfind.mpr hnone]

/-- The code points of a text are that text. -/
theorem ofCodes_codes (cs : List Char) : ofCodes (codes cs) = .ok (String.ofList cs) := by
  refine ofCodes_eq_ok_iff.mpr ⟨fun code hmem => ?_, ?_⟩
  · obtain ⟨c, -, rfl⟩ := List.mem_map.mp hmem
    exact isSurrogate_toNat c
  · have hchars : Char.ofNat ∘ Char.toNat = id := funext Char.ofNat_toNat
    rw [codes, List.map_map, hchars, List.map_id]

/-- The surrogate that is told is the first one. -/
theorem find?_of_ofCodes {codes : List Nat} {bad : Unencodable} (h : ofCodes codes = .error bad) :
    codes.find? isSurrogate = some bad.code := by
  unfold ofCodes at h
  split at h
  · cases h
  · next hfound =>
    cases h
    exact hfound

/-- What keeps code points from being a text is a surrogate among them. -/
theorem isSurrogate_of_ofCodes {codes : List Nat} {bad : Unencodable}
    (h : ofCodes codes = .error bad) : isSurrogate bad.code = true ∧ bad.code ∈ codes :=
  ⟨List.find?_some (find?_of_ofCodes h), List.mem_of_find?_eq_some (find?_of_ofCodes h)⟩

end SmallScheme.Text
