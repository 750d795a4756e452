/-
  WHAT STOPS A VALUE from being printed.

  Two things can: a number that is too long, and nesting.  The first depends on the numbers only
  (`integers`), so a value without long numbers is printed, but for its nesting.  The second depends
  on the room, and there are two questions to it.

  * How much room is enough?  Each list that is around something takes some of the room, and a
    leaf takes some at the end.  `Shows` says that three of the room for each list (or whatever a
    layer takes at most) are enough, since what leaves take is in the margin.  It holds of a
    leaf, it is kept by each layer, and of two values printed one after the other it is the
    deeper one that counts.  From this, `shows_text` follows by induction on the value.

  * How much is needed?  A list takes just three of the room from its items, so lists that are
    nested in lists, and in nothing else, are not printed in less (`textLimit?_nest`).

  Both are stated for what stops a text, where there is no margin any more.  With the margin they
  say that a value is printed in three times the room of its height (`print_of_short`).
-/
import SmallScheme.Value.Text

namespace SmallScheme

/-! ## Measures of a value -/

mutual

/-- How deep lists are nested in the value. -/
def Value.height : Value → Nat
  | .list _ vs => Value.maxHeight vs + 1
  | .dotted _ vs v => max (Value.maxHeight vs) v.height + 1
  | _ => 0

/-- The greatest height of the values. -/
def Value.maxHeight : List Value → Nat
  | [] => 0
  | v :: vs => max v.height (Value.maxHeight vs)

end

mutual

/-- The integers in a value, as far as it shows what it is. -/
def Value.integers : Value → List Int
  | .int n => [n]
  | .list _ vs => Value.allIntegers vs
  | .dotted _ vs v => Value.allIntegers vs ++ v.integers
  | .closure _ body _ => body.integers
  | _ => []

/-- The integers in the values. -/
def Value.allIntegers : List Value → List Int
  | [] => []
  | v :: vs => v.integers ++ Value.allIntegers vs

end

/-! ## Enough room -/

/-- Nothing stops a text, unless it is the nesting, and then the room is less than `each` for every
    layer, and the margin. -/
def Shows (each : Nat) (limit? : Option Limit) (room layers : Nat) : Prop :=
  limit? = none ∨ limit? = some .nesting ∧ room < each * layers + Room.margin

namespace Shows

variable {each : Nat} {limit? other? : Option Limit} {room room' layers layers' : Nat}

/-- What is shown in some room, with so many layers, is shown so in less room and with more. -/
theorem mono (h : Shows each limit? room layers) (hroom : room' ≤ room)
    (hlayers : layers ≤ layers') : Shows each limit? room' layers' := by
  have hmul : each * layers ≤ each * layers' := Nat.mul_le_mul_left each hlayers
  exact h.imp_right fun ⟨hnesting, hlt⟩ => ⟨hnesting, by omega⟩

/-- What a leaf takes is in the margin. -/
theorem leaf {needed : Nat} (h : needed ≤ Room.margin) :
    Shows each (Limit.guarded room needed none) room layers := by
  unfold Limit.guarded
  split
  · exact .inr ⟨rfl, by omega⟩
  · exact .inl rfl

/-- One layer more takes up `each` of the room at most. -/
theorem guarded {needed used : Nat} (h : Shows each limit? (room - used) layers)
    (hneeded : needed ≤ Room.margin) (hused : used ≤ each) :
    Shows each (Limit.guarded room needed limit?) room (layers + 1) := by
  unfold Limit.guarded Shows
  rw [Nat.mul_succ]
  split
  · exact .inr ⟨rfl, by omega⟩
  · exact h.imp_right fun ⟨hnesting, hlt⟩ => ⟨hnesting, by omega⟩

/-- The first of two limits. -/
theorem first : Shows each limit? room layers → Shows each other? room layers' →
    Shows each (match limit? with
      | none => other?
      | limit => limit) room (max layers layers') := by
  rintro (rfl | ⟨rfl, hlt⟩) hother
  · exact hother.mono (Nat.le_refl _) (Nat.le_max_right _ _)
  · exact mono (.inr ⟨rfl, hlt⟩) (Nat.le_refl _) (Nat.le_max_left _ _)

/-- A number that is short enough is a leaf like any other. -/
theorem int {n : Int} {needed : Nat} (hshort : ∀ m ∈ (Value.int n).integers,
    Numeral.isTooLong m = false) (h : needed ≤ Room.margin) :
    Shows each (Limit.guarded room needed (Limit.ofInt? n)) room layers := by
  have hn : Limit.ofInt? n = none := by
    rw [Limit.ofInt?, hshort n (List.mem_singleton_self n), if_neg Bool.false_ne_true]
  rw [hn]
  exact leaf h

end Shows

/-- Writing a leaf, or beginning a list, takes no more than the margin. -/
theorem Value.textRoom_le_margin (readable : Bool) (v : Value) :
    v.textRoom readable ≤ Room.margin := by
  have hmargin : Room.margin = 16 := rfl
  have hitem : Room.item = 3 := rfl
  unfold textRoom
  split <;> (repeat' split) <;> omega

mutual

/-- A value without numbers that are too long can be printed, but for its nesting. -/
theorem Value.shows_text (readable : Bool) {room : Nat} : (v : Value) →
    (∀ n ∈ v.integers, Numeral.isTooLong n = false) →
    Shows 3 (v.textLimit? readable room) room v.height
  | .int n => by
    intro hshort
    rw [Value.textLimit?]
    exact Shows.int hshort (Value.textRoom_le_margin readable _)
  | .list _ vs => by
    intro hshort
    rw [Value.textLimit?, Value.height]
    exact (Value.shows_texts readable vs hshort).guarded (by decide) (by decide)
  | .dotted _ vs v => by
    intro hshort
    obtain ⟨hvs, hv⟩ := List.forall_mem_append.mp hshort
    -- the items take more than the tail, so the room of the items will do for both
    have hless : room - Room.item ≤ room - Room.nested := Nat.sub_le_sub_left (by decide) room
    have htail := (Value.shows_text readable v hv).mono hless (Nat.le_refl _)
    rw [Value.textLimit?, Value.height]
    exact ((Value.shows_texts readable vs hvs).first htail).guarded (by decide) (by decide)
  | .bool _ | .str _ | .symbol _ | .primitive _ | .closure _ _ _ | .unspecified | .quit => by
    intro _
    simp only [Value.textLimit?]
    exact Shows.leaf (Value.textRoom_le_margin readable _)

/-- So can values one after the other. -/
theorem Value.shows_texts (readable : Bool) {room : Nat} : (vs : List Value) →
    (∀ n ∈ Value.allIntegers vs, Numeral.isTooLong n = false) →
    Shows 3 (Value.textLimits? readable room vs) room (Value.maxHeight vs)
  | [] => fun _ => .inl rfl
  | v :: vs => by
    intro hshort
    obtain ⟨hv, hvs⟩ := List.forall_mem_append.mp hshort
    rw [Value.textLimits?, Value.maxHeight]
    exact (Value.shows_text readable v hv).first (Value.shows_texts readable vs hvs)

end

/-- With the margin there is room for any leaf, and for beginning any list. -/
theorem Limit.guarded_margin {needed : Nat} (h : needed ≤ Room.margin) (room : Nat)
    (inner : Option Limit) : Limit.guarded (room + Room.margin) needed inner = inner :=
  if_neg (Nat.not_lt.mpr (Nat.le_trans h (Nat.le_add_left _ room)))

/-- With the margin, a limit is met only where there is less than what the layers take. -/
theorem Shows.with_margin {each : Nat} {limit? : Option Limit} {room layers : Nat}
    (h : Shows each limit? (room + Room.margin) layers) :
    limit? = none ∨ limit? = some .nesting ∧ room < each * layers :=
  h.imp_right fun ⟨hnesting, hlt⟩ => ⟨hnesting, Nat.lt_of_add_lt_add_right hlt⟩

/-- A value is printed just if nothing stops its text. -/
theorem Value.print_eq_ok_iff {readable : Bool} {v : Value} {room : Nat} {text : String} :
    v.print room readable = .ok text ↔
      v.textLimit? readable (room + Room.margin) = none ∧ text = v.text readable := by
  unfold Value.print
  cases v.textLimit? readable (room + Room.margin) with
  | none => exact ⟨fun h => ⟨rfl, (Except.ok.inj h).symm⟩, fun h => congrArg _ h.2.symm⟩
  | some limit => exact ⟨fun h => (nomatch h), fun h => (nomatch h.1)⟩

/-- A value without numbers that are too long is printed, or there is less than three times the
    room of its height. -/
theorem Value.print_of_short {readable : Bool} {v : Value} (room : Nat)
    (hshort : ∀ n ∈ v.integers, Numeral.isTooLong n = false) :
    v.print room readable = .ok (v.text readable) ∨
      v.print room readable = .error .nesting ∧ room < 3 * v.height := by
  rcases (Value.shows_text readable v hshort).with_margin with hnone | ⟨hnesting, hlt⟩
  · exact .inl (Value.print_eq_ok_iff.mpr ⟨hnone, rfl⟩)
  · refine .inr ⟨?_, hlt⟩
    rw [Value.print, hnesting]

/-! ## Too little room -/

/-- Lists nested one in the other, each the only item. -/
def Value.nest : Nat → Value
  | 0 => .ofItems []
  | depth + 1 => .ofItems [Value.nest depth]

/-- Each list takes three of the room from what is in it, so there has to be three times the
    depth and something more. -/
theorem Value.textLimit?_nest {readable : Bool} {depth room : Nat} (hroom : room ≤ 3 * depth) :
    (Value.nest depth).textLimit? readable room = some .nesting := by
  have hitem : Room.item = 3 := rfl
  induction depth generalizing room with
  | zero =>
    obtain rfl := Nat.le_zero.mp hroom
    rfl
  | succ depth ih =>
    rw [Value.nest, Value.ofItems, Value.textLimit?, Limit.guarded]
    split
    · rfl
    · rw [Value.textLimits?, ih (by omega)]

/-- So a nest of lists is not printed where the margin does not make up for what is missing. -/
theorem Value.print_nest {readable : Bool} {depth room : Nat}
    (hroom : room + Room.margin ≤ 3 * depth) :
    (Value.nest depth).print room readable = .error .nesting := by
  rw [Value.print, Value.textLimit?_nest hroom]

/-- There is no number in it. -/
theorem Value.integers_nest (depth : Nat) : (Value.nest depth).integers = [] := by
  induction depth with
  | zero => rfl
  | succ depth ih => rw [Value.nest, Value.ofItems, Value.integers, Value.allIntegers, ih]; rfl

end SmallScheme
