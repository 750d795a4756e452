/-
  EQUALITY of values: the same tree of constructors and leaves.

  Booleans never equal numbers, and a proper list never equals a dotted one.  Closures are equal
  when their parameters, bodies and frames are, position by position; environments of different
  depth are told apart before any frame is looked at.  Where a list or a frame comes from does not
  matter.

  `same` is this relation.  `equal?` decides it in limited room: it goes from left to right and
  stops at the first difference, and it gives no answer when it would have to go deeper than it
  may.  Comparing leaves takes room as well (`equalRoom`); what compares values has the margin for
  it besides the room.  It does not look into what is compared with itself, that is, with a list or
  a frame of the same known origin and the same contents.  Contents that are one object in memory
  are the same without being looked at, so such a step takes no time.
-/
import SmallScheme.Room
import SmallScheme.Value

namespace SmallScheme

/-! ## The relation -/

mutual

/-- Are the values the same tree of constructors and leaves? -/
def Value.same : Value → Value → Bool
  | .bool a, .bool b => a == b
  | .int m, .int n => m == n
  | .str s, .str t => s == t
  | .symbol s, .symbol t => s == t
  | .primitive s, .primitive t => s == t
  | .unspecified, .unspecified => true
  | .quit, .quit => true
  | .list _ vs, .list _ ws => Value.allSame vs ws
  | .dotted _ vs v, .dotted _ ws w => Value.allSame vs ws && v.same w
  | .closure xs v env, .closure ys w env' => xs == ys && v.same w && env.same env'
  | _, _ => false

/-- Are the values the same, one by one? -/
def Value.allSame : List Value → List Value → Bool
  | [], [] => true
  | v :: vs, w :: ws => v.same w && Value.allSame vs ws
  | _, _ => false

/-- Do the environments hold the same, frame by frame? -/
def Env.same : Env → Env → Bool
  | .empty, .empty => true
  | .frame _ xs vs outer, .frame _ ys ws outer' =>
    xs == ys && Value.allSame vs ws && outer.same outer'
  | _, _ => false

end

mutual

/-- Every value is the same as itself. -/
theorem Value.same_self : (v : Value) → v.same v = true
  | .bool _ | .int _ | .str _ | .symbol _ | .primitive _ => by simp [Value.same]
  | .unspecified | .quit => rfl
  | .list _ vs => by simp [Value.same, Value.allSame_self vs]
  | .dotted _ vs v => by simp [Value.same, Value.allSame_self vs, Value.same_self v]
  | .closure _ v env => by simp [Value.same, Value.same_self v, Env.same_self env]

/-- All values are the same as themselves. -/
theorem Value.allSame_self : (vs : List Value) → Value.allSame vs vs = true
  | [] => rfl
  | v :: vs => by simp [Value.allSame, Value.same_self v, Value.allSame_self vs]

/-- Every environment holds the same as itself. -/
theorem Env.same_self : (env : Env) → env.same env = true
  | .empty => rfl
  | .frame _ _ vs outer => by simp [Env.same, Value.allSame_self vs, Env.same_self outer]

end

/-! ## One object -/

/-- `Value.same`, which takes no time where both are one object in memory. -/
def Value.sameAtOnce (v w : Value) : Bool :=
  withPtrEq v w (fun _ => v.same w) fun h => h ▸ v.same_self

/-- `Value.allSame`, which takes no time where both are one object in memory. -/
def Value.allSameAtOnce (vs ws : List Value) : Bool :=
  withPtrEq vs ws (fun _ => Value.allSame vs ws) fun h => h ▸ Value.allSame_self vs

/-- `Env.same`, which takes no time where both are one object in memory. -/
def Env.sameAtOnce (env env' : Env) : Bool :=
  withPtrEq env env' (fun _ => env.same env') fun h => h ▸ env.same_self

/-! ## The decision -/

/-- The room that comparing a value with one of its kind takes, without what is in it.  Of a closure
    it is the names that take the most. -/
def Value.equalRoom : Value → Nat
  | .bool _ | .int _ | .str _ | .unspecified | .quit => Room.kinds
  | .symbol _ | .primitive _ => 4
  | .list _ _ | .dotted _ _ _ => Room.item
  | .closure _ _ _ => 6

/-- The verdict, if there is room for what it takes. -/
def guardedVerdict (room needed : Nat) (verdict : Option Bool) : Option Bool :=
  if room < needed then none else verdict

mutual

/-- Are the values equal?  No answer, if that takes more room; there is no margin. -/
def Value.equal? (room : Nat) : Value → Value → Option Bool
  | .bool a, .bool b => guardedVerdict room (Value.bool a).equalRoom (some (a == b))
  | .int m, .int n => guardedVerdict room (Value.int m).equalRoom (some (m == n))
  | .str s, .str t => guardedVerdict room (Value.str s).equalRoom (some (s == t))
  | .symbol s, .symbol t => guardedVerdict room (Value.symbol s).equalRoom (some (s == t))
  | .primitive s, .primitive t => guardedVerdict room (Value.primitive s).equalRoom (some (s == t))
  | .unspecified, .unspecified => guardedVerdict room Value.unspecified.equalRoom (some true)
  | .quit, .quit => guardedVerdict room Value.quit.equalRoom (some true)
  | .list origin vs, .list origin' ws =>
    guardedVerdict room Room.item <|
      if origin.isOne origin' && Value.allSameAtOnce vs ws then some true
      else if vs.length = ws.length then Value.allEqual? (room - Room.item) vs ws
      else some false
  | .dotted origin vs v, .dotted origin' ws w =>
    guardedVerdict room Room.item <|
      if origin.isOne origin' && Value.allSameAtOnce vs ws && v.sameAtOnce w then some true
      else if vs.length = ws.length then
        match Value.allEqual? (room - Room.dottedItem) vs ws with
        | some true => v.equal? (room - Room.nested) w
        | verdict => verdict
      else some false
  | .closure xs v env, .closure ys w env' =>
    guardedVerdict room (Value.closure xs v env).equalRoom <|
      if xs = ys then
        match v.equal? (room - Room.nested) w with
        | some true => if env.depth = env'.depth then env.equal? room env' else some false
        | verdict => verdict
      else some false
  | _, _ => guardedVerdict room Room.kinds (some false)

/-- Are the values equal, one by one? -/
def Value.allEqual? (room : Nat) : List Value → List Value → Option Bool
  | [], [] => some true
  | v :: vs, w :: ws =>
    match v.equal? room w with
    | some true => Value.allEqual? room vs ws
    | verdict => verdict
  | _, _ => some false

/-- Are the environments equal, frame by frame? -/
def Env.equal? (room : Nat) : Env → Env → Option Bool
  | .empty, .empty => some true
  | .frame origin xs vs outer, .frame origin' ys ws outer' =>
    if origin.isOne origin' && xs == ys && Value.allSameAtOnce vs ws && outer.sameAtOnce outer' then
      some true
    else if xs = ys then
      match Value.allEqual? (room - Room.bound) vs ws with
      | some true => outer.equal? room outer'
      | verdict => verdict
    else some false
  | _, _ => some false

end

end SmallScheme
