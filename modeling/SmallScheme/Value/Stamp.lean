/-
  STAMPS: what comes from outside gets origins of its own.

  The reader, and a host that hands over values, make lists and frames of unknown origin.  Before
  a system works on them it stamps them: each list and each frame gets the next serial number that
  is free, the whole before its parts and the parts from left to right.  Nothing else changes.
-/
import SmallScheme.Value.Equal

namespace SmallScheme

mutual

/-- The value with stamps from `next` on, and the number that is then free. -/
def Value.stamp (next : Nat) : Value → Value × Nat
  | .list _ vs =>
    let (vs, free) := Value.stampAll (next + 1) vs
    (.list (.made next) vs, free)
  | .dotted _ vs v =>
    let (vs, free) := Value.stampAll (next + 1) vs
    let (v, free) := v.stamp free
    (.dotted (.made next) vs v, free)
  | .closure formals body env =>
    let (body, free) := body.stamp next
    let (env, free) := env.stamp free
    (.closure formals body env, free)
  | v => (v, next)

/-- The values with stamps from `next` on, and the number that is then free. -/
def Value.stampAll (next : Nat) : List Value → List Value × Nat
  | [] => ([], next)
  | v :: vs =>
    let (v, free) := v.stamp next
    let (vs, free) := Value.stampAll free vs
    (v :: vs, free)

/-- The environment with stamps from `next` on, and the number that is then free. -/
def Env.stamp (next : Nat) : Env → Env × Nat
  | .empty => (.empty, next)
  | .frame _ names values outer =>
    let (values, free) := Value.stampAll (next + 1) values
    let (outer, free) := outer.stamp free
    (.frame (.made next) names values outer, free)

end

mutual

/-- A stamped value is the same. -/
theorem Value.same_stamp (next : Nat) : (v : Value) → v.same (v.stamp next).1 = true
  | .bool _ | .int _ | .str _ | .symbol _ | .primitive _ => by simp [Value.stamp, Value.same]
  | .unspecified | .quit => rfl
  | .list _ vs => by simp [Value.stamp, Value.same, Value.allSame_stampAll (next + 1) vs]
  | .dotted _ vs v => by
    simp [Value.stamp, Value.same, Value.allSame_stampAll (next + 1) vs, Value.same_stamp _ v]
  | .closure _ v env => by
    simp [Value.stamp, Value.same, Value.same_stamp next v, Env.same_stamp _ env]

/-- Stamped values are the same. -/
theorem Value.allSame_stampAll (next : Nat) : (vs : List Value) →
    Value.allSame vs (Value.stampAll next vs).1 = true
  | [] => rfl
  | v :: vs => by
    simp [Value.stampAll, Value.allSame, Value.same_stamp next v, Value.allSame_stampAll _ vs]

/-- A stamped environment holds the same. -/
theorem Env.same_stamp (next : Nat) : (env : Env) → env.same (env.stamp next).1 = true
  | .empty => rfl
  | .frame _ _ vs outer => by
    simp [Env.stamp, Env.same, Value.allSame_stampAll (next + 1) vs, Env.same_stamp _ outer]

end

end SmallScheme
