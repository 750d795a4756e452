/-
  LIMITS only stop a run; they never change what it does.

  Room and steps are limits of the machine and no part of a program's meaning.  So a run that is
  given more of them does the same, unless it was stopped for want of them before.  `Run.Within x y`
  says this of two runs; `Run.Roomy` says it of a run in some room and the same run in more.

  It holds wherever room is looked at: where a message is written, where values are compared and
  printed, where a text is read, and where a module is loaded.

  1. **The order on runs**: `Within` is reflexive and transitive, and holds of runs one after the
     other if it holds of each.
  2. **Answers and room.**  Printing and comparing are no runs, but they answer with a limit where
     room gives out.  `SameUnless stop a a'` is what `Within` comes to for such answers.
  3. **Writing and comparing values**: by induction on the value, with one case for each
     constructor, in step with the definitions.
  4. **Errors and primitives**: a limit that a message or a primitive meets is not met in more
     room, and any other outcome stays.

  What follows for the evaluator is in `SmallScheme.Proofs.Loading`.
-/
import SmallScheme.Loader
import SmallScheme.Primitive

namespace SmallScheme

/-! ## The order on runs -/

/-- Is the fault that of a limit? -/
def Fault.isLimit : Fault → Bool
  | .tooDeep | .tooLong => true
  | _ => false

namespace Run

variable {α β : Type}

/-- The run has come to an end of its own, be it a value or a fault. -/
def Settled : EStateM.Result Fault State α → Prop
  | .ok _ _ => True
  | .error fault _ => fault.isLimit = false

/-- Unless a limit stops `x`, it does what `y` does. -/
def Within (x y : Run α) : Prop := ∀ s, Settled (x s) → y s = x s

/-- What a run with a continuation comes to. -/
theorem bind_apply (x : Run α) (k : α → Run β) (s : State) :
    (x >>= k) s = match x s with
      | .ok a t => k a t
      | .error fault t => .error fault t := by
  show EStateM.bind x k s = _
  unfold EStateM.bind
  cases x s <;> rfl

/-- A run does what it does. -/
theorem Within.refl (x : Run α) : Within x x := fun _ _ => rfl

/-- A limit that does not stop the first run does not stop the second one either. -/
theorem Within.trans {x y z : Run α} (hxy : Within x y) (hyz : Within y z) : Within x z := by
  intro s hs
  have hy : y s = x s := hxy s hs
  have hz : z s = y s := hyz s (by rw [hy]; exact hs)
  rw [hz, hy]

/-- What a limit stops at once is within anything. -/
theorem Within.of_limit {fault : Fault} (h : fault.isLimit = true) (y : Run α) :
    Within (throw fault) y := by
  intro s hs
  have hf : fault.isLimit = false := hs
  rw [h] at hf
  cases hf

/-- If the first part is not stopped, the second one begins in the same state. -/
theorem Within.bind {x x' : Run α} {k k' : α → Run β} (hx : Within x x')
    (hk : ∀ a, Within (k a) (k' a)) : Within (x >>= k) (x' >>= k') := by
  intro s hs
  rw [bind_apply] at hs ⊢
  rw [bind_apply]
  cases h : x s with
  | ok a t =>
    rw [h] at hs
    rw [hx s (by rw [h]; trivial), h]
    exact hk a t hs
  | error fault t =>
    rw [h] at hs
    rw [hx s (by rw [h]; exact hs), h]

/-- More room does not change what the run does. -/
def Roomy (act : Nat → Run α) : Prop :=
  ∀ room room', room ≤ room' → Within (act room) (act room')

/-- A run that does not look at the room. -/
theorem Roomy.const (x : Run α) : Roomy fun _ => x := fun _ _ _ => Within.refl x

/-- One such run after the other, both in the same room. -/
theorem Roomy.bind {act : Nat → Run α} {k : Nat → α → Run β} (hact : Roomy act)
    (hk : ∀ a, Roomy fun room => k room a) : Roomy fun room => act room >>= k room :=
  fun room room' h => (hact room room' h).bind fun a => hk a room room' h

/-- Less room by the same amount is still less room. -/
theorem Roomy.less {act : Nat → Run α} (hact : Roomy act) (used : Nat) :
    Roomy fun room => act (room - used) :=
  fun _ _ h => hact _ _ (Nat.sub_le_sub_right h used)

end Run

/-! ## Answers and room -/

/-- The second answer is the first, unless that was to stop for want of room. -/
def SameUnless {α : Type} (stop a a' : α) : Prop := a ≠ stop → a' = a

namespace SameUnless

variable {α : Type} {stop a a' b b' : α}

/-- An answer that does not depend on the room. -/
theorem refl (a : α) : SameUnless stop a a := fun _ => rfl

/-- Where less room is left than is needed there is no answer. -/
theorem guarded {needed room room' : Nat} (h : room ≤ room') (ha : SameUnless stop a a') :
    SameUnless stop (if room < needed then stop else a) (if room' < needed then stop else a') := by
  intro hne
  split at hne
  · exact absurd rfl hne
  · next henough =>
    have henough' : ¬ room' < needed := by omega
    rw [if_neg henough, if_neg henough']
    exact ha hne

/-- A choice that has nothing to do with room. -/
theorem ite {c : Prop} [Decidable c] (ha : SameUnless stop a a') (hb : SameUnless stop b b') :
    SameUnless stop (if c then a else b) (if c then a' else b') := by
  by_cases hc : c
  · rw [if_pos hc, if_pos hc]
    exact ha
  · rw [if_neg hc, if_neg hc]
    exact hb

/-- The first of two limits. -/
theorem first {a a' b b' : Option Limit} :
    SameUnless (some .nesting) a a' → SameUnless (some .nesting) b b' →
    SameUnless (some Limit.nesting)
      (match a with
        | none => b
        | limit => limit)
      (match a' with
        | none => b'
        | limit => limit) := by
  intro ha hb hne
  cases a with
  | none =>
    obtain rfl : a' = none := ha nofun
    exact hb hne
  | some limit =>
    obtain rfl : a' = some limit := ha hne
    rfl

/-- A comparison that goes on as long as things are equal. -/
theorem next {a a' b b' : Option Bool} :
    SameUnless none a a' → SameUnless none b b' →
    SameUnless none
      (match a with
        | some true => b
        | verdict => verdict)
      (match a' with
        | some true => b'
        | verdict => verdict) := by
  intro ha hb hne
  cases a with
  | none => exact absurd rfl hne
  | some verdict =>
    obtain rfl : a' = some verdict := ha nofun
    cases verdict with
    | true => exact hb hne
    | false => rfl

end SameUnless

/-! ## Writing and comparing values -/

mutual

/-- A value that could be printed, or had a number too long, has the same limit in more room. -/
theorem Value.textLimit?_mono (readable : Bool) {room room' : Nat} (h : room ≤ room') :
    (v : Value) →
      SameUnless (some .nesting) (v.textLimit? readable room) (v.textLimit? readable room')
  | .list _ vs => by
    rw [Value.textLimit?, Value.textLimit?]
    exact .guarded h (Value.textLimits?_mono readable (Nat.sub_le_sub_right h _) vs)
  | .dotted _ vs v => by
    have hvs := Value.textLimits?_mono readable (Nat.sub_le_sub_right h Room.item) vs
    have hv := Value.textLimit?_mono readable (Nat.sub_le_sub_right h Room.nested) v
    rw [Value.textLimit?, Value.textLimit?]
    exact .guarded h (.first hvs hv)
  | .bool _ | .int _ | .str _ | .symbol _ | .primitive _ | .closure _ _ _ | .unspecified
  | .quit => by
    simp only [Value.textLimit?]
    exact .guarded h (.refl _)

/-- The same of values one after the other. -/
theorem Value.textLimits?_mono (readable : Bool) {room room' : Nat} (h : room ≤ room') :
    (vs : List Value) →
      SameUnless (some .nesting) (Value.textLimits? readable room vs)
        (Value.textLimits? readable room' vs)
  | [] => .refl _
  | v :: vs => by
    rw [Value.textLimits?, Value.textLimits?]
    exact .first (Value.textLimit?_mono readable h v) (Value.textLimits?_mono readable h vs)

end

mutual

/-- The same of a value that is shown in detail. -/
theorem Value.detailLimit?_mono {room room' : Nat} (h : room ≤ room') : (v : Value) →
    SameUnless (some .nesting) (v.detailLimit? room) (v.detailLimit? room')
  | .list _ vs => by
    rw [Value.detailLimit?, Value.detailLimit?]
    exact .guarded h (Value.detailLimits?_mono (Nat.sub_le_sub_right h _) vs)
  | .dotted _ vs v => by
    have hvs := Value.detailLimits?_mono (Nat.sub_le_sub_right h Room.detail) vs
    have hv := Value.detailLimit?_mono (Nat.sub_le_sub_right h Room.nested) v
    rw [Value.detailLimit?, Value.detailLimit?]
    exact .guarded h (.first hvs hv)
  | .closure _ body _ => by
    rw [Value.detailLimit?, Value.detailLimit?]
    exact .guarded h (Value.detailLimit?_mono (Nat.sub_le_sub_right h _) body)
  | .bool _ | .int _ | .str _ | .symbol _ | .primitive _ | .unspecified | .quit => by
    simp only [Value.detailLimit?]
    exact .guarded h (.refl _)

/-- The same of values one after the other. -/
theorem Value.detailLimits?_mono {room room' : Nat} (h : room ≤ room') : (vs : List Value) →
    SameUnless (some .nesting) (Value.detailLimits? room vs) (Value.detailLimits? room' vs)
  | [] => .refl _
  | v :: vs => by
    rw [Value.detailLimits?, Value.detailLimits?]
    exact .first (Value.detailLimit?_mono h v) (Value.detailLimits?_mono h vs)

end

mutual

/-- A comparison that came to an answer comes to the same in more room. -/
theorem Value.equal?_mono {room room' : Nat} (h : room ≤ room') : (v w : Value) →
    SameUnless none (v.equal? room w) (v.equal? room' w)
  | .list _ vs, w => by
    cases w with
    | list _ ws =>
      have hvs := Value.allEqual?_mono (Nat.sub_le_sub_right h Room.item) vs ws
      rw [Value.equal?, Value.equal?]
      -- one and the same list, lists of the same length, and others
      exact .guarded h (.ite (.refl _) (.ite hvs (.refl _)))
    | _ =>
      simp only [Value.equal?]
      exact .guarded h (.refl _)
  | .dotted _ vs v, w => by
    cases w with
    | dotted _ ws w =>
      have hvs := Value.allEqual?_mono (Nat.sub_le_sub_right h Room.dottedItem) vs ws
      have hv := Value.equal?_mono (Nat.sub_le_sub_right h Room.nested) v w
      rw [Value.equal?, Value.equal?]
      exact .guarded h (.ite (.refl _) (.ite (.next hvs hv) (.refl _)))
    | _ =>
      simp only [Value.equal?]
      exact .guarded h (.refl _)
  | .closure xs v env, w => by
    cases w with
    | closure ys w env' =>
      have hbody := Value.equal?_mono (Nat.sub_le_sub_right h Room.nested) v w
      have henv := Env.equal?_mono h env env'
      rw [Value.equal?, Value.equal?]
      exact .guarded h (.ite (.next hbody (.ite henv (.refl _))) (.refl _))
    | _ =>
      simp only [Value.equal?]
      exact .guarded h (.refl _)
  | .bool _, w | .int _, w | .str _, w | .symbol _, w | .primitive _, w
  | .unspecified, w | .quit, w => by
    cases w <;> simp only [Value.equal?] <;> exact .guarded h (.refl _)

/-- The same of lists of values. -/
theorem Value.allEqual?_mono {room room' : Nat} (h : room ≤ room') : (vs ws : List Value) →
    SameUnless none (Value.allEqual? room vs ws) (Value.allEqual? room' vs ws)
  | [], [] => .refl _
  | v :: vs, w :: ws => by
    rw [Value.allEqual?, Value.allEqual?]
    exact .next (Value.equal?_mono h v w) (Value.allEqual?_mono h vs ws)
  | [], _ :: _ => .refl _
  | _ :: _, [] => .refl _

/-- The same of environments. -/
theorem Env.equal?_mono {room room' : Nat} (h : room ≤ room') : (env env' : Env) →
    SameUnless none (env.equal? room env') (env.equal? room' env')
  | .empty, .empty => .refl _
  | .frame _ xs vs outer, .frame _ ys ws outer' => by
    have hvs := Value.allEqual?_mono (Nat.sub_le_sub_right h Room.bound) vs ws
    have houter := Env.equal?_mono h outer outer'
    rw [Env.equal?, Env.equal?]
    exact .ite (.refl _) (.ite (.next hvs houter) (.refl _))
  | .empty, .frame _ _ _ _ => .refl _
  | .frame _ _ _ _, .empty => .refl _

end

/-! ## Errors and primitives -/

/-- What stops a message is the same in more room, unless it is the nesting. -/
theorem Error.limit?_mono {room room' : Nat} (h : room ≤ room') (e : Error) :
    SameUnless (some .nesting) (e.limit? room) (e.limit? room') := by
  have hmargin := Nat.add_le_add_right h Room.margin
  cases e with
  | notExpression v | dottedCall v | badParameters v | badClause v | notName v
  | notModuleName v => exact Value.detailLimit?_mono hmargin v
  | notFunction v | notPair _ v | notNumber _ v => exact Value.textLimit?_mono true hmargin v
  | _ => exact .refl _

namespace Run

variable {α : Type}

/-- An error is raised in more room as in less; where its message meets the nesting it is a limit
    that is raised. -/
theorem raise_roomy (e : Error) : Roomy fun room => (raise room e : Run α) := by
  intro room room' h s hs
  -- if the nesting is what stops the message, the run has not settled
  have he : e.limit? room ≠ some .nesting := by
    intro hc
    have hfault : (raise room e : Run α) s = .error .tooDeep s := by
      rw [raise, hc]
      rfl
    have hs' : Settled ((raise room e : Run α) s) := hs
    rw [hfault] at hs'
    cases hs'
  show (raise room' e : Run α) s = raise room e s
  rw [raise, raise, Error.limit?_mono h e he]

/-- Printing, likewise. -/
theorem printed_roomy (readable : Bool) (v : Value) :
    Roomy fun room => printed (v.print room readable) := by
  intro room room' h s hs
  have hv : v.textLimit? readable (room + Room.margin) ≠ some .nesting := by
    intro hc
    have hfault : printed (v.print room readable) s = .error .tooDeep s := by
      rw [Value.print, hc]
      rfl
    have hs' : Settled (printed (v.print room readable) s) := hs
    rw [hfault] at hs'
    cases hs'
  show printed (v.print room' readable) s = printed (v.print room readable) s
  rw [Value.print, Value.print,
    Value.textLimit?_mono readable (Nat.add_le_add_right h Room.margin) v hv]

end Run

namespace Primitive

open Run (Roomy Within)

/-- What ends a primitive ends it in more room, too. -/
theorem settle_roomy (result : Except Fault Value) : Roomy fun room => settle room result := by
  intro room room' h
  match result with
  | .ok v => exact Within.refl _
  | .error (.error e) => exact Run.raise_roomy e room room' h
  | .error .digitsPrinted | .error (.digitsRead _) | .error .tooDeep | .error .tooLong
  | .error .noItem | .error .unequalFrame | .error (.namelessPath _) | .error (.unreadable _ _)
  | .error .nullInPath | .error (.undecodable _) | .error (.unencodable _)
  | .error (.notInteger _) | .error (.unknownLevel _) | .error .hugeLimit | .error .noLibraryPath
  | .error .noLogLevel => exact Within.refl _

/-- The complaint about a wrong number of arguments. -/
theorem wrongCount_roomy (p : Primitive) (expected : Nat) (args : List Value) :
    Roomy fun room => wrongCount p room expected args :=
  Run.raise_roomy _

/-- A primitive of one argument, whose outcome does not depend on the room. -/
theorem unary_roomy (p : Primitive) (args : List Value) (result : Value → Except Fault Value) :
    Roomy fun room => unary p room args result := by
  intro room room' h
  match args with
  | [v] => exact settle_roomy (result v) room room' h
  | [] | _ :: _ :: _ => exact wrongCount_roomy p 1 _ room room' h

/-- A primitive of two arguments. -/
theorem binary_roomy (p : Primitive) (args : List Value)
    (result : Value → Value → Except Fault Value) :
    Roomy fun room => binary p room args result := by
  intro room room' h
  match args with
  | [v, w] => exact settle_roomy (result v w) room room' h
  | [] | [_] | _ :: _ :: _ :: _ => exact wrongCount_roomy p 2 _ room room' h

/-- Comparing does depend on it: without enough room there is no verdict. -/
theorem equality_roomy (args : List Value) :
    Roomy fun room => binary .isEqual room args (equality room) := by
  intro room room' h
  match args with
  | [v, w] =>
    have hmono := Value.equal?_mono (Nat.add_le_add_right h Room.margin) v w
    show Within (settle room (equality room v w)) (settle room' (equality room' v w))
    cases hv : v.equal? (room + Room.margin) w with
    -- stopped for want of room
    | none =>
      rw [equality, hv]
      exact Within.of_limit rfl _
    | some verdict =>
      rw [equality, equality, hmono (by rw [hv]; exact nofun), hv]
      exact Within.refl _
  | [] | [_] | _ :: _ :: _ :: _ => exact wrongCount_roomy _ 2 _ room room' h

/-- The raw text of values, one after the other. -/
theorem rawText_roomy : (vs : List Value) → Roomy fun room => rawText room vs
  | [] => Roomy.const _
  | v :: vs =>
    (Run.printed_roomy false v).bind fun _ => (rawText_roomy vs).bind fun _ => Roomy.const _

/-- All primitives. -/
theorem apply_roomy (p : Primitive) (args : List Value) : Roomy fun room => p.apply room args := by
  cases p with
  | cons => exact (Roomy.const _).bind fun _ => binary_roomy _ args _
  | cdr => exact (Roomy.const _).bind fun _ => unary_roomy _ args _
  | car | isNull | isAtom | isZero | add1 | sub1 | isNumber => exact unary_roomy _ args _
  | isEqual => exact equality_roomy args
  | greater | less => exact binary_roomy _ args _
  | add | multiply => exact settle_roomy _
  | subtract =>
    match args with
    | [] => exact Run.raise_roomy (.noArguments subtract.name)
    | _ :: _ => exact settle_roomy _
  | display => exact (rawText_roomy args).bind fun _ => Roomy.const _

/-- Whether there is a primitive of that name does not depend on the room. -/
theorem call_roomy (name : String) (args : List Value) :
    Roomy fun room => call name room args := by
  intro room room' h
  show Within (call name room args) (call name room' args)
  rw [call, call]
  cases ofName? name with
  | some p => exact apply_roomy p args room room' h
  | none => exact Run.raise_roomy _ room room' h

end Primitive

end SmallScheme
