/-
  EQUALITY in enough room.

  Comparing values in limited room decides the relation `Value.same`: where it comes to an answer,
  that is whether the values are the same, and with enough room it comes to one.  The origins of
  lists and frames only make it quicker, for what is one object is the same.

  Structure:
    1. What differs at once: values of different kinds, lists of different lengths.  `Answers` says
       that a comparison comes to a verdict from some room on, and it goes through the ways in
       which comparisons are put together.
    2. The comparison, by induction on the first value, with the parts of closures and the frames
       of environments along with it.
-/
import SmallScheme.Proofs.Limit
import SmallScheme.Value.Equal

namespace SmallScheme

/-! ## What differs at once -/

/-- Values that are the same, one by one, are as many. -/
theorem Value.length_eq_of_allSame : (vs ws : List Value) → Value.allSame vs ws = true →
    vs.length = ws.length
  | [], [], _ => rfl
  | v :: vs, w :: ws, h => by
    rw [Value.allSame, Bool.and_eq_true] at h
    simp [Value.length_eq_of_allSame vs ws h.2]

/-- Environments that hold the same are equally deep. -/
theorem Env.depth_eq_of_same : (env env' : Env) → env.same env' = true → env.depth = env'.depth
  | .empty, .empty, _ => rfl
  | .frame _ _ _ outer, .frame _ _ _ outer', h => by
    rw [Env.same, Bool.and_eq_true] at h
    simp [Env.depth, Env.depth_eq_of_same outer outer' h.2]

/-- The answer is the given one, where there is enough room. -/
def Answers (answer : Nat → Option Bool) (verdict : Bool) : Prop :=
  ∃ enough, ∀ room, enough ≤ room → answer room = some verdict

namespace Answers

variable {answer answer' : Nat → Option Bool} {verdict verdict' : Bool}

/-- An answer that takes no room is there in any. -/
theorem at_once (verdict : Bool) : Answers (fun _ => some verdict) verdict := ⟨0, fun _ _ => rfl⟩

/-- What answers in some room answers where there is that much more. -/
theorem less (h : Answers answer verdict) (used : Nat) :
    Answers (fun room => answer (room - used)) verdict := by
  obtain ⟨enough, henough⟩ := h
  exact ⟨enough + used, fun room hroom => henough _ (by omega)⟩

/-- In less room than the comparison takes there is no answer, but this does not count. -/
theorem guarded (needed : Nat) (h : Answers answer verdict) :
    Answers (fun room => guardedVerdict room needed (answer room)) verdict := by
  obtain ⟨enough, henough⟩ := h
  refine ⟨max enough needed, fun room hroom => ?_⟩
  have hneeded : ¬ room < needed := by omega
  simp only [guardedVerdict, hneeded, if_false]
  exact henough room (by omega)

/-- The second comparison is made only if the first one finds no difference. -/
theorem next (h : Answers answer verdict) (h' : Answers answer' verdict') :
    Answers (fun room =>
      match answer room with
      | some true => answer' room
      | verdict => verdict) (verdict && verdict') := by
  obtain ⟨enough, henough⟩ := h
  obtain ⟨enough', henough'⟩ := h'
  refine ⟨max enough enough', fun room hroom => ?_⟩
  simp only [henough room (by omega)]
  cases verdict with
  | true => exact henough' room (by omega)
  | false => rfl

/-- What is known to be the same is not looked at. -/
theorem unless_known {c : Bool} (hc : c = true → verdict = true) (h : Answers answer verdict) :
    Answers (fun room => if c then some true else answer room) verdict := by
  cases c with
  | true =>
    rw [hc rfl]
    exact at_once true
  | false => exact h

/-- What differs at once is not looked at any further. -/
theorem if_alike {c : Prop} [Decidable c] (hc : verdict = true → c) (h : Answers answer verdict) :
    Answers (fun room => if c then answer room else some false) verdict := by
  by_cases h' : c
  · simp only [h', if_true]
    exact h
  · have hverdict : verdict = false := by
      cases verdict with
      | true => exact absurd (hc rfl) h'
      | false => rfl
    simp only [h', if_false, hverdict]
    exact at_once false

end Answers

/-! ## The comparison -/

mutual

/-- With enough room, the comparison of values tells whether they are the same. -/
theorem Value.answers_equal? : (v w : Value) →
    Answers (fun room => v.equal? room w) (v.same w)
  | .list origin vs, w => by
    cases w with
    | list origin' ws =>
      simp only [Value.equal?, Value.same]
      refine .guarded Room.item (.unless_known (fun h => ?_) (.if_alike ?_ ?_))
      · exact (Bool.and_eq_true_iff.mp h).2
      · exact Value.length_eq_of_allSame vs ws
      · exact (Value.answers_allEqual? vs ws).less Room.item
    | _ => exact .guarded Room.kinds (.at_once false)
  | .dotted origin vs v, w => by
    cases w with
    | dotted origin' ws w =>
      simp only [Value.equal?, Value.same]
      refine .guarded Room.item
        (.unless_known (fun h => ?_) (.if_alike (fun h => ?_) (.next ?_ ?_)))
      · rw [Bool.and_eq_true, Bool.and_eq_true] at h
        rw [Bool.and_eq_true]
        exact ⟨h.1.2, h.2⟩
      · exact Value.length_eq_of_allSame vs ws (Bool.and_eq_true_iff.mp h).1
      · exact (Value.answers_allEqual? vs ws).less Room.dottedItem
      · exact (Value.answers_equal? v w).less Room.nested
    | _ => exact .guarded Room.kinds (.at_once false)
  | .closure xs v env, w => by
    cases w with
    | closure ys w env' =>
      have hframes : Answers
          (fun room => if env.depth = env'.depth then env.equal? room env' else some false)
          (env.same env') :=
        .if_alike (Env.depth_eq_of_same env env') (Env.answers_equal? env env')
      have hparts := ((Value.answers_equal? v w).less Room.nested).next hframes
      simp only [Value.equal?, Value.same]
      by_cases hnames : xs = ys
      · simp only [hnames, if_true, beq_self_eq_true, Bool.true_and]
        exact .guarded _ hparts
      · simp only [hnames, if_false, beq_eq_false_iff_ne.mpr hnames, Bool.false_and]
        exact .guarded _ (.at_once false)
    | _ => exact .guarded Room.kinds (.at_once false)
  | .bool _, w | .int _, w | .str _, w | .symbol _, w | .primitive _, w
  | .unspecified, w | .quit, w => by
    cases w <;> exact .guarded _ (.at_once _)

/-- With enough room, the comparison of lists tells whether their items are the same. -/
theorem Value.answers_allEqual? : (vs ws : List Value) →
    Answers (fun room => Value.allEqual? room vs ws) (Value.allSame vs ws)
  | [], [] => .at_once true
  | v :: vs, w :: ws => by
    simp only [Value.allEqual?, Value.allSame]
    exact (Value.answers_equal? v w).next (Value.answers_allEqual? vs ws)
  | [], _ :: _ => .at_once false
  | _ :: _, [] => .at_once false

/-- With enough room, the comparison of environments tells whether they hold the same. -/
theorem Env.answers_equal? : (env env' : Env) →
    Answers (fun room => env.equal? room env') (env.same env')
  | .empty, .empty => .at_once true
  | .frame origin xs vs outer, .frame origin' ys ws outer' => by
    have hparts := ((Value.answers_allEqual? vs ws).less Room.bound).next
      (Env.answers_equal? outer outer')
    simp only [Env.equal?, Env.same]
    by_cases hnames : xs = ys
    · simp only [hnames, if_true, beq_self_eq_true, Bool.true_and, Bool.and_true]
      refine .unless_known (fun h => ?_) hparts
      rw [Bool.and_eq_true, Bool.and_eq_true] at h
      rw [Bool.and_eq_true]
      exact ⟨h.1.2, h.2⟩
    · simp only [hnames, if_false, beq_eq_false_iff_ne.mpr hnames, Bool.false_and, Bool.and_false]
      exact .at_once false
  | .empty, .frame _ _ _ _ => .at_once false
  | .frame _ _ _ _, .empty => .at_once false

end

/-- An answer in any room says whether the values are the same. -/
theorem Value.equal?_eq_some {room : Nat} {v w : Value} {verdict : Bool}
    (h : v.equal? room w = some verdict) : verdict = v.same w := by
  obtain ⟨enough, henough⟩ := Value.answers_equal? v w
  have hanswer : v.equal? (max room enough) w = some (v.same w) := henough _ (by omega)
  have hroom : room ≤ max room enough := by omega
  have hmore := Value.equal?_mono hroom v w (by rw [h]; exact nofun)
  rw [hanswer, h] at hmore
  exact (Option.some.inj hmore).symm

end SmallScheme
