/-
  TAIL CALLS are calls, and nothing else.

  Four evaluators are compared:

  * `Eval.direct`    — the reference: the body of a closure is evaluated where the closure is
                       called, and so is every other expression that is left;
  * `Eval.flagged`   — the evaluator with a flag that tells whether an expression is in tail
                       position.  There a call of a closure is not carried out but handed back,
                       and `resume` carries out what is handed back until there is a value.  It is
                       used in two ways: in tail position with `resume` around it, and outside of
                       it, where it never hands back a call;
  * `Eval.evaluate`  — the evaluator that programs run on, which follows steps.

  Each of them is stopped by a limit of its own.  `evaluators_agree` says that those of their runs
  which no limit stops are the same runs: they end in the same value or fault, and in the same
  state.
-/
import SmallScheme.Proofs.Loading
import SmallScheme.Proofs.Way

namespace SmallScheme

/-! ## The evaluators -/

/-- The way of an evaluator that evaluates whatever is asked of it there and then. -/
def Way.atOnce (loader? : Option Loader) (room : Nat) (ask : Value → Env → Run Value) :
    Way Run Value where
  room := room + 1
  sub _ := ask
  load := Eval.require loader? ⟨room, fun _ => ask⟩
  last := ask
  enter := ask
  give := pure

namespace Eval

/-- The reference evaluator, which knows no tail calls. -/
def direct (loader? : Option Loader) : (room : Nat) → Value → Env → Run Value
  | 0, _, _ => throw .tooDeep
  | room + 1, expr, env => (Way.atOnce loader? room (direct loader? room)).eval expr env

/-- What the evaluation of an expression with a flag comes to. -/
inductive Answer where
  | value (v : Value)
  /-- A call that is still to be carried out. -/
  | call (body : Value) (env : Env)

/-- The value, where one is needed: to be bound, stored, tested or handed to a primitive.
    `stray` is what is made of a call that gets there. -/
def Answer.demand (stray : Value → Env → Run Value) : Answer → Run Value
  | .value v => pure v
  | .call body env => stray body env

/-- Carries out calls until there is a value, which may be the quit signal. -/
def resume (ask : Value → Env → Run Answer) : (steps : Nat) → Answer → Run Value
  | _, .value v => pure v
  | 0, .call _ _ => throw .tooLong
  | steps + 1, .call body env => do resume ask steps (← ask body env)

end Eval

open Eval (Answer resume)

/-- The way of an evaluator with a flag.  The flag is passed on for what is left of a form, and
    for nothing else.  A form of a module is in tail position, with `resume` around it. -/
def Way.flagged (stray : Value → Env → Run Value) (loader? : Option Loader) (steps room : Nat)
    (tail : Bool) (ask : Bool → Value → Env → Run Answer) : Way Run Answer where
  room := room + 1
  sub _ expr env := ask false expr env >>= Answer.demand stray
  load := Eval.require loader?
    ⟨room, fun _ form env => ask true form env >>= resume (ask true) steps⟩
  last := ask tail
  enter body env :=
    if tail then pure (.call body env)
    else do
      let v ← ask true body env >>= resume (ask true) steps
      pure (.value v)
  give v := pure (.value v)

namespace Eval

/-- The evaluator with a flag for tail position. -/
def flagged (stray : Value → Env → Run Value) (loader? : Option Loader) (steps : Nat) :
    (room : Nat) → (tail : Bool) → Value → Env → Run Answer
  | 0, _, _, _ => throw .tooDeep
  | room + 1, tail, expr, env =>
    (Way.flagged stray loader? steps room tail (flagged stray loader? steps room)).eval expr env

/-- An expression outside of tail position, as the value that it has to have there. -/
def nontail (stray : Value → Env → Run Value) (loader? : Option Loader) (steps room : Nat)
    (expr : Value) (env : Env) : Run Value :=
  flagged stray loader? steps room false expr env >>= Answer.demand stray

/-- An expression in tail position, with all calls that are handed back carried out. -/
def trampolined (stray : Value → Env → Run Value) (loader? : Option Loader) (steps room : Nat)
    (expr : Value) (env : Env) : Run Value :=
  flagged stray loader? steps room true expr env
    >>= resume (flagged stray loader? steps room true) steps

end Eval

/-! ## Ways that are within each other -/

section Within

variable {α β γ : Type} {loader? : Option Loader}

/-- To require a module is within doing so with a wider evaluator. -/
theorem Eval.require_within {ev ev' : Evaluator} (h : ev.Within ev') (name : String) :
    Run.Within (Eval.require loader? ev name) (Eval.require loader? ev' name) := by
  cases loader? with
  | some loader => exact Loader.load_within h loader name
  | none => exact Run.raise_roomy (.noLoader name) _ _ h.room

/-- If the answers of a way are within those of another, each with something to follow it, then so
    is all that the one evaluates within what the other evaluates. -/
theorem Way.eval_within {w : Way Run β} {w' : Way Run γ} {k : β → Run α} {k' : γ → Run α}
    {env : Env} (room : w.room ≤ w'.room)
    (sub : ∀ below expr inner, below ≤ Room.operand →
      Run.Within (w.sub below expr inner) (w'.sub below expr inner))
    (load : ∀ name, Run.Within (w.load name) (w'.load name))
    (last : ∀ expr, Run.Within (w.last expr env >>= k) (w'.last expr env >>= k'))
    (enter : ∀ body inner, Run.Within (w.enter body inner >>= k) (w'.enter body inner >>= k'))
    (give : ∀ v, Run.Within (w.give v >>= k) (w'.give v >>= k')) (expr : Value) :
    Run.Within (w.eval expr env >>= k) (w'.eval expr env >>= k') :=
  have related : @Way.Related Run Run _ _ _ _ β γ (fun _ => Run.Within)
      (fun x y => Run.Within (x >>= k) (y >>= k')) env w w' :=
    { pure := fun a => Run.Within.refl _
      bind := Run.Within.bind
      -- what comes after the last step is put behind it first
      bindLast := fun hx hk => by
        rw [bind_assoc, bind_assoc]
        exact hx.bind hk
      act := fun x hx => hx _ _ room
      sub := sub
      load := load
      last := last
      enter := enter
      give := give }
  related.eval expr

end Within

/-! ## Nothing is handed back outside of tail position -/

namespace Eval

section Flag

variable (stray : Value → Env → Run Value) (loader? : Option Loader) (steps : Nat)

/-- The run does not come to a call that is handed back. -/
def NoCall (x : Run Answer) : Prop := ∀ s a t, x s = .ok a t → ∃ v, a = .value v

/-- What no run after the first hands back, the two together do not. -/
theorem NoCall.bind {α : Type} {x : Run α} {k : α → Run Answer} (hk : ∀ a, NoCall (k a)) :
    NoCall (x >>= k) := by
  intro s a t h
  rw [Run.bind_apply] at h
  cases hx : x s with
  | ok b u =>
    rw [hx] at h
    exact hk b u a t h
  | error fault u =>
    rw [hx] at h
    cases h

/-- A value is no call. -/
theorem NoCall.value (v : Value) : NoCall (pure (.value v)) := by
  intro s a t h
  cases h
  exact ⟨v, rfl⟩

/-- Outside of tail position an expression is evaluated to its value. -/
theorem flagged_false_noCall (room : Nat) (expr : Value) (env : Env) :
    NoCall (flagged stray loader? steps room false expr env) := by
  induction room generalizing expr env with
  | zero =>
    intro s a t h
    cases h
  | succ room ih =>
    -- the relation of an evaluation to itself, of which only the last step is of interest
    let w := Way.flagged stray loader? steps room false (flagged stray loader? steps room)
    have related : @Way.Related Run Run _ _ _ _ Answer Answer (fun _ _ _ => True)
        (fun x _ => NoCall x) env w w :=
      { pure := fun _ => trivial
        bind := fun _ _ => trivial
        bindLast := fun _ hk => NoCall.bind hk
        act := fun _ _ => trivial
        sub := fun _ _ _ _ => trivial
        load := fun _ => trivial
        last := fun expr => ih expr env
        enter := fun body inner => NoCall.bind fun v => NoCall.value v
        give := fun v => NoCall.value v }
    exact related.eval expr

/-- Where nothing is handed back, it does not matter what would be made of a call. -/
theorem NoCall.demand_eq {x : Run Answer} (hx : NoCall x) (stray' : Value → Env → Run Value) :
    x >>= Answer.demand stray = x >>= Answer.demand stray' := by
  funext s
  rw [Run.bind_apply, Run.bind_apply]
  cases h : x s with
  | ok a t =>
    obtain ⟨v, rfl⟩ := hx s a t h
    rfl
  | error fault t => rfl

/-- No call ever gets to where a value is needed: whatever were made of it there, the evaluation
    is the same. -/
theorem flagged_stray (stray' : Value → Env → Run Value) (room : Nat) :
    flagged stray loader? steps room = flagged stray' loader? steps room := by
  induction room with
  | zero => rfl
  | succ room ih =>
    funext tail expr env
    have related : @Way.Related Run Run _ _ _ _ Answer Answer (fun _ x x' => x = x')
        (fun x x' => x = x') env
        (Way.flagged stray loader? steps room tail (flagged stray loader? steps room))
        (Way.flagged stray' loader? steps room tail (flagged stray' loader? steps room)) := by
      -- the smaller rooms are alike already, so only the step that asks for a value can differ
      rw [← ih]
      exact
        { pure := fun _ => rfl
          bind := fun hx hk => by rw [hx, funext hk]
          bindLast := fun hx hk => by rw [hx, funext hk]
          act := fun _ _ => rfl
          -- a value is asked for, and then there is no call left to go astray
          sub := fun _ expr inner _ =>
            (flagged_false_noCall stray loader? steps room expr inner).demand_eq stray stray'
          load := fun _ => rfl
          last := fun _ => rfl
          enter := fun _ _ => rfl
          give := fun _ => rfl }
    exact related.eval expr

end Flag

/-! ## The reference evaluator and limits -/

section Direct

variable {loader? : Option Loader} {β : Type}

/-- The reference evaluator, as the evaluator of a module's forms. -/
def directly (loader? : Option Loader) (room : Nat) : Evaluator :=
  ⟨room, fun _ => direct loader? room⟩

/-- What it takes for a way to be within the reference evaluator. -/
theorem eval_within_direct {w : Way Run β} {k : β → Run Value} {room : Nat} {env : Env}
    (hroom : w.room ≤ room + 1)
    (sub : ∀ below expr inner, below ≤ Room.operand →
      Run.Within (w.sub below expr inner) (direct loader? room expr inner))
    (load : ∀ name, Run.Within (w.load name) (require loader? (directly loader? room) name))
    (last : ∀ expr, Run.Within (w.last expr env >>= k) (direct loader? room expr env))
    (enter : ∀ body inner, Run.Within (w.enter body inner >>= k) (direct loader? room body inner))
    (give : ∀ v, w.give v >>= k = pure v) (expr : Value) :
    Run.Within (w.eval expr env >>= k) (direct loader? (room + 1) expr env) := by
  -- the direct evaluator goes on with nothing, so both are of one shape
  have hw : Run.Within (w.eval expr env >>= k)
      ((Way.atOnce loader? room (direct loader? room)).eval expr env >>= pure) := by
    refine Way.eval_within hroom sub load (fun expr => ?_) (fun body inner => ?_) (fun v => ?_) expr
    · rw [bind_pure]
      exact last expr
    · rw [bind_pure]
      exact enter body inner
    · rw [bind_pure, give]
      exact Run.Within.refl _
  rw [bind_pure] at hw
  exact hw

/-- What it takes for the reference evaluator to be within a way. -/
theorem direct_within_eval {w : Way Run β} {k : β → Run Value} {room : Nat} {env : Env}
    (hroom : room + 1 ≤ w.room)
    (sub : ∀ below expr inner, below ≤ Room.operand →
      Run.Within (direct loader? room expr inner) (w.sub below expr inner))
    (load : ∀ name, Run.Within (require loader? (directly loader? room) name) (w.load name))
    (last : ∀ expr, Run.Within (direct loader? room expr env) (w.last expr env >>= k))
    (enter : ∀ body inner, Run.Within (direct loader? room body inner) (w.enter body inner >>= k))
    (give : ∀ v, w.give v >>= k = pure v) (expr : Value) :
    Run.Within (direct loader? (room + 1) expr env) (w.eval expr env >>= k) := by
  have hw : Run.Within ((Way.atOnce loader? room (direct loader? room)).eval expr env >>= pure)
      (w.eval expr env >>= k) := by
    refine Way.eval_within hroom sub load (fun expr => ?_) (fun body inner => ?_) (fun v => ?_) expr
    · rw [bind_pure]
      exact last expr
    · rw [bind_pure]
      exact enter body inner
    · rw [bind_pure, give]
      exact Run.Within.refl _
  rw [bind_pure] at hw
  exact hw

/-- More room does not change what the reference evaluator does. -/
theorem direct_mono {room room' : Nat} (h : room ≤ room') (expr : Value) (env : Env) :
    Run.Within (direct loader? room expr env) (direct loader? room' expr env) := by
  induction room generalizing room' expr env with
  | zero => exact Run.Within.of_limit rfl _
  | succ room ih =>
    -- the larger room is a successor as well, so both take the same step
    obtain ⟨big, rfl⟩ : ∃ big, room' = big + 1 := ⟨room' - 1, by omega⟩
    have hle : room ≤ big := by omega
    have hw : Run.Within
        ((Way.atOnce loader? room (direct loader? room)).eval expr env >>= pure)
        (direct loader? (big + 1) expr env) := by
      refine eval_within_direct h ?_ ?_ ?_ ?_ ?_ expr
      · exact fun _ expr inner _ => ih hle expr inner
      · exact fun name => require_within ⟨hle, fun _ expr inner _ => ih hle expr inner⟩ name
      · intro expr
        rw [bind_pure]
        exact ih hle expr env
      · intro body inner
        rw [bind_pure]
        exact ih hle body inner
      · exact fun v => rfl
    rw [bind_pure] at hw
    exact hw

end Direct

/-! ## The flag and the reference evaluator -/

section Flag

variable {stray : Value → Env → Run Value} {loader? : Option Loader} {steps : Nat}

/-- Carries out a call by the reference evaluator. -/
def finish (loader? : Option Loader) (room : Nat) : Answer → Run Value
  | .value v => pure v
  | .call body env => direct loader? room body env

/-- If each handing back costs so much room at most, the calls carried out one after the other
    are within one call of the reference evaluator. -/
theorem resume_within {ask : Value → Env → Run Answer} {cost : Nat}
    (hask : ∀ room body env, Run.Within (ask body env >>= finish loader? room)
      (direct loader? (cost + room) body env)) (steps : Nat) (a : Answer) :
    Run.Within (resume ask steps a) (finish loader? (steps * cost) a) := by
  induction steps generalizing a with
  | zero =>
    cases a with
    | value v => exact Run.Within.refl _
    | call body env => exact Run.Within.of_limit rfl _
  | succ steps ih =>
    cases a with
    | value v => exact Run.Within.refl _
    | call body env =>
      have hcost : (steps + 1) * cost = cost + steps * cost := by rw [Nat.succ_mul, Nat.add_comm]
      rw [hcost]
      exact ((Run.Within.refl _).bind ih).trans (hask _ body env)

/-- Where each handing back costs so much, carrying out all calls costs it for every step. -/
theorem trampolined_within {room cost : Nat}
    (h : ∀ expr env, Run.Within (nontail stray loader? steps room expr env)
      (direct loader? cost expr env) ∧ ∀ extra, Run.Within
        (flagged stray loader? steps room true expr env >>= finish loader? extra)
        (direct loader? (cost + extra) expr env)) (expr : Value) (env : Env) :
    Run.Within (trampolined stray loader? steps room expr env)
      (direct loader? (cost + steps * cost) expr env) := by
  have hresume := resume_within (fun extra body env => (h body env).2 extra) steps
  exact ((Run.Within.refl _).bind hresume).trans ((h expr env).2 _)

/-- The flagged evaluator is within the reference evaluator: outside of tail position as it
    stands, and in tail position once the call that is handed back has been carried out. -/
theorem flagged_within (stray : Value → Env → Run Value) (loader? : Option Loader)
    (steps room : Nat) : ∃ cost, ∀ expr env,
    Run.Within (nontail stray loader? steps room expr env) (direct loader? cost expr env) ∧
    ∀ extra, Run.Within
      (flagged stray loader? steps room true expr env >>= finish loader? extra)
      (direct loader? (cost + extra) expr env) := by
  induction room with
  | zero =>
    refine ⟨0, fun expr env => ⟨?_, fun extra => ?_⟩⟩ <;> exact Run.Within.of_limit rfl _
  | succ room ih =>
    obtain ⟨cost, hcost⟩ := ih
    let enough := room + cost + steps * cost
    have value : ∀ big, enough ≤ big → ∀ expr env,
        Run.Within (nontail stray loader? steps room expr env) (direct loader? big expr env) :=
      fun big hbig expr env => (hcost expr env).1.trans (direct_mono (by omega) expr env)
    have called : ∀ big, enough ≤ big → ∀ expr env,
        Run.Within (trampolined stray loader? steps room expr env) (direct loader? big expr env) :=
      fun big hbig expr env =>
        (trampolined_within hcost expr env).trans (direct_mono (by omega) expr env)
    have load : ∀ big, enough ≤ big → ∀ name, Run.Within
        (require loader? ⟨room, fun _ => trampolined stray loader? steps room⟩ name)
        (require loader? (directly loader? big) name) :=
      fun big hbig name => require_within
        ⟨show room ≤ big by omega, fun _ expr env _ => called big hbig expr env⟩ name
    refine ⟨enough + 1, fun expr env => ⟨?_, fun extra => ?_⟩⟩
    -- outside of tail position: a call is carried out here, by `resume`
    · refine eval_within_direct (show room + 1 ≤ enough + 1 by omega) ?_ ?_ ?_ ?_ ?_ expr
      · exact fun _ expr inner _ => value enough (Nat.le_refl _) expr inner
      · exact load enough (Nat.le_refl _)
      · exact fun expr => value enough (Nat.le_refl _) expr env
      · intro body inner
        show Run.Within
          ((trampolined stray loader? steps room body inner >>= fun v => pure (.value v))
            >>= Answer.demand stray) _
        rw [bind_assoc]
        simp only [pure_bind, Answer.demand, bind_pure]
        exact called enough (Nat.le_refl _) body inner
      · exact fun v => rfl
    -- in tail position: a call is handed back, and `extra` is for its body
    · have hbig : enough ≤ enough + extra := Nat.le_add_right _ _
      rw [Nat.add_right_comm]
      refine eval_within_direct (show room + 1 ≤ enough + extra + 1 by omega) ?_ ?_ ?_ ?_ ?_ expr
      · exact fun _ expr inner _ => value _ hbig expr inner
      · exact load _ hbig
      · exact fun expr => ((hcost expr env).2 extra).trans (direct_mono (by omega) expr env)
      · exact fun body inner => direct_mono (by omega) body inner
      · exact fun v => rfl

/-- The reference evaluator is within the flagged one, where that is given as much room, and as
    many steps, as the reference evaluator has room. -/
theorem within_flagged {limit : Nat} (hsteps : limit ≤ steps) {room : Nat} (hroom : limit ≤ room)
    (expr : Value) (env : Env) :
    Run.Within (direct loader? limit expr env) (nontail stray loader? steps room expr env) ∧
    ∀ room' fuel, limit ≤ room' → limit ≤ fuel → Run.Within (direct loader? limit expr env)
      (flagged stray loader? steps room true expr env
        >>= resume (flagged stray loader? steps room' true) fuel) := by
  induction limit generalizing room expr env with
  | zero => exact ⟨Run.Within.of_limit rfl _, fun _ _ _ _ => Run.Within.of_limit rfl _⟩
  | succ limit ih =>
    obtain ⟨small, rfl⟩ : ∃ small, room = small + 1 := ⟨room - 1, by omega⟩
    have hlimit : limit ≤ small := by omega
    have value : ∀ expr env, Run.Within (direct loader? limit expr env)
        (nontail stray loader? steps small expr env) :=
      fun expr env => (ih (by omega) hlimit expr env).1
    have called : ∀ expr env, Run.Within (direct loader? limit expr env)
        (trampolined stray loader? steps small expr env) :=
      fun expr env => (ih (by omega) hlimit expr env).2 small steps hlimit (by omega)
    have load : ∀ name, Run.Within (require loader? (directly loader? limit) name)
        (require loader? ⟨small, fun _ => trampolined stray loader? steps small⟩ name) :=
      fun name => require_within ⟨hlimit, fun _ expr env _ => called expr env⟩ name
    refine ⟨?_, fun room' fuel hroom' hfuel => ?_⟩
    · refine direct_within_eval hroom ?_ load ?_ ?_ ?_ expr
      · exact fun _ expr inner _ => value expr inner
      · exact fun expr => value expr env
      · intro body inner
        show Run.Within _
          ((trampolined stray loader? steps small body inner >>= fun v => pure (.value v))
            >>= Answer.demand stray)
        rw [bind_assoc]
        simp only [pure_bind, Answer.demand, bind_pure]
        exact called body inner
      · exact fun v => rfl
    · obtain ⟨fuel, rfl⟩ : ∃ n, fuel = n + 1 := ⟨fuel - 1, by omega⟩
      refine direct_within_eval hroom ?_ load ?_ ?_ ?_ expr
      · exact fun _ expr inner _ => value expr inner
      · exact fun expr => (ih (by omega) hlimit expr env).2 room' _ (by omega) (by omega)
      -- the call is handed back, and `resume` goes on with its body
      · exact fun body inner =>
          (ih (by omega) (by omega) body inner).2 room' fuel (by omega) (by omega)
      · exact fun v => rfl

end Flag

/-! ## Steps and the reference evaluator -/

section Steps

variable {loader? : Option Loader} {steps : Nat}

/-- To evaluate below so much of the room is to evaluate in what is left of it. -/
theorem evaluate_below (room below : Nat) (expr : Value) (env : Env) :
    evaluate loader? steps room below expr env
      = evaluate loader? steps (room - below) 0 expr env := by
  induction room generalizing below with
  | zero =>
    rw [Nat.zero_sub]
    rfl
  | succ room ih =>
    cases below with
    | zero => rfl
    | succ below =>
      rw [Nat.add_sub_add_right, ← ih]
      rfl

/-- The evaluator that the steps of an evaluation in so much room make use of. -/
def stepping (loader? : Option Loader) (steps room : Nat) : Evaluator :=
  ⟨room + 1, fun below => evaluate loader? steps room (below - 1)⟩

/-- The steps of an evaluation in so much room. -/
def stepIn (loader? : Option Loader) (steps room used : Nat) : Value → Env → Run Reply :=
  step loader? ((stepping loader? steps room).deeper used)

/-- What is deeper is evaluated in the room that is left there. -/
theorem stepping_run (room used below : Nat) (expr : Value) (env : Env) :
    ((stepping loader? steps room).deeper used).run below expr env
      = evaluate loader? steps (room - (used + below - 1)) 0 expr env :=
  evaluate_below room (used + below - 1) expr env

/-- One step of `follow`: what is done with the reply. -/
def carryOn (next : Nat → Value → Env → Run Reply) (steps used : Nat) (body? : Option Nat)
    (env : Env) : Reply → Run Value
  | .done v => pure v
  | .part expr => follow next steps (used + Room.part) body? expr env
  | .body expr env =>
    match body? with
    | some inner => follow next steps inner body? expr env
    | none => follow next steps (used + Room.body) (some (used + Room.body + 1)) expr env

/-- The first step, and what is carried on from its reply. -/
theorem follow_succ (next : Nat → Value → Env → Run Reply) (steps used : Nat) (body? : Option Nat)
    (expr : Value) (env : Env) :
    follow next (steps + 1) used body? expr env
      = next used expr env >>= carryOn next steps used body? env := by
  rw [follow]
  rfl

/-- What steps come to is within the reference evaluator. -/
theorem follow_within {room cost : Nat}
    (hsub : ∀ small, small ≤ room → ∀ expr env, Run.Within
      (evaluate loader? steps small 0 expr env) (direct loader? cost expr env))
    (fuel used : Nat) (body? : Option Nat) (expr : Value) (env : Env) :
    Run.Within (follow (stepIn loader? steps room) fuel used body? expr env)
      (direct loader? (room + 1 + cost + fuel) expr env) := by
  -- on the steps that are left; `used` and `body?` are different after each
  induction fuel generalizing used body? expr env with
  | zero => exact Run.Within.of_limit rfl _
  | succ fuel ih =>
    rw [follow_succ]
    let ev := (stepping loader? steps room).deeper used
    by_cases h0 : ev.room = 0
    · have hstop : stepIn loader? steps room used expr env = throw .tooDeep := by
        rw [stepIn, step, if_pos h0]
      rw [hstop]
      exact Run.Within.of_limit rfl _
    · have hstep : stepIn loader? steps room used expr env
          = (Way.ofStep loader? ev).eval expr env := Way.step_eq_eval loader? ev env h0 expr
      rw [hstep]
      have hroom : ev.room ≤ room + 1 := Nat.sub_le _ _
      have hrun : ∀ below expr env, Run.Within (ev.run below expr env)
          (direct loader? (room + 1 + cost + fuel) expr env) := by
        intro below expr env
        rw [stepping_run]
        exact (hsub _ (Nat.sub_le _ _) expr env).trans (direct_mono (by omega) expr env)
      refine eval_within_direct (show ev.room ≤ room + 1 + cost + fuel + 1 by omega)
        ?_ ?_ ?_ ?_ ?_ expr
      · exact fun below expr env _ => hrun below expr env
      · exact fun name => require_within
          ⟨show ev.room ≤ room + 1 + cost + fuel by omega, fun below expr env _ =>
            hrun below expr env⟩ name
      · exact fun expr => ih _ _ expr env
      · intro body inner
        cases body? with
        | none => exact ih _ _ body inner
        | some size => exact ih _ _ body inner
      · exact fun v => rfl

/-- The evaluator of steps is within the reference evaluator. -/
theorem evaluate_within (loader? : Option Loader) (steps room : Nat) :
    ∃ cost, ∀ small, small ≤ room → ∀ expr env, Run.Within
      (evaluate loader? steps small 0 expr env) (direct loader? cost expr env) := by
  induction room with
  | zero =>
    refine ⟨0, fun small hsmall expr env => ?_⟩
    obtain rfl : small = 0 := by omega
    exact Run.Within.of_limit rfl _
  | succ room ih =>
    obtain ⟨cost, hcost⟩ := ih
    refine ⟨room + 1 + cost + steps, fun small hsmall expr env => ?_⟩
    rcases Nat.lt_or_ge room small with hlt | hle
    · obtain rfl : small = room + 1 := by omega
      exact follow_within hcost steps 0 none expr env
    · exact (hcost small hle expr env).trans (direct_mono (by omega) expr env)

/-- The reference evaluator is within what steps come to, where these have seven times the room:
    a step takes up less than that, and so does the body of a closure. -/
theorem within_follow {limit : Nat} (hsteps : limit ≤ steps) {room fuel used : Nat}
    {body? : Option Nat} (hfuel : limit ≤ fuel) (hused : 7 * limit + used ≤ room + 1)
    (hbody : ∀ inner, body? = some inner → 7 * limit + inner ≤ room + 1) (expr : Value)
    (env : Env) :
    Run.Within (direct loader? limit expr env)
      (follow (stepIn loader? steps room) fuel used body? expr env) := by
  induction limit generalizing room fuel used body? expr env with
  | zero => exact Run.Within.of_limit rfl _
  | succ limit ih =>
    obtain ⟨fuel, rfl⟩ : ∃ n, fuel = n + 1 := ⟨fuel - 1, by omega⟩
    rw [follow_succ]
    let ev := (stepping loader? steps room).deeper used
    have hroom : ev.room = room + 1 - used := rfl
    have hstep : stepIn loader? steps room used expr env
        = (Way.ofStep loader? ev).eval expr env :=
      Way.step_eq_eval loader? ev env (by omega) expr
    rw [hstep]
    have hrun : ∀ below expr env, below ≤ Room.moduleForm →
        Run.Within (direct loader? limit expr env) (ev.run below expr env) := by
      intro below expr env hbelow
      have hbelow : below ≤ 6 := hbelow
      rw [stepping_run]
      obtain ⟨small, hsmall⟩ : ∃ small, room - (used + below - 1) = small + 1 :=
        ⟨room - (used + below - 1) - 1, by omega⟩
      rw [hsmall]
      refine ih (by omega) (by omega) (by omega) ?_ expr env
      intro inner hinner
      cases hinner
    refine direct_within_eval (show limit + 1 ≤ ev.room by omega) ?_ ?_ ?_ ?_ ?_ expr
    · exact fun below expr env hbelow => hrun below expr env (Nat.le_trans hbelow (by decide))
    · exact fun name => require_within
        ⟨show limit ≤ ev.room by omega, fun below expr env hbelow =>
          hrun below expr env hbelow⟩ name
    · intro expr
      refine ih (by omega) (by omega) (show 7 * limit + (used + 2) ≤ room + 1 by omega) ?_ expr env
      intro inner hinner
      have := hbody inner hinner
      omega
    · intro body inner
      cases body? with
      -- the first call takes up room for the body, which all that follow make use of again
      | none =>
        refine ih (by omega) (by omega) (show 7 * limit + (used + 4) ≤ room + 1 by omega) ?_
          body inner
        intro size hsize
        obtain rfl : used + 4 + 1 = size := Option.some.inj hsize
        omega
      | some size =>
        have hsize := hbody size rfl
        refine ih (by omega) (by omega) (show 7 * limit + size ≤ room + 1 by omega) ?_ body inner
        intro size' hsize'
        obtain rfl : size = size' := Option.some.inj hsize'
        omega
    · exact fun v => rfl

/-- What the reference evaluator comes to, the evaluator of programs comes to in enough room. -/
theorem within_evaluate {limit room : Nat} (hsteps : limit ≤ steps) (hroom : 7 * limit ≤ room)
    (expr : Value) (env : Env) :
    Run.Within (direct loader? limit expr env) (evaluate loader? steps room 0 expr env) := by
  cases room with
  | zero =>
    obtain rfl : limit = 0 := by omega
    exact Run.Within.of_limit rfl _
  | succ room =>
    refine within_follow hsteps hsteps (by omega) ?_ expr env
    intro inner hinner
    cases hinner

end Steps

/-! ## The evaluators agree -/

/-- The evaluators that are compared. -/
inductive Mode where
  | direct
  | nontail
  | trampolined
  | stepwise

/-- The run of an expression by one of the evaluators. -/
def Mode.run (mode : Mode) (stray : Value → Env → Run Value) (loader? : Option Loader)
    (steps room : Nat) (expr : Value) (env : Env) : Run Value :=
  match mode with
  | .direct => Eval.direct loader? room expr env
  | .nontail => Eval.nontail stray loader? steps room expr env
  | .trampolined => Eval.trampolined stray loader? steps room expr env
  | .stepwise => Eval.evaluate loader? steps room 0 expr env

section Agreement

variable (stray : Value → Env → Run Value) (loader? : Option Loader) (expr : Value) (env : Env)

/-- Each evaluator is within the reference evaluator, -/
theorem Mode.within_direct (mode : Mode) (steps room : Nat) : ∃ cost, Run.Within
    (mode.run stray loader? steps room expr env) (Eval.direct loader? cost expr env) := by
  obtain ⟨cost, hcost⟩ := flagged_within stray loader? steps room
  cases mode with
  | direct => exact ⟨room, Run.Within.refl _⟩
  | nontail => exact ⟨cost, (hcost expr env).1⟩
  | trampolined => exact ⟨_, trampolined_within hcost expr env⟩
  | stepwise =>
    obtain ⟨cost, hcost⟩ := evaluate_within loader? steps room
    exact ⟨cost, hcost room (Nat.le_refl _) expr env⟩

/-- and the reference evaluator is within each of them, where that is given enough. -/
theorem Mode.direct_within (mode : Mode) {limit steps room : Nat} (hsteps : limit ≤ steps)
    (hroom : 7 * limit ≤ room) : Run.Within (Eval.direct loader? limit expr env)
      (mode.run stray loader? steps room expr env) := by
  have hlimit : limit ≤ room := by omega
  cases mode with
  | direct => exact direct_mono hlimit expr env
  | nontail => exact (within_flagged hsteps hlimit expr env).1
  | trampolined => exact (within_flagged hsteps hlimit expr env).2 room steps hlimit hsteps
  | stepwise => exact within_evaluate hsteps hroom expr env

variable {stray loader? expr env} {mode : Mode} {steps room : Nat} {s : State}

/-- What an evaluator has come to, every evaluator comes to, given enough. -/
theorem Mode.reached (h : Run.Settled (mode.run stray loader? steps room expr env s))
    (other : Mode) : ∃ enough, ∀ steps' room', enough ≤ steps' → enough ≤ room' →
      other.run stray loader? steps' room' expr env s
        = mode.run stray loader? steps room expr env s := by
  -- by way of the reference evaluator
  obtain ⟨cost, hcost⟩ := mode.within_direct stray loader? expr env steps room
  have hdirect : Eval.direct loader? cost expr env s = _ := hcost s h
  refine ⟨7 * cost, fun steps' room' hsteps hroom => ?_⟩
  have hother := other.direct_within stray loader? expr env (by omega : cost ≤ steps') hroom
  rw [hother s (by rw [hdirect]; exact h), hdirect]

/-- Two evaluators that no limit stops come to the same. -/
theorem Mode.settled_eq (h : Run.Settled (mode.run stray loader? steps room expr env s))
    (other : Mode) {steps' room' : Nat}
    (hother : Run.Settled (other.run stray loader? steps' room' expr env s)) :
    other.run stray loader? steps' room' expr env s
      = mode.run stray loader? steps room expr env s := by
  -- both come to what the second does with enough
  obtain ⟨n, hn⟩ := Mode.reached h other
  obtain ⟨n', hn'⟩ := Mode.reached hother other
  have hleft := hn (n + n') (n + n') (by omega) (by omega)
  have hright := hn' (n + n') (n + n') (by omega) (by omega)
  rw [← hleft, ← hright]

end Agreement

/-- The evaluators agree.  A run that no limit stops is done the same by every evaluator that has
    enough steps and room, and all such runs of an expression are the same, down to the last part
    of the state.  Outside of tail position no call is handed back, and wherever a value is needed
    it does not matter what would be made of a call, for there is none. -/
theorem evaluators_agree (loader? : Option Loader) (expr : Value) (env : Env) (s : State) :
    (∀ (stray : Value → Env → Run Value) (mode other : Mode) (steps room : Nat),
      Run.Settled (mode.run stray loader? steps room expr env s) →
      (∃ enough, ∀ steps' room', enough ≤ steps' → enough ≤ room' →
        other.run stray loader? steps' room' expr env s
          = mode.run stray loader? steps room expr env s) ∧
      ∀ steps' room', Run.Settled (other.run stray loader? steps' room' expr env s) →
        other.run stray loader? steps' room' expr env s
          = mode.run stray loader? steps room expr env s) ∧
    (∀ stray steps room a t,
      flagged stray loader? steps room false expr env s = .ok a t → ∃ v, a = .value v) ∧
    ∀ stray stray' steps room tail,
      flagged stray loader? steps room tail expr env s
        = flagged stray' loader? steps room tail expr env s := by
  refine ⟨fun stray mode other steps room h => ⟨Mode.reached h other, ?_⟩, ?_, ?_⟩
  · exact fun steps' room' hother => Mode.settled_eq h other hother
  · exact fun stray steps room => flagged_false_noCall stray loader? steps room expr env s
  · intro stray stray' steps room tail
    rw [flagged_stray stray loader? steps stray' room]

/-- `((lambda (x) x) 1)`: the evaluator of steps comes to what the reference evaluator comes to. -/
theorem evaluators_agree_identity : ∃ enough, ∀ steps room, enough ≤ steps → enough ≤ room →
    evaluate none steps room 0 (.list .unknown [.list .unknown [.symbol "lambda",
      .list .unknown [.symbol "x"], .symbol "x"], .int 1]) .empty State.initial
        = .ok (.int 1) { State.initial with made := 1 } := by
  have h := (evaluators_agree none (.list .unknown [.list .unknown [.symbol "lambda",
    .list .unknown [.symbol "x"], .symbol "x"], .int 1]) .empty State.initial).1
    (fun _ _ => pure .unspecified) .direct .stepwise 0 3 trivial
  exact h.1

end Eval

end SmallScheme
