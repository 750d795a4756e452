/-
  CALLING A FUNCTION from outside.

  A host that has a function and arguments for it calls the one with the others, and the body of
  a closure is run to its value there and then (`applyTo`).  A program gets the same values into a
  call by quoting them: then the operator and the operands are evaluated first, and the body of a
  closure is what is left when the form has been gone through.

  Quoted values come to themselves, in whatever environment.  So all that either of the two does is
  one call (`Way.calling`), and they differ only in what enters a body and in how much room they
  have: no run that is not stopped by a limit can tell them apart.

  Structure:
    1. What a host does, as a way of evaluating.
    2. A call with quoted values, by the reference evaluator.
    3. Both agree with the reference, and so with each other, in the two directions and within the
       limits that each of them has.
-/
import Mathlib.Data.List.Forall2
import SmallScheme.Proofs.TailCall

namespace SmallScheme

/-- The expression is a quoted value. -/
def Value.Quotes (expr v : Value) : Prop := ∃ origin, expr = .list origin [.symbol "quote", v]

/-- The way of a call alone: bodies are entered by `enter`. -/
def Way.calling (room : Nat) (enter : Value → Env → Run Value) : Way Run Value where
  room := room
  sub _ := enter
  load _ := throw .tooDeep
  last := enter
  enter := enter
  give := pure

/-- To call at once is to call. -/
theorem Way.call_atOnce {loader? : Option Loader} {room : Nat} {ask : Value → Env → Run Value}
    (f : Value) (args : List Value) :
    (Way.atOnce loader? room ask).call f args = (Way.calling (room + 1) ask).call f args := by
  cases f <;> rfl

/-- A call is within one that has more room, if entering a body is. -/
theorem Way.calling_within {room room' : Nat} {enter enter' : Value → Env → Run Value}
    (hroom : room ≤ room')
    (henter : ∀ body inner, Run.Within (enter body inner) (enter' body inner)) (f : Value)
    (args : List Value) :
    Run.Within ((Way.calling room enter).call f args) ((Way.calling room' enter').call f args) :=
  have related : @Way.Related Run Run _ _ _ _ Value Value (fun _ => Run.Within) Run.Within .empty
      (Way.calling room enter) (Way.calling room' enter') :=
    { pure := fun _ => Run.Within.refl _
      bind := Run.Within.bind
      bindLast := Run.Within.bind
      act := fun _ hx => hx _ _ hroom
      sub := fun _ expr inner _ => henter expr inner
      load := fun _ => Run.Within.refl _
      last := fun expr => henter expr .empty
      enter := henter
      give := fun _ => Run.Within.refl _ }
  related.call f args

namespace Eval

variable {loader? : Option Loader} {steps room : Nat} {f : Value} {args : List Value} {env : Env}

/-- A call from outside enters the body with its own evaluator. -/
theorem applyTo_eq_calling (ev : Evaluator) (f : Value) (args : List Value) :
    applyTo ev f args = (Way.calling ev.room (ev.run Room.body)).call f args := by
  -- how a call from outside goes on, whatever the call has come to
  obtain ⟨goOn, happly, hdone, hpart, hbody⟩ : ∃ goOn : Reply → Run Value,
      applyTo ev f args = call ev.room f args >>= goOn ∧ (∀ v, goOn (.done v) = pure v) ∧
      (∀ expr, goOn (.part expr) = ev.run Room.part expr .empty) ∧
      ∀ body inner, goOn (.body body inner) = ev.run Room.body body inner :=
    ⟨_, rfl, fun _ => rfl, fun _ => rfl, fun _ _ => rfl⟩
  have related : @Way.Related Run Run _ _ _ _ Reply Value (fun _ x x' => x = x')
      (fun x x' => x >>= goOn = x') .empty (Way.ofStep none ev)
      { Way.calling ev.room (ev.run Room.body) with
        sub := ev.run
        load := require none ev
        last := fun expr _ => ev.run Room.part expr .empty } :=
    { pure := fun _ => rfl
      bind := fun hx hk => by rw [hx, funext hk]
      bindLast := fun hx hk => by rw [hx, bind_assoc, funext hk]
      act := fun _ _ => rfl
      sub := fun _ _ _ _ => rfl
      load := fun _ => rfl
      last := fun expr => hpart expr
      enter := fun body inner => hbody body inner
      give := fun v => hdone v }
  have h := related.call f args
  rw [Way.call_ofStep, ← happly] at h
  exact h

/-! ## A call with quoted values -/

/-- A quoted value comes to itself. -/
theorem direct_quoted {expr v : Value} (h : expr.Quotes v) (env : Env) :
    direct loader? (room + 1) expr env = pure v := by
  obtain ⟨origin, rfl⟩ := h
  rfl

/-- Quoted values come to themselves, from left to right. -/
theorem operands_quoted {exprs : List Value} (h : List.Forall₂ Value.Quotes exprs args)
    (hargs : ∀ v ∈ args, v ≠ .quit) (env : Env) :
    (Way.atOnce loader? (room + 1) (direct loader? (room + 1))).operands env exprs
      = pure (some args) := by
  induction h with
  | nil => rfl
  | @cons expr v exprs args hexpr _ ih =>
    obtain ⟨hv, hargs⟩ := List.forall_mem_cons.mp hargs
    have hfirst : (Way.atOnce loader? (room + 1) (direct loader? (room + 1))).sub Room.operand
        expr env = pure v := direct_quoted hexpr env
    rw [Way.operands, hfirst, pure_bind, ih hargs]
    cases v with
    | quit => exact absurd rfl hv
    | _ => rfl

/-- All that is left of such a call is the call of the function. -/
theorem direct_call_quoted {head : Value} {exprs : List Value} (hf : f ≠ .quit)
    (hargs : ∀ v ∈ args, v ≠ .quit) (hhead : head.Quotes f)
    (hexprs : List.Forall₂ Value.Quotes exprs args) (origin : Origin) (env : Env) :
    direct loader? (room + 2) (.list origin (head :: exprs)) env
      = (Way.calling (room + 2) (direct loader? (room + 1))).call f args := by
  let w := Way.atOnce loader? (room + 1) (direct loader? (room + 1))
  have hform : Form.ofExpr? (.list origin (head :: exprs)) = .ok (.call head exprs) := by
    obtain ⟨_, rfl⟩ := hhead
    rfl
  have heval : direct loader? (room + 2) (.list origin (head :: exprs)) env
      = w.form env (.call head exprs) := by
    show w.eval _ env = _
    rw [Way.eval, hform]
  -- a quoted operator is the procedure itself, and so are the operands
  have hfunction : w.sub Room.operator head env = pure f := direct_quoted hhead env
  rw [heval, Way.form, Way.unlessQuit, hfunction, pure_bind]
  cases f with
  | quit => exact absurd rfl hf
  | _ =>
    dsimp only
    rw [operands_quoted hexprs hargs env, pure_bind]
    exact Way.call_atOnce _ args

/-! ## Both agree with the reference -/

/-- A call from outside is within the call with quoted values, as the reference evaluates it. -/
theorem applyTo_within {head : Value} {exprs : List Value} (hf : f ≠ .quit)
    (hargs : ∀ v ∈ args, v ≠ .quit) (hhead : head.Quotes f)
    (hexprs : List.Forall₂ Value.Quotes exprs args) (origin : Origin) (steps room : Nat)
    (env : Env) :
    ∃ cost, Run.Within (applyTo (within loader? steps room) f args)
      (direct loader? cost (.list origin (head :: exprs)) env) := by
  obtain ⟨cost, hcost⟩ := evaluate_within loader? steps room
  refine ⟨room + cost + 2, ?_⟩
  rw [direct_call_quoted hf hargs hhead hexprs, applyTo_eq_calling]
  refine Way.calling_within (show room ≤ room + cost + 2 by omega) (fun body inner => ?_) f args
  show Run.Within (evaluate loader? steps room Room.body body inner) _
  rw [evaluate_below]
  exact (hcost _ (Nat.sub_le _ _) body inner).trans (direct_mono (by omega) body inner)

/-- Conversely, the reference is within the call from outside, where that is given enough. -/
theorem within_applyTo {head : Value} {exprs : List Value} (hf : f ≠ .quit)
    (hargs : ∀ v ∈ args, v ≠ .quit) (hhead : head.Quotes f)
    (hexprs : List.Forall₂ Value.Quotes exprs args) (origin : Origin) {limit : Nat}
    (hsteps : limit + 2 ≤ steps) (hroom : 7 * (limit + 2) ≤ room) (env : Env) :
    Run.Within (direct loader? limit (.list origin (head :: exprs)) env)
      (applyTo (within loader? steps room) f args) := by
  refine (direct_mono (Nat.le_add_right limit 2) _ env).trans ?_
  rw [direct_call_quoted hf hargs hhead hexprs, applyTo_eq_calling]
  refine Way.calling_within (show limit + 2 ≤ room by omega) (fun body inner => ?_) f args
  show Run.Within _ (evaluate loader? steps room Room.body body inner)
  rw [evaluate_below]
  exact within_evaluate (by omega) (show 7 * (limit + 1) ≤ room - 4 by omega) body inner

/-- Calling a function from outside agrees with calling it from a program, where the function and
    the arguments are quoted.  Whatever the function is and whatever its body does, runs that no
    limit stops come to the same value, the quit signal or the same fault, in the same state; and
    what one of them has come to, the other comes to, given enough.  The program may be evaluated
    in any environment and by any of the evaluators. -/
theorem host_call_agrees (loader? : Option Loader) (f : Value) (args : List Value) (hf : f ≠ .quit)
    (hargs : ∀ v ∈ args, v ≠ .quit) (origin : Origin) (head : Value) (exprs : List Value)
    (hhead : head.Quotes f) (hexprs : List.Forall₂ Value.Quotes exprs args) (env : Env)
    (s : State) (stray : Value → Env → Run Value) (mode : Mode) :
    (∀ steps room steps' room',
      Run.Settled (applyTo (within loader? steps room) f args s) →
      Run.Settled (mode.run stray loader? steps' room' (.list origin (head :: exprs)) env s) →
      applyTo (within loader? steps room) f args s
        = mode.run stray loader? steps' room' (.list origin (head :: exprs)) env s) ∧
    (∀ steps room, Run.Settled (applyTo (within loader? steps room) f args s) →
      ∃ enough, ∀ steps' room', enough ≤ steps' → enough ≤ room' →
        mode.run stray loader? steps' room' (.list origin (head :: exprs)) env s
          = applyTo (within loader? steps room) f args s) ∧
    ∀ steps room,
      Run.Settled (mode.run stray loader? steps room (.list origin (head :: exprs)) env s) →
      ∃ enough, ∀ steps' room', enough ≤ steps' → enough ≤ room' →
        applyTo (within loader? steps' room') f args s
          = mode.run stray loader? steps room (.list origin (head :: exprs)) env s := by
  have hsource : ∀ steps room, Run.Settled (applyTo (within loader? steps room) f args s) →
      ∃ enough, ∀ steps' room', enough ≤ steps' → enough ≤ room' →
        mode.run stray loader? steps' room' (.list origin (head :: exprs)) env s
          = applyTo (within loader? steps room) f args s := by
    intro steps room hs
    obtain ⟨cost, hcost⟩ := applyTo_within hf hargs hhead hexprs origin steps room env
    have hdirect : direct loader? cost (.list origin (head :: exprs)) env s = _ := hcost s hs
    -- the direct evaluator stands between: the call by the host is within it, and so is every other
    -- evaluator
    refine ⟨7 * cost, fun steps' room' hsteps hroom => ?_⟩
    have hmode := mode.direct_within stray loader? (.list origin (head :: exprs)) env
      (by omega : cost ≤ steps') hroom
    rw [hmode s (by rw [hdirect]; exact hs), hdirect]
  refine ⟨fun steps room steps' room' hs hs' => ?_, hsource, fun steps room hs => ?_⟩
  · obtain ⟨n, hn⟩ := hsource steps room hs
    -- in enough room the two agree, and a settled run has no other answer in any room
    have hother := hn n n (Nat.le_refl n) (Nat.le_refl n)
    rw [← hother]
    exact Mode.settled_eq hs' mode (by rw [hother]; exact hs)
  · obtain ⟨cost, hcost⟩ := mode.within_direct stray loader? (.list origin (head :: exprs)) env
      steps room
    have hdirect : direct loader? cost (.list origin (head :: exprs)) env s = _ := hcost s hs
    refine ⟨7 * (cost + 2), fun steps' room' hsteps hroom => ?_⟩
    have happly : Run.Within (direct loader? cost (.list origin (head :: exprs)) env)
        (applyTo (within loader? steps' room') f args) :=
      within_applyTo hf hargs hhead hexprs origin (by omega) hroom env
    rw [happly s (by rw [hdirect]; exact hs), hdirect]

/-- `(lambda (x) (begin (define y 2) (car x)))`. -/
def defineThenFail : Value :=
  .closure ["x"] (.ofItems [.symbol "begin", .ofItems [.symbol "define", .symbol "y", .int 2],
    .ofItems [.symbol "car", .symbol "x"]]) .empty

/-- A body that makes a definition and then fails, called from outside and from a program. -/
theorem host_call_agrees_failing : ∃ t : State, t.store.get? "y" = some (.int 2) ∧
    applyTo (within none 9 40) defineThenFail [.str "a"] .initial
      = .error (.error (.notPair "car" (.str "a"))) t ∧
    ∃ enough, ∀ steps room, enough ≤ steps → enough ≤ room →
      evaluate none steps room 0
          (.ofItems [.quoteOf defineThenFail, .quoteOf (.str "a")]) .empty .initial
        = .error (.error (.notPair "car" (.str "a"))) t := by
  -- the definition is made before the failure, and stays
  let t : State := ⟨⟨[("y", .int 2)]⟩, "", #[.defined "y"], [], 1⟩
  have happly : applyTo (within none 9 40) defineThenFail [.str "a"] .initial
      = .error (.error (.notPair "car" (.str "a"))) t := rfl
  have hargs : ∀ v ∈ [Value.str "a"], v ≠ .quit := by
    intro v hv
    cases List.mem_singleton.mp hv
    exact nofun
  have h := host_call_agrees none defineThenFail [.str "a"] nofun hargs .unknown
    (.quoteOf defineThenFail) [.quoteOf (.str "a")] ⟨.unknown, rfl⟩ (.cons ⟨.unknown, rfl⟩ .nil)
    .empty .initial (fun _ _ => pure .quit) .stepwise
  refine ⟨t, rfl, happly, ?_⟩
  rw [← happly]
  exact h.2.1 9 40 (by rw [happly]; rfl)

end Eval

end SmallScheme
