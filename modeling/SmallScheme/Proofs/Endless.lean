/-
  EVALUATION WITHOUT END.

  There is code that every run of is stopped by a limit.  `Strays` says so of the reference
  evaluator, in all rooms up to a bound: then a form strays in one more room if it is bound to
  come to a part that strays, for what it does before that has only one outcome.  So a function
  that is bound to call itself strays in all rooms, by induction on the bound.

  Structure:
    1. Runs that are stopped by a limit from every state that differs from the given one in nothing
       but how much has been made (`Run.Endless`).
    2. Expressions that stray up to a bound, with one rule for each construct that the library
       needs: a choice, an operand, a call.
    3. What the evaluator of programs does with what strays up to every bound.

  A bound is needed since an expression that strays has no first room in which it would: every
  room is too little.
-/
import SmallScheme.Proofs.Bundled
import SmallScheme.Proofs.LoadedText

namespace SmallScheme

/-! ## Runs -/

namespace Run

variable {α β : Type} {s : State}

/-- Whatever has been made before, a limit stops the run. -/
def Endless (s : State) (x : Run α) : Prop :=
  ∀ made, ¬ Settled (x { s with made := made })

/-- A limit is met at once. -/
theorem Endless.limit {fault : Fault} (h : fault.isLimit = true) :
    Endless s (throw fault : Run α) := by
  intro made hsettled
  have hfault : fault.isLimit = false := hsettled
  rw [h] at hfault
  cases hfault

/-- What never ends has nothing after it. -/
theorem Endless.bind {x : Run α} (h : Endless s x) (k : α → Run β) : Endless s (x >>= k) :=
  fun made hsettled => h made (Settled.of_bind hsettled)

/-- Making something new is no end. -/
theorem Endless.bind_fresh {k : Origin → Run α} (hk : ∀ origin, Endless s (k origin)) :
    Endless s (fresh >>= k) :=
  fun made hsettled => hk (.made made) (made + 1) hsettled

/-- What comes to a value and can only go on to something without end has no end. -/
theorem Endless.after {act : Nat → Run α} {good : α → Prop}
    (hact : Comes s act fun outcome => ∃ a, outcome = .ok a ∧ good a) (hroomy : Roomy act)
    (room : Nat) {k : α → Run β} (hk : ∀ a, good a → Endless s (k a)) :
    Endless s (act room >>= k) := by
  intro made hsettled
  obtain ⟨_, made', ⟨a, rfl, hgood⟩, heq⟩ := hact.settled_eq hroomy made
  have hfirst := heq room (Settled.of_bind hsettled)
  rw [bind_apply, hfirst] at hsettled
  exact hk a hgood made' hsettled

end Run

/-! ## Expressions -/

namespace Eval

variable {loader? : Option Loader} {s : State} {env : Env}

/-- In no room up to the bound does the evaluation of the expression come to an end of its own. -/
def Strays (loader? : Option Loader) (s : State) (bound : Nat) (expr : Value) (env : Env) : Prop :=
  ∀ room, room ≤ bound → Run.Endless s (direct loader? room expr env)

/-- What strays up to a bound strays up to a lower one. -/
theorem Strays.mono {bound bound' : Nat} {expr : Value} (h : Strays loader? s bound' expr env)
    (hle : bound ≤ bound') : Strays loader? s bound expr env :=
  fun room hroom => h room (Nat.le_trans hroom hle)

/-- Without room a limit stops everything. -/
theorem Strays.zero (expr : Value) (env : Env) : Strays loader? s 0 expr env := by
  intro room hroom
  obtain rfl : room = 0 := Nat.le_zero.mp hroom
  exact Run.Endless.limit rfl

/-- A form strays in one more room than its parts. -/
theorem Strays.of_form {bound : Nat} {expr : Value} {form : Form}
    (hform : Form.ofExpr? expr = .ok form)
    (h : ∀ room, room ≤ bound → Run.Endless s ((inRoom loader? room).form env form)) :
    Strays loader? s (bound + 1) expr env := by
  intro room hroom
  cases room with
  | zero => exact Strays.zero expr env 0 (Nat.le_refl _)
  | succ room =>
    rw [direct, Way.eval, hform]
    exact h room (by omega)

/-- More room does not change what operands come to. -/
theorem operands_roomy (exprs : List Value) :
    Run.Roomy fun room => (inRoom loader? room).operands env exprs := by
  induction exprs with
  | nil => exact Run.Roomy.const _
  | cons expr exprs ih =>
    refine Run.Roomy.bind (fun room room' h => direct_mono h expr env) fun v => ?_
    cases v with
    | quit => exact Run.Roomy.const _
    | _ =>
      refine Run.Roomy.bind ih fun vs? => ?_
      cases vs? <;> exact Run.Roomy.const _

/-- A question that is answered with false, and then an answer that strays. -/
theorem Strays.cond {bound : Nat} {origin : Origin} {items : List Value}
    {question answer otherwise : Value}
    (hclauses : Form.clauses? items = .ok ([(question, answer)], some otherwise))
    (hquestion : Ends loader? s question env (· = .ok (.bool false)))
    (hotherwise : Strays loader? s bound otherwise env) :
    Strays loader? s (bound + 1) (.list origin (.symbol "cond" :: items)) env := by
  have hform : Form.ofExpr? (.list origin (.symbol "cond" :: items))
      = .ok (.cond [(question, answer)] (some otherwise)) := by
    show Form.special? .cond items = _
    rw [Form.special?, hclauses]
  have hfalse : Ends loader? s question env fun outcome =>
      ∃ v, outcome = .ok v ∧ v = .bool false := hquestion.mono fun _ h => ⟨_, h, rfl⟩
  refine Strays.of_form hform fun room hroom => ?_
  refine Run.Endless.after hfalse (fun room room' h => direct_mono h question env) room
    fun v hv => ?_
  subst hv
  exact hotherwise room hroom

/-- What is called is one function, and its operands are values of which `P` and `Q` hold; if
    the body of the function strays for all of those, so does the call. -/
theorem Strays.call_two (d : Definition) {bound next : Nat} {origin : Origin} {x y : String}
    {first second : Value} {P Q : Value → Prop} (hname : TopLevel d.name env)
    (hformals : d.formals = [x, y]) (hd : s.store.get? d.name = some (d.function next))
    (hfirst : Yields loader? s first env P) (hsecond : Yields loader? s second env Q)
    (hbody : ∀ v w frame, P v → Q w →
      Strays loader? s bound (d.body.stamp next).1 (.frame frame [x, y] [v, w] .empty)) :
    Strays loader? s (bound + 1) (.list origin [.symbol d.name, first, second]) env := by
  rw [Definition.function, hformals] at hd
  have hform : Form.ofExpr? (.list origin [.symbol d.name, first, second])
      = .ok (.call (.symbol d.name) [first, second]) := by
    have hhead : Value.keyword? [.symbol d.name] = none := hname.keyword
    rw [Form.ofExpr?, hhead]
  have hf : Ends loader? s (.symbol d.name) env fun outcome =>
      ∃ f, outcome = .ok f ∧ f = .closure [x, y] (d.body.stamp next).1 .empty :=
    Ends.stored hname.primitive hname.env hd ⟨_, rfl, rfl⟩
  have harrive : Arrive loader? s [first, second] env fun outcome =>
      ∃ v w, outcome = .ok [v, w] ∧ P v ∧ Q w :=
    Arrive.value hfirst fun v hv => Arrive.value hsecond fun w hw =>
      Arrive.nil ⟨v, w, rfl, hv, hw⟩
  have hargs : Run.Comes s (fun room => (inRoom loader? room).operands env [first, second])
      fun outcome => ∃ vs?, outcome = .ok vs? ∧ ∃ v w, vs? = some [v, w] ∧ P v ∧ Q w := by
    refine harrive.mono ?_
    rintro _ ⟨_, rfl, v, w, rfl, hv, hw⟩
    exact ⟨_, rfl, v, w, rfl, hv, hw⟩
  -- operator and operands come to their values, and then the body strays
  refine Strays.of_form hform fun room hroom => ?_
  refine Run.Endless.after hf (fun room room' h => direct_mono h _ env) room fun f hf => ?_
  subst hf
  refine Run.Endless.after hargs (operands_roomy [first, second]) room ?_
  rintro _ ⟨v, w, rfl, hv, hw⟩
  exact Run.Endless.bind_fresh fun frame => hbody v w frame hv hw room hroom

/-- A call of a primitive needs its second operand. -/
theorem Strays.second_operand {bound : Nat} {origin : Origin} {name : String} {p : Primitive}
    {first second : Value} {P : Value → Prop} (hname : Primitive.ofName? name = some p)
    (hkeyword : Keyword.ofName? name = none) (hfirst : Yields loader? s first env P)
    (hsecond : Strays loader? s bound second env) :
    Strays loader? s (bound + 1) (.list origin [.symbol name, first, second]) env := by
  have hform : Form.ofExpr? (.list origin [.symbol name, first, second])
      = .ok (.call (.symbol name) [first, second]) := by
    have hhead : Value.keyword? [.symbol name] = none := hkeyword
    rw [Form.ofExpr?, hhead]
  have hhead : Form.ofExpr? (.symbol name) = .ok (.constant (.primitive name)) := by
    rw [Form.ofExpr?, hname]
    rfl
  have hf : Ends loader? s (.symbol name) env fun outcome =>
      ∃ f, outcome = .ok f ∧ f = .primitive name := Ends.constant hhead ⟨_, rfl, rfl⟩
  refine Strays.of_form hform fun room hroom => ?_
  refine Run.Endless.after hf (fun room room' h => direct_mono h _ env) room fun f hf => ?_
  subst hf
  refine Run.Endless.bind (Run.Endless.after hfirst (fun room room' h => direct_mono h _ env)
    room ?_) _
  rintro v ⟨hquit, -⟩
  have hrest : Run.Endless s ((inRoom loader? room).operands env [second]) :=
    Run.Endless.bind (hsecond room hroom) _
  -- the first operand is no quit, so the second one is evaluated
  cases v with
  | quit => exact absurd rfl hquit
  | _ => exact Run.Endless.bind hrest _

/-! ## What the evaluator does with it -/

/-- What the reference evaluator strays in, in all rooms, a limit stops every time. -/
theorem evaluate_not_settled {expr : Value} (h : ∀ bound, Strays loader? s bound expr env)
    (steps room below : Nat) :
    ¬ Run.Settled (evaluate loader? steps room below expr env s) := by
  intro hsettled
  rw [evaluate_below] at hsettled
  obtain ⟨cost, hcost⟩ := evaluate_within loader? steps (room - below)
  have hdirect := hcost (room - below) (Nat.le_refl _) expr env s hsettled
  rw [← hdirect] at hsettled
  exact h cost cost (Nat.le_refl _) s.made hsettled

/-- A call of a function that strays in its body is stopped by a limit in every run. -/
theorem call_two_not_settled {d : Definition} {x y : String} {v w : Value}
    (hname : TopLevel d.name env) (hformals : d.formals = [x, y]) (hd : s.store.Binds d)
    (hv : v ≠ .quit) (hw : w ≠ .quit)
    (hbody : ∀ next bound frame, s.store.get? d.name = some (d.function next) →
      Strays loader? s bound (d.body.stamp next).1 (.frame frame [x, y] [v, w] .empty))
    (steps room below : Nat) :
    ¬ Run.Settled (evaluate loader? steps room below (.callOf d.name [v, w]) env s) := by
  obtain ⟨next, hnext⟩ := hd
  refine evaluate_not_settled (fun bound => ?_) steps room below
  refine Strays.mono (Strays.call_two d hname hformals hnext (Yields.quoteOf hv)
    (Yields.quoteOf hw) ?_) (Nat.le_succ bound)
  rintro _ _ frame rfl rfl
  exact hbody next bound frame hnext

end Eval

end SmallScheme
