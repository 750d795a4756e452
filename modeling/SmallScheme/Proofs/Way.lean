/-
  WAYS to evaluate a form.

  A form says which of its expressions are evaluated, in which order, and what is done with their
  values.  It does not say what evaluating an expression is.  `Way` holds the answers to that:

  * `sub`   — a subexpression whose value the form goes on with;
  * `last`  — the expression that is left when nothing else remains to be done for the form: the
              chosen answer of a `cond`, the last operand of `and`, `or` and `begin`;
  * `enter` — the body of a closure that the form calls;
  * `load`  — a module that the form requires;
  * `give`  — a value that the form has come to.

  `Way.eval` evaluates an expression in a given way, in any monad that has runs in it.  So a form is
  taken apart here and nowhere else.  There are two results:

  1. A step of the evaluator is one such way (`step_eq_eval`): what is left is handed back as a
     reply.  The lemmas before it say so for each kind of form.

  2. Ways whose answers are related evaluate every form to related results (`Way.Related.eval`).
     An evaluator that calls itself for the last expression of a form, or for every body, or one
     in another monad, is a way as well, and the relation is all that has to be shown of it.
-/
import SmallScheme.Eval
import SmallScheme.Proofs.Limit

namespace SmallScheme

/-- More room changes nothing about looking up, but that the complaint about an unbound name may
    meet a limit in less room. -/
theorem Eval.lookup_roomy (name : String) (env : Env) :
    Run.Roomy fun room => Eval.lookup room name env := by
  intro room room' h
  show Run.Within (lookup room name env) (lookup room' name env)
  unfold lookup
  split
  · exact Run.Within.refl _
  · refine (Run.Within.refl _).bind fun s => ?_
    split
    · exact Run.Within.refl _
    · exact Run.raise_roomy _ _ _ h

/-- A way to evaluate the parts of a form. -/
structure Way (m : Type → Type) (β : Type) where
  room : Nat
  sub : (below : Nat) → Value → Env → m Value
  load : String → m Value
  last : Value → Env → m β
  enter : Value → Env → m β
  give : Value → m β

namespace Way

section Evaluation

variable {m : Type → Type} [Monad m] [MonadLiftT Run m] {β : Type} (w : Way m β)

/-- Ends as a run of a value does. -/
def settle (x : Run Value) : m β := liftM x >>= w.give

/-- Ends in an error. -/
def fail (e : Error) : m β := w.settle (Run.raise w.room e)

/-- Goes on with the value of `x`; but the quit signal is handed on. -/
def unlessQuit (x : m Value) (k : Value → m β) : m β := do
  match ← x with
  | .quit => w.give .quit
  | v => k v

/-- The values of operands, from left to right; nothing, if one of them quits. -/
def operands (env : Env) : List Value → m (Option (List Value))
  | [] => pure (some [])
  | expr :: exprs => do
    match ← w.sub Room.operand expr env with
    | .quit => pure none
    | v =>
      match ← operands env exprs with
      | some vs => pure (some (v :: vs))
      | none => pure none

/-- Operands up to the first that is false. -/
def conjunction (env : Env) : List Value → m β
  | [] => w.give (.bool true)
  | [expr] => w.last expr env
  | expr :: exprs => do
    match ← w.sub Room.part expr env with
    | .bool false => w.give (.bool false)
    | .quit => w.give .quit
    | _ => conjunction env exprs

/-- Operands up to the first that is not false. -/
def disjunction (env : Env) : List Value → m β
  | [] => w.give (.bool false)
  | [expr] => w.last expr env
  | expr :: exprs => do
    match ← w.sub Room.part expr env with
    | .bool false => disjunction env exprs
    | v => w.give v

/-- The answer to the first question that is not answered with false. -/
def choice (env : Env) (otherwise? : Option Value) : List (Value × Value) → m β
  | [] =>
    match otherwise? with
    | some answer => w.last answer env
    | none => w.fail .noTrueQuestion
  | (question, answer) :: clauses => do
    match ← w.sub Room.part question env with
    | .bool false => choice env otherwise? clauses
    | .quit => w.give .quit
    | _ => w.last answer env

/-- Expressions one after the other; the last one gives the value. -/
def sequence (env : Env) (first : Value) : List Value → m β
  | [] => w.last first env
  | next :: others => do
    match ← w.sub Room.part first env with
    | .quit => w.give .quit
    | _ => sequence env next others

/-- Calls a function with arguments. -/
def call (f : Value) (args : List Value) : m β :=
  match f with
  | .closure formals body env =>
    if args.length = formals.length then do
      let origin ← liftM Run.fresh
      match env.bind? origin formals args with
      | some inner => w.enter body inner
      | none => w.settle (throw .unequalFrame)
    else w.fail (.closureArity f formals.length args.length)
  | .primitive name => w.settle (Primitive.call name (w.room - Room.primitive) args)
  | _ => w.fail (.notFunction f)

/-- Evaluates a form. -/
def form (env : Env) : Form → m β
  | .constant v => w.give v
  | .identifier name => w.settle (Eval.lookup w.room name env)
  | .quote datum => w.give datum
  | .lambda formals body => w.give (.closure formals body env)
  | .cond clauses otherwise? => w.choice env otherwise? clauses
  | .define name expr =>
    w.unlessQuit (w.sub Room.part expr .empty) fun v =>
      w.settle do
        Run.define name v
        Run.record (.defined name)
        pure (.symbol name)
  | .and exprs => w.conjunction env exprs
  | .or exprs => w.disjunction env exprs
  | .not operand =>
    w.unlessQuit (w.sub Room.part operand env) fun v => w.give (.bool (Eval.isFalse v))
  | .begin first others => w.sequence env first others
  | .require name => w.unlessQuit (w.load name) fun _ => w.give .unspecified
  | .quit => w.give .quit
  | .call head exprs =>
    w.unlessQuit (w.sub Room.operator head env) fun f => do
      match ← w.operands env exprs with
      | none => w.give .quit
      | some args => w.call f args

/-- Evaluates an expression. -/
def eval (expr : Value) (env : Env) : m β :=
  match Form.ofExpr? expr with
  | .error e => w.fail e
  | .ok form => w.form env form

end Evaluation

/-! ## A step of the evaluator -/

/-- The way of a single step: what is left is a part of the same form, or a body. -/
def ofStep (loader? : Option Loader) (ev : Evaluator) : Way Run Reply where
  room := ev.room
  sub := ev.run
  load := Eval.require loader? ev
  last expr _ := pure (.part expr)
  enter body env := pure (.body body env)
  give v := pure (.done v)

section Step

variable (loader? : Option Loader) (ev : Evaluator) (env : Env)

/-- A complaint has no value that would be given. -/
theorem fail_ofStep (e : Error) : (ofStep loader? ev).fail e = Run.raise ev.room e := by
  show (Run.raise ev.room e : Run Value) >>= _ = _
  unfold Run.raise
  cases e.limit? ev.room <;> rfl

/-- Operands are not left to anyone, so there is nothing to give. -/
theorem operands_ofStep (exprs : List Value) :
    (ofStep loader? ev).operands env exprs = Eval.operands ev env exprs := by
  induction exprs with
  | nil => rfl
  | cons expr exprs ih =>
    rw [operands, Eval.operands, ih]
    rfl

/-- `and`, with its last operand left as a part. -/
theorem conjunction_ofStep : (exprs : List Value) →
    (ofStep loader? ev).conjunction env exprs = Eval.conjunction ev env exprs
  | [] => rfl
  | [_] => rfl
  | _ :: e :: es => by
    -- the first operand is not the last, so both go by their third equation
    rw [conjunction, Eval.conjunction, conjunction_ofStep (e :: es)]
    rfl
    all_goals nofun

/-- `or`, likewise. -/
theorem disjunction_ofStep : (exprs : List Value) →
    (ofStep loader? ev).disjunction env exprs = Eval.disjunction ev env exprs
  | [] => rfl
  | [_] => rfl
  | _ :: e :: es => by
    rw [disjunction, Eval.disjunction, disjunction_ofStep (e :: es)]
    rfl
    all_goals nofun

/-- `cond`, likewise; where no question is true there is a complaint. -/
theorem choice_ofStep (otherwise? : Option Value) (clauses : List (Value × Value)) :
    (ofStep loader? ev).choice env otherwise? clauses
      = Eval.choice ev env otherwise? clauses := by
  induction clauses with
  | nil =>
    cases otherwise? with
    | none => exact fail_ofStep loader? ev _
    | some answer => rfl
  | cons clause clauses ih =>
    rw [choice, Eval.choice, ih]
    rfl

/-- A sequence, likewise. -/
theorem sequence_ofStep (first : Value) (others : List Value) :
    (ofStep loader? ev).sequence env first others = Eval.sequence ev env first others := by
  induction others generalizing first with
  | nil => rfl
  | cons next others ih =>
    rw [sequence, Eval.sequence, ih]
    rfl

/-- A closure's body is left as a body, in its own environment. -/
theorem call_ofStep (f : Value) (args : List Value) :
    (ofStep loader? ev).call f args = Eval.call ev.room f args := by
  cases f with
  | closure formals body inner =>
    rw [call, Eval.call]
    split
    · rfl
    · exact fail_ofStep loader? ev _
  | primitive name => rfl
  | _ => exact fail_ofStep loader? ev _

/-- A form of each kind. -/
theorem form_ofStep (form : Form) :
    (ofStep loader? ev).form env form = Eval.formStep loader? ev env form := by
  cases form with
  | constant v => rfl
  | identifier name => rfl
  | quote datum => rfl
  | lambda formals body => rfl
  | cond clauses otherwise? => exact choice_ofStep loader? ev env otherwise? clauses
  | define name expr =>
    -- the value that is settled is given as it is done
    have hk : ∀ v, (ofStep loader? ev).settle (do
          Run.define name v
          Run.record (.defined name)
          pure (.symbol name))
        = (do
          Run.define name v
          Run.record (.defined name)
          pure (.done (.symbol name))) := by
      intro v
      rw [settle]
      simp only [liftM, monadLift_self, bind_assoc, pure_bind]
      rfl
    rw [Way.form, Eval.formStep]
    simp only [hk]
    rfl
  | and exprs => exact conjunction_ofStep loader? ev env exprs
  | or exprs => exact disjunction_ofStep loader? ev env exprs
  | not operand => rfl
  | begin first others => exact sequence_ofStep loader? ev env first others
  | require name => rfl
  | quit => rfl
  | call head exprs =>
    rw [Way.form, Eval.formStep, operands_ofStep]
    simp only [call_ofStep]
    rfl

/-- Where there is room, a step evaluates in the way of a single step. -/
theorem step_eq_eval (h : ev.room ≠ 0) (expr : Value) :
    Eval.step loader? ev expr env = (ofStep loader? ev).eval expr env := by
  rw [Eval.step, if_neg h, Way.eval]
  cases Form.ofExpr? expr with
  | error e => exact (fail_ofStep loader? ev e).symm
  | ok form => exact (form_ofStep loader? ev env form).symm

end Step

/-! ## Related ways -/

section Related

variable {m m' : Type → Type} [Monad m] [Monad m'] [MonadLiftT Run m] [MonadLiftT Run m']
  {β γ : Type}

/-- Two ways with related answers in an environment.  `R` relates the computations on the way,
    which give the same, and `S` relates those that a form ends with. -/
structure Related (R : (α : Type) → m α → m' α → Prop) (S : m β → m' γ → Prop) (env : Env)
    (w : Way m β) (w' : Way m' γ) : Prop where
  pure : ∀ {α : Type} (a : α), R α (pure a) (pure a)
  bind : ∀ {α α' : Type} {x : m α} {x' : m' α} {k : α → m α'} {k' : α → m' α'},
    R α x x' → (∀ a, R α' (k a) (k' a)) → R α' (x >>= k) (x' >>= k')
  bindLast : ∀ {α : Type} {x : m α} {x' : m' α} {k : α → m β} {k' : α → m' γ},
    R α x x' → (∀ a, S (k a) (k' a)) → S (x >>= k) (x' >>= k')
  /-- A run that no room changes is related to itself in the room of the other way. -/
  act : ∀ {α : Type} (x : Nat → Run α), Run.Roomy x → R α (liftM (x w.room)) (liftM (x w'.room))
  sub : ∀ below expr inner, below ≤ Room.operand →
    R Value (w.sub below expr inner) (w'.sub below expr inner)
  load : ∀ name, R Value (w.load name) (w'.load name)
  last : ∀ expr, S (w.last expr env) (w'.last expr env)
  enter : ∀ body inner, S (w.enter body inner) (w'.enter body inner)
  give : ∀ v, S (w.give v) (w'.give v)

namespace Related

variable {R : (α : Type) → m α → m' α → Prop} {S : m β → m' γ → Prop} {env : Env} {w : Way m β}
  {w' : Way m' γ} (h : Related R S env w w')
include h

/-- The value of an operand, or of a part that takes no more room. -/
theorem subexpr (expr inner) {below : Nat} (hbelow : below ≤ Room.operand := by decide) :
    R Value (w.sub below expr inner) (w'.sub below expr inner) := h.sub below expr inner hbelow

/-- A run ends both in the same way, if no room changes it. -/
theorem settle {x : Nat → Run Value} (hx : Run.Roomy x) :
    S (w.settle (x w.room)) (w'.settle (x w'.room)) :=
  h.bindLast (h.act x hx) h.give

/-- So does a complaint. -/
theorem fail (e : Error) : S (w.fail e) (w'.fail e) := h.settle (Run.raise_roomy e)

/-- If the first value is the same, what comes next is the same for both. -/
theorem unlessQuit {x : m Value} {x' : m' Value} {k : Value → m β} {k' : Value → m' γ}
    (hx : R Value x x') (hk : ∀ v, S (k v) (k' v)) :
    S (w.unlessQuit x k) (w'.unlessQuit x' k') := by
  refine h.bindLast hx fun v => ?_
  split
  · exact h.give .quit
  · exact hk _

/-- Operands come to the same values, or to nothing in both. -/
theorem operands (exprs : List Value) :
    R (Option (List Value)) (w.operands env exprs) (w'.operands env exprs) := by
  induction exprs with
  | nil => exact h.pure _
  | cons expr exprs ih =>
    refine h.bind (h.subexpr expr env) fun v => ?_
    split
    · exact h.pure _
    · refine h.bind ih fun vs? => ?_
      split <;> exact h.pure _

/-- `and`: the operands are the same, and so is which of them is the last. -/
theorem conjunction : (exprs : List Value) →
    S (w.conjunction env exprs) (w'.conjunction env exprs)
  | [] => h.give _
  | [expr] => h.last expr
  | expr :: e :: es => by
    refine h.bindLast (h.subexpr expr env) fun v => ?_
    split
    · exact h.give _
    · exact h.give _
    · exact conjunction (e :: es)

/-- `or`. -/
theorem disjunction : (exprs : List Value) →
    S (w.disjunction env exprs) (w'.disjunction env exprs)
  | [] => h.give _
  | [expr] => h.last expr
  | expr :: e :: es => by
    refine h.bindLast (h.subexpr expr env) fun v => ?_
    split
    · exact disjunction (e :: es)
    · exact h.give _

/-- `cond`. -/
theorem choice (otherwise? : Option Value) (clauses : List (Value × Value)) :
    S (w.choice env otherwise? clauses) (w'.choice env otherwise? clauses) := by
  induction clauses with
  -- no question was true
  | nil =>
    cases otherwise? with
    | none => exact h.fail _
    | some answer => exact h.last answer
  | cons clause clauses ih =>
    refine h.bindLast (h.subexpr clause.1 env) fun v => ?_
    split
    · exact ih
    · exact h.give _
    · exact h.last clause.2

/-- A sequence. -/
theorem sequence (first : Value) (others : List Value) :
    S (w.sequence env first others) (w'.sequence env first others) := by
  induction others generalizing first with
  | nil => exact h.last first
  | cons next others ih =>
    refine h.bindLast (h.subexpr first env) fun v => ?_
    split
    · exact h.give _
    · exact ih next

/-- A call: a closure is entered with the same frame in both. -/
theorem call (f : Value) (args : List Value) : S (w.call f args) (w'.call f args) := by
  cases f with
  | closure formals body inner =>
    rw [Way.call, Way.call]
    split
    · refine h.bindLast (h.act _ (Run.Roomy.const Run.fresh)) fun origin => ?_
      split
      · exact h.enter body _
      · exact h.settle (Run.Roomy.const _)
    · exact h.fail _
  | primitive name => exact h.settle ((Primitive.call_roomy name args).less _)
  | _ => exact h.fail _

/-- A form of each kind. -/
theorem form (form : Form) : S (w.form env form) (w'.form env form) := by
  cases form with
  | constant v => exact h.give v
  | identifier name => exact h.settle (Eval.lookup_roomy name env)
  | quote datum => exact h.give datum
  | lambda formals body => exact h.give _
  | cond clauses otherwise? => exact h.choice otherwise? clauses
  | define name expr =>
    exact h.unlessQuit (h.subexpr expr .empty) fun v => h.settle (Run.Roomy.const _)
  | and exprs => exact h.conjunction exprs
  | or exprs => exact h.disjunction exprs
  | not operand => exact h.unlessQuit (h.subexpr operand env) fun v => h.give _
  | begin first others => exact h.sequence first others
  | require name => exact h.unlessQuit (h.load name) fun _ => h.give _
  | quit => exact h.give _
  | call head exprs =>
    refine h.unlessQuit (h.subexpr head env) fun f => ?_
    refine h.bindLast (h.operands exprs) fun args? => ?_
    split
    · exact h.give _
    · exact h.call f _

/-- Related ways evaluate an expression to related results. -/
theorem eval (expr : Value) : S (w.eval expr env) (w'.eval expr env) := by
  rw [Way.eval, Way.eval]
  cases Form.ofExpr? expr with
  | error e => exact h.fail e
  | ok form => exact h.form form

end Related

end Related

end Way

end SmallScheme
