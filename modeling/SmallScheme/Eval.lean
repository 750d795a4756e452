/-
  EVALUATION.

  `step` does one step: it ends with a value, or it says with which expression the evaluation goes
  on.  The latter is so wherever nothing is left to do afterwards: in the chosen answer of a
  `cond`, the last operand of `and`, `or` and `begin`, and the body of a closure.  `follow` goes
  on for as long as there is something to go on with.

  Subexpressions are evaluated in the room that their construct leaves.  What goes on inside the
  same form takes room as well; but the bodies of closures that call one another in this way take
  the place of each other.  So a chain of such calls, however long, never makes the evaluation
  deeper.

  A program that quits gives the quit signal for a value.  Every place below that needs the value
  of a subexpression hands the signal on instead of using it.
-/
import SmallScheme.Form
import SmallScheme.Loader

namespace SmallScheme

/-- What one step of evaluation comes to. -/
inductive Reply where
  | done (v : Value)
  /-- A part of the expression is left, in the same environment. -/
  | part (expr : Value)
  /-- The body of a closure is left, in an environment of its own. -/
  | body (expr : Value) (env : Env)

namespace Eval

/-! ## The parts of a step -/

/-- What a name is bound to: in the frames, or else in the store. -/
def lookup (room : Nat) (name : String) (env : Env) : Run Value := do
  match env.lookup? name with
  | some v => pure v
  | none =>
    match (← get).store.get? name with
    | some v => pure v
    | none => Run.raise room (.unbound name)

/-- Goes on with the value of `m`; but the quit signal is handed on. -/
def unlessQuit (m : Run Value) (k : Value → Run Reply) : Run Reply := do
  match ← m with
  | .quit => pure (.done .quit)
  | v => k v

/-- The values of operands, from left to right; nothing, if one of them quits. -/
def operands (ev : Evaluator) (env : Env) : List Value → Run (Option (List Value))
  | [] => pure (some [])
  | expr :: exprs => do
    match ← ev.run Room.operand expr env with
    | .quit => pure none
    | v =>
      match ← operands ev env exprs with
      | some vs => pure (some (v :: vs))
      | none => pure none

/-- Operands up to the first that is false. -/
def conjunction (ev : Evaluator) (env : Env) : List Value → Run Reply
  | [] => pure (.done (.bool true))
  | [expr] => pure (.part expr)
  | expr :: exprs => do
    match ← ev.run Room.part expr env with
    | .bool false => pure (.done (.bool false))
    | .quit => pure (.done .quit)
    | _ => conjunction ev env exprs

/-- Operands up to the first that is not false. -/
def disjunction (ev : Evaluator) (env : Env) : List Value → Run Reply
  | [] => pure (.done (.bool false))
  | [expr] => pure (.part expr)
  | expr :: exprs => do
    match ← ev.run Room.part expr env with
    | .bool false => disjunction ev env exprs
    | v => pure (.done v)

/-- The answer to the first question that is not answered with false. -/
def choice (ev : Evaluator) (env : Env) (otherwise? : Option Value) :
    List (Value × Value) → Run Reply
  | [] =>
    match otherwise? with
    | some answer => pure (.part answer)
    | none => Run.raise ev.room .noTrueQuestion
  | (question, answer) :: clauses => do
    match ← ev.run Room.part question env with
    | .bool false => choice ev env otherwise? clauses
    | .quit => pure (.done .quit)
    | _ => pure (.part answer)

/-- Forms one after the other; the last one gives the value. -/
def sequence (ev : Evaluator) (env : Env) (first : Value) : List Value → Run Reply
  | [] => pure (.part first)
  | next :: others => do
    match ← ev.run Room.part first env with
    | .quit => pure (.done .quit)
    | _ => sequence ev env next others

/-- Is the value false?  Only `#f` is. -/
def isFalse : Value → Bool
  | .bool false => true
  | _ => false

/-- Calls a function with arguments.  Of a closure, the body is what is left to do. -/
def call (room : Nat) (f : Value) (args : List Value) : Run Reply :=
  match f with
  | .closure formals body env =>
    if args.length = formals.length then do
      let origin ← Run.fresh
      match env.bind? origin formals args with
      | some inner => pure (.body body inner)
      | none => throw .unequalFrame
    else Run.raise room (.closureArity f formals.length args.length)
  | .primitive name => do
    let v ← Primitive.call name (room - Room.primitive) args
    pure (.done v)
  | _ => Run.raise room (.notFunction f)

/-- Loads a module, for its effect. -/
def require (loader? : Option Loader) (ev : Evaluator) (name : String) : Run Value :=
  match loader? with
  | some loader => loader.load ev name
  | none => Run.raise ev.room (.noLoader name)

/-! ## Steps and runs -/

/-- One step of the evaluation of a form. -/
def formStep (loader? : Option Loader) (ev : Evaluator) (env : Env) : Form → Run Reply
  | .constant v => pure (.done v)
  | .identifier name => do
    let v ← lookup ev.room name env
    pure (.done v)
  | .quote datum => pure (.done datum)
  | .lambda formals body => pure (.done (.closure formals body env))
  | .cond clauses otherwise? => choice ev env otherwise? clauses
  | .define name valueExpr =>
    unlessQuit (ev.run Room.part valueExpr .empty) fun v => do
      Run.define name v
      Run.record (.defined name)
      pure (.done (.symbol name))
  | .and exprs => conjunction ev env exprs
  | .or exprs => disjunction ev env exprs
  | .not operand =>
    unlessQuit (ev.run Room.part operand env) fun v => pure (.done (.bool (isFalse v)))
  | .begin first others => sequence ev env first others
  | .require name =>
    unlessQuit (require loader? ev name) fun _ => pure (.done .unspecified)
  | .quit => pure (.done .quit)
  | .call head exprs =>
    unlessQuit (ev.run Room.operator head env) fun f => do
      match ← operands ev env exprs with
      | none => pure (.done .quit)
      | some args => call ev.room f args

/-- One step of evaluation; `ev` evaluates the subexpressions. -/
def step (loader? : Option Loader) (ev : Evaluator) (expr : Value) (env : Env) : Run Reply :=
  if ev.room = 0 then throw .tooDeep
  else
    match Form.ofExpr? expr with
    | .error e => Run.raise ev.room e
    | .ok form => formStep loader? ev env form

/-- Goes on from step to step until there is a value.  `used` is the room that the step takes up,
    and `body?` what the body of a closure takes up once one has been entered. -/
def follow (next : (used : Nat) → Value → Env → Run Reply) :
    (steps : Nat) → (used : Nat) → (body? : Option Nat) → Value → Env → Run Value
  | 0, _, _, _, _ => throw .tooLong
  | steps + 1, used, body?, expr, env => do
    match ← next used expr env with
    | .done v => pure v
    | .part expr => follow next steps (used + Room.part) body? expr env
    | .body expr env =>
      match body? with
      | some inner => follow next steps inner body? expr env
      | none => follow next steps (used + Room.body) (some (used + Room.body + 1)) expr env

/-- Evaluates an expression `below` so much of the room; as long as subexpressions do not count,
    in at most so many steps. -/
def evaluate (loader? : Option Loader) (steps : Nat) :
    (room : Nat) → (below : Nat) → Value → Env → Run Value
  | 0, _, _, _ => throw .tooDeep
  | room + 1, below + 1, expr, env => evaluate loader? steps room below expr env
  | room + 1, 0, expr, env =>
    let ev : Evaluator := ⟨room + 1, fun below => evaluate loader? steps room (below - 1)⟩
    follow (fun used => step loader? (ev.deeper used)) steps 0 none expr env

/-- The evaluator that has so much room. -/
def within (loader? : Option Loader) (steps room : Nat) : Evaluator :=
  ⟨room, evaluate loader? steps room⟩

/-- Calls a function with arguments and runs it to its value. -/
def applyTo (ev : Evaluator) (f : Value) (args : List Value) : Run Value := do
  match ← call ev.room f args with
  | .done v => pure v
  | .part expr => ev.run Room.part expr .empty
  | .body expr env => ev.run Room.body expr env

end Eval

end SmallScheme
