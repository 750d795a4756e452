/-
  TRACES: all that is evaluated in a run, in order.

  A moment is the evaluation of one expression: the expression, the environment, and the state at
  that time.  A traced run does what a run does and notes its moments: it is a host that notes every
  expression that is about to be evaluated, and nothing else.  So the loader, the evaluator and the
  interpreter are there as traced runs already (`Host.evaluate` and so on); here they only get names
  of their own.

  Structure:
    1. Traced runs as a host: what is noted, and that reading a file notes nothing.
    2. Programs as traced runs, by name.
    3. Without the list of moments they are what they were (`evaluate_run`, `loadPath_run`,
       `eval_run`, `loadFile_run`, `start_run`): that is what `Host.Relates` gives of a host that
       does what runs do (`Traced.relates_does`).

  So whatever holds of every moment in a trace holds at every point of the run itself.
-/
import SmallScheme.Proofs.Noted

namespace SmallScheme

/-- The evaluation of an expression in an environment, in the state of that time. -/
structure Moment where
  expr : Value
  env : Env
  state : State

/-- A run that notes its moments. -/
abbrev Traced (α : Type) : Type := Noted Moment α

/-! ## Traced runs as a host -/

namespace Traced

/-- Notes the present moment. -/
def mark (expr : Value) (env : Env) : Traced Unit := Noted.jot fun s => ⟨expr, env, s⟩

/-- Traced runs note each expression that is about to be evaluated, and take no notice of files. -/
instance : Host Traced where
  note
    | some (expr, env) => mark expr env
    | none => pure ()
  whileLoading := Noted.whileLoading
  guardDepth := Noted.guardDepth

/-- To read a file is no moment. -/
theorem readFile_run (loader : Loader) (file : Path) (k : String → Traced Value) :
    (Host.readFile loader file k).run = loader.readFile file fun source => (k source).run := by
  unfold Host.readFile Loader.readFile
  cases loader.text file <;> rfl

/-- What opening a file does, without the moments. -/
theorem openFile_run (loader : Loader) (room : Nat) (file : Path) (k : String → Traced Value) :
    (Host.openFile loader room file k).run
      = loader.openFile room file fun source => (k source).run := by
  funext s
  rw [Loader.openFile_apply, ← readFile_run]
  show Noted.run (if s.loading.contains file then _ else _ : Traced Value) s = _
  split <;> rfl

/-- All programs do as traced runs what they do as runs. -/
theorem relates_does (loader? : Option Loader) :
    Host.Relates (m := Traced) .everything loader? fun _ => Noted.Does where
  modules loader _ := Scope.everything_modules loader
  pure := .pure
  bind := .bind
  aloof hx := .lift hx.gives
  lookup _ _ _ _ _ := .lift fun _ v _ _ => Scope.everything_data v
  define _ _ _ _ := .lift fun _ v _ _ => Scope.everything_data v
  note _ _ hx := ⟨hx.run_eq, hx.gives⟩
  openFile := by
    intro loader room path k k' _ hk
    refine ⟨?_, fun _ v _ _ => Scope.everything_data v⟩
    rw [openFile_run, Loader.openFile, Loader.openFile,
      Loader.readFile_congr fun source htext => (hk source htext).run_eq]
  guardDepth := .guardDepth

end Traced

/-! ## Programs as traced runs -/

/-- Something that evaluates expressions in traced runs. -/
abbrev Watcher : Type := Host.Engine Traced

namespace Trace

/-- `Loader.loadPath`, traced. -/
abbrev loadPath (loader : Loader) (ev : Watcher) (path : Path) : Traced Value :=
  Host.loadPath loader ev path

/-- `Eval.step`, traced.  Where there is room for the step, it is a moment. -/
abbrev step (loader? : Option Loader) (ev : Watcher) (expr : Value) (env : Env) : Traced Reply :=
  Host.step loader? ev expr env

/-- `Eval.evaluate`, traced. -/
abbrev evaluate (loader? : Option Loader) (steps room below : Nat) (expr : Value) (env : Env) :
    Traced Value :=
  Host.evaluate loader? steps room below expr env

/-- `Eval.within`, traced. -/
abbrev within (loader? : Option Loader) (steps room : Nat) : Watcher :=
  Host.within loader? steps room

/-- `Interpreter.evaluator`, traced. -/
abbrev watcher (i : Interpreter) : Watcher := Host.engine i

/-- `Interpreter.evalForms`, traced. -/
abbrev evalForms (i : Interpreter) (last : Value) (forms : List Value) : Traced Value :=
  Host.evalForms i last forms

/-- `Interpreter.eval`, traced. -/
abbrev eval (i : Interpreter) (source : String) : Traced Value := Host.eval i source

/-- `Interpreter.loadFile`, traced. -/
abbrev loadFile (i : Interpreter) (path : Path) : Traced Value := Host.loadFile i path

/-- `Interpreter.loadPrelude`, traced. -/
abbrev loadPrelude (i : Interpreter) (names : List String) : Traced Bool := Host.loadPrelude i names

/-- `Interpreter.start`, traced. -/
abbrev start (loader : Loader) (room : Nat) (prelude : List String) : Traced Interpreter :=
  Host.start loader room prelude

/-! ## Without the list of moments -/

/-- The traced evaluator is the evaluator. -/
theorem evaluate_run (loader? : Option Loader) (steps room below : Nat) (expr : Value)
    (env : Env) :
    (evaluate loader? steps room below expr env).run
      = Eval.evaluate loader? steps room below expr env :=
  ((Traced.relates_does loader?).evaluate steps room below (Scope.everything_body expr)
    (Scope.everything_env env)).run_eq

/-- The traced loader is the loader, whatever loader the evaluator has. -/
theorem loadPath_run (loader : Loader) (loader? : Option Loader) (steps room : Nat) (path : Path) :
    (loadPath loader (within loader? steps room) path).run
      = loader.loadPath (Eval.within loader? steps room) path :=
  ((Traced.relates_does (some loader)).loadPath ((Traced.relates_does loader?).within steps room)
    rfl fun _ _ _ form _ => Scope.everything_code form).run_eq

/-- Forms are evaluated as without the list. -/
theorem evalForms_run (i : Interpreter) (last : Value) (forms : List Value) :
    (evalForms i last forms).run = i.evalForms last forms :=
  ((Traced.relates_does (some i.loader)).evalForms (Scope.everything_data last)
    fun form _ => Scope.everything_code form).run_eq

/-- So is a text, -/
theorem eval_run (i : Interpreter) (source : String) :
    (eval i source).run = i.eval source :=
  ((Traced.relates_does (some i.loader)).eval fun form _ => Scope.everything_code form).run_eq

/-- a file is loaded as without it, -/
theorem loadFile_run (i : Interpreter) (path : Path) :
    (loadFile i path).run = i.loadFile path :=
  ((Traced.relates_does (some i.loader)).loadFile
    fun _ _ _ form _ => Scope.everything_code form).run_eq

/-- and an interpreter is made. -/
theorem start_run (loader : Loader) (room : Nat) (prelude : List String) :
    (start loader room prelude).run = Interpreter.start loader room prelude :=
  ((Traced.relates_does (some loader)).start room fun _ _ => trivial).run_eq

end Trace

end SmallScheme
