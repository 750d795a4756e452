/-
  HOSTS: the same programs, run in other ways.

  Several of the results about runs need to see more of a run than its end: which expressions it
  evaluated and in which states, which files were being loaded around each of its moments, or what
  the same run would do on a second store.  To write the evaluator down once more for each of
  these would leave it open whether the copies do the same.  So it is written down once, for every
  host, and each of them is a host.

  1. **The notion** (`Host`).  A host is a kind of computation that programs can be run in.  It has
     runs in it, it is told whenever an expression is about to be evaluated or a file about to be
     read, and it may do more than a run does around the loading of a file and around a form.

  2. **The programs** (`Host.runForms` to `Host.start`): the loader, the evaluator and the
     interpreter for an arbitrary host, each beside the name of the definition it follows.

  3. **The comparison** (`Host.Relates scope loader? R`).  What the programs do in a host compares
     by `R` to what they do as runs, if four things do: looking up, defining, loading, and aloof
     runs.  Then so does the evaluation of every expression in scope (`Relates.evaluate`), by
     induction on the room, and all that an interpreter does (`loadPath`, `eval`, `loadFile`,
     `start`).  A result about all programs is thus an instance of `Relates`, with one field for
     each of those four.

  4. **Runs** are a host themselves, and there nothing is different (`relates_run`,
     `evaluate_run`).

  5. **Forms and more forms** (`runForms_append`, `evalForms_append`), in every lawful host.
-/
import SmallScheme.Interpreter
import SmallScheme.Proofs.Aloof
import SmallScheme.Proofs.Way

namespace SmallScheme

/-- A kind of computation that programs can be run in. -/
class Host (m : Type → Type) [Monad m] [MonadLiftT Run m] where
  /-- Takes note of the expression that is about to be evaluated, and of its environment; of
      nothing, if it is a file that is about to be read. -/
  note : Option (Value × Env) → m Unit
  whileLoading {α : Type} : Path → m α → m α
  guardDepth {α : Type} : m α → m α

/-- Runs take no notes. -/
instance : Host Run where
  note _ := pure ()
  whileLoading := Run.whileLoading
  guardDepth := Run.guardDepth

namespace Host

/-- Something that evaluates expressions in a host. -/
structure Engine (m : Type → Type) where
  room : Nat
  run : (below : Nat) → Value → Env → m Value

/-- The engine that has used up some of its room. -/
def Engine.deeper {m : Type → Type} (ev : Engine m) (used : Nat) : Engine m :=
  ⟨ev.room - used, fun below => ev.run (used + below)⟩

section Programs

variable {m : Type → Type} [Monad m] [MonadLiftT Run m]

/-- Ends in a fault. -/
def fail {α : Type} (fault : Fault) : m α := liftM (throw fault : Run α)

variable [Host m]

/-! ## The loader -/

/-- `Loader.runForms`. -/
def runForms (ev : Engine m) : List Value → m Bool
  | [] => pure false
  | form :: forms => do
    let form ← liftM (Run.letIn form)
    match ← ev.run Room.moduleForm form .empty with
    | .quit => pure true
    | _ => runForms ev forms

/-- `Loader.runScript`. -/
def runScript (ev : Engine m) (script : Script) : m Value := do
  match ← runForms ev script.forms with
  | true => pure .quit
  | false =>
    match script.fault? with
    | some fault => fail fault
    | none => pure .unspecified

/-- Goes on with the text of a file. -/
def readFile (loader : Loader) (file : Path) (k : String → m Value) : m Value :=
  match loader.text file with
  | .error fault => fail fault
  | .ok source => k source

/-- Opens a file, unless it is being loaded, and goes on with its text. -/
def openFile (loader : Loader) (room : Nat) (file : Path) (k : String → m Value) : m Value := do
  let s ← liftM (get : Run State)
  if s.loading.contains file then liftM (Run.raise room (.circularRequire file) : Run Value)
  else do
    liftM (Run.record (.loading file))
    whileLoading file do
      note none
      readFile loader file k

/-- `Loader.loadPath`. -/
def loadPath (loader : Loader) (ev : Engine m) (path : Path) : m Value :=
  if path.hasNull then fail .nullInPath
  else openFile loader ev.room (loader.absolute path) fun source =>
    runScript ev (.ofText (ev.room - Room.moduleText) source)

/-- `Loader.load`. -/
def load (loader : Loader) (ev : Engine m) (name : String) : m Value := do
  match ← liftM (loader.resolve name) with
  | some path => loadPath loader ev path
  | none => liftM (Run.raise ev.room (.moduleNotFound name loader.roots) : Run Value)

/-- `Eval.require`. -/
def require (loader? : Option Loader) (ev : Engine m) (name : String) : m Value :=
  match loader? with
  | some loader => load loader ev name
  | none => liftM (Run.raise ev.room (.noLoader name) : Run Value)

/-! ## The evaluator -/

/-- The way of a single step. -/
def way (loader? : Option Loader) (ev : Engine m) : Way m Reply where
  room := ev.room
  sub := ev.run
  load := require loader? ev
  last expr _ := pure (.part expr)
  enter body env := pure (.body body env)
  give v := pure (.done v)

/-- `Eval.step`.  Where there is room for the step, the host is told. -/
def step (loader? : Option Loader) (ev : Engine m) (expr : Value) (env : Env) : m Reply :=
  if ev.room = 0 then fail .tooDeep
  else do
    note (some (expr, env))
    (way loader? ev).eval expr env

/-- `Eval.follow`. -/
def follow (next : (used : Nat) → Value → Env → m Reply) :
    (steps : Nat) → (used : Nat) → (body? : Option Nat) → Value → Env → m Value
  | 0, _, _, _, _ => fail .tooLong
  | steps + 1, used, body?, expr, env => do
    match ← next used expr env with
    | .done v => pure v
    | .part expr => follow next steps (used + Room.part) body? expr env
    | .body expr env =>
      match body? with
      | some inner => follow next steps inner body? expr env
      | none => follow next steps (used + Room.body) (some (used + Room.body + 1)) expr env

/-- `Eval.evaluate`. -/
def evaluate (loader? : Option Loader) (steps : Nat) :
    (room : Nat) → (below : Nat) → Value → Env → m Value
  | 0, _, _, _ => fail .tooDeep
  | room + 1, below + 1, expr, env => evaluate loader? steps room below expr env
  | room + 1, 0, expr, env =>
    let ev : Engine m := ⟨room + 1, fun below => evaluate loader? steps room (below - 1)⟩
    follow (fun used => step loader? (ev.deeper used)) steps 0 none expr env

/-- `Eval.within`. -/
def within (loader? : Option Loader) (steps room : Nat) : Engine m :=
  ⟨room, evaluate loader? steps room⟩

/-! ## The interpreter -/

/-- `Interpreter.evaluator`. -/
def engine (i : Interpreter) : Engine m := within (some i.loader) Interpreter.maxSteps i.room

/-- `Interpreter.evalForms`. -/
def evalForms (i : Interpreter) (last : Value) : List Value → m Value
  | [] => pure last
  | form :: forms => do
    let form ← liftM (Run.letIn form)
    match ← guardDepth ((engine i).run 0 form .empty) with
    | .quit => pure .quit
    | v => evalForms i v forms

/-- `Interpreter.eval`. -/
def eval (i : Interpreter) (source : String) : m Value :=
  if i.halted then pure .quit
  else do
    let script := Script.ofText i.room source
    match ← evalForms i .unspecified script.forms with
    | .quit => pure .quit
    | v =>
      match script.fault? with
      | some fault => fail fault
      | none => pure v

/-- `Interpreter.loadFile`. -/
def loadFile (i : Interpreter) (path : Path) : m Value :=
  if i.halted then pure .quit
  else guardDepth (loadPath i.loader (engine i) path)

/-- `Interpreter.loadPrelude`. -/
def loadPrelude (i : Interpreter) : List String → m Bool
  | [] => pure false
  | name :: names => do
    match ← guardDepth (load i.loader (engine i) name) with
    | .quit => pure true
    | _ => loadPrelude i names

/-- `Interpreter.start`. -/
def start (loader : Loader) (room : Nat) (prelude : List String) : m Interpreter := do
  let i : Interpreter := ⟨loader, room, false⟩
  let halted ← loadPrelude i prelude
  pure { i with halted := halted }

end Programs

end Host

/-! ## What is compared -/

/-- Goes on with the text of a file. -/
def Loader.readFile (loader : Loader) (file : Path) (k : String → Run Value) : Run Value :=
  match loader.text file with
  | .error fault => throw fault
  | .ok source => k source

/-- Opens a file, unless it is being loaded, and goes on with its text. -/
def Loader.openFile (loader : Loader) (room : Nat) (file : Path) (k : String → Run Value) :
    Run Value := do
  if (← get).loading.contains file then Run.raise room (.circularRequire file)
  else
    Run.record (.loading file)
    Run.whileLoading file (loader.readFile file k)

/-- Opening a file, state by state.  That it is opened is on record before it is read. -/
theorem Loader.openFile_apply (loader : Loader) (room : Nat) (file : Path)
    (k : String → Run Value) (s : State) :
    loader.openFile room file k s
      = if s.loading.contains file then Run.raise room (.circularRequire file) s
        else Run.whileLoading file (loader.readFile file k)
          { s with events := s.events.push (.loading file) } := by
  show (if s.loading.contains file then Run.raise room (.circularRequire file)
    else _ : Run Value) s = _
  split <;> rfl

/-- Loading a file is opening it, and running the script that its text is. -/
theorem Loader.loadPath_eq (loader : Loader) (ev : Evaluator) (path : Path) :
    loader.loadPath ev path = if path.hasNull then throw .nullInPath
      else loader.openFile ev.room (loader.absolute path) fun source =>
        runScript ev (.ofText (ev.room - Room.moduleText) source) := rfl

/-- A file that is being loaded is refused before anything is done. -/
theorem Loader.loadPath_of_loading {loader : Loader} {path : Path} {s : State} (ev : Evaluator)
    (hnull : path.hasNull = false) (h : loader.absolute path ∈ s.loading) :
    loader.loadPath ev path s = .error (.error (.circularRequire (loader.absolute path))) s := by
  rw [loadPath_eq, if_neg (by rw [hnull]; exact Bool.false_ne_true), openFile_apply,
    if_pos (List.contains_iff_mem.mpr h)]
  rfl

/-- Any other file is read while it is in the list. -/
theorem Loader.loadPath_of_free {loader : Loader} {path : Path} {s : State} (ev : Evaluator)
    (hnull : path.hasNull = false) (h : loader.absolute path ∉ s.loading) :
    loader.loadPath ev path s
      = Run.whileLoading (loader.absolute path)
          (loader.readFile (loader.absolute path) fun source =>
            runScript ev (.ofText (ev.room - Room.moduleText) source))
          { s with events := s.events.push (.loading (loader.absolute path)) } := by
  rw [loadPath_eq, if_neg (by rw [hnull]; exact Bool.false_ne_true), openFile_apply,
    if_neg fun hmem => h (List.contains_iff_mem.mp hmem)]

/-- A file with a text is gone on with. -/
theorem Loader.readFile_of_text {loader : Loader} {file : Path} {source : String}
    (h : loader.text file = .ok source) (k : String → Run Value) :
    loader.readFile file k = k source := by
  rw [readFile, h]

/-- Only the text that the file has matters to what is done with it. -/
theorem Loader.readFile_congr {loader : Loader} {file : Path} {k k' : String → Run Value}
    (h : ∀ source, loader.text file = .ok source → k source = k' source) :
    loader.readFile file k = loader.readFile file k' := by
  unfold readFile
  cases htext : loader.text file with
  | error fault => rfl
  | ok source => exact h source htext

/-- Looking a name up, state by state: the frames come first. -/
theorem Eval.lookup_apply (room : Nat) (name : String) (env : Env) (s : State) :
    lookup room name env s = match env.lookup? name with
      | some v => .ok v s
      | none =>
        match s.store.get? name with
        | some v => .ok v s
        | none => Run.raise room (.unbound name) s := by
  unfold lookup
  cases env.lookup? name with
  | some v => rfl
  | none =>
    show (match s.store.get? name with
      | some v => _
      | none => _ : Run Value) s = _
    cases s.store.get? name <;> rfl

/-- A definition is made in the store, and put on record if there was one before. -/
theorem Run.define_apply (name : String) (v : Value) (s : State) :
    define name v s = .ok ()
      { s with
        store := s.store.put name v
        events := if s.store.contains name then s.events.push (.redefining name)
          else s.events } := by
  unfold define
  rw [bind_apply]
  show (if s.store.contains name then _ else _ : Run Unit) s = _
  split <;> rfl

/-- What a `define` form does once it has its value. -/
def Eval.defining (name : String) (v : Value) : Run Value := do
  Run.define name v
  Run.record (.defined name)
  pure (.symbol name)

/-- A `define` form leaves two notes on record if it replaces a definition, and one otherwise. -/
theorem Eval.defining_apply (name : String) (v : Value) (s : State) :
    defining name v s = .ok (.symbol name)
      { s with
        store := s.store.put name v
        events := (if s.store.contains name then s.events.push (.redefining name)
          else s.events).push (.defined name) } := by
  rw [defining, Run.bind_apply, Run.define_apply]
  rfl

/-- What is left to do is in scope, and so is a value. -/
def Scope.Reply (scope : Scope) : SmallScheme.Reply → Prop
  | .done v => scope.Data v
  | .part expr => scope.Code expr
  | .body expr env => scope.Body expr ∧ scope.Env env

/-- `R` compares computations of a host to runs, with what their values are good for.  It is
    respected by aloof runs, by what follows one after the other, and by all that is done with the
    names and modules in scope. -/
structure Host.Relates {m : Type → Type} [Monad m] [MonadLiftT Run m] [Host m] (scope : Scope)
    (loader? : Option Loader) (R : ⦃α : Type⦄ → (α → Prop) → m α → Run α → Prop) : Prop where
  modules : ∀ loader, loader? = some loader → scope.Modules loader
  pure : ∀ {α : Type} {good : α → Prop} {a : α}, good a → R good (pure a) (pure a)
  bind : ∀ {α β : Type} {good : α → Prop} {good' : β → Prop} {x : m α} {x' : Run α}
    {k : α → m β} {k' : α → Run β}, R good x x' → (∀ a, good a → R good' (k a) (k' a)) →
      R good' (x >>= k) (x' >>= k')
  aloof : ∀ {α : Type} {good : α → Prop} {x : Run α}, x.Aloof good → R good (liftM x) x
  lookup : ∀ room name env, scope.names name → scope.Env env →
    R scope.Data (liftM (Eval.lookup room name env)) (Eval.lookup room name env)
  define : ∀ name v, scope.defined name → scope.Data v →
    R scope.Data (liftM (Eval.defining name v)) (Eval.defining name v)
  note : ∀ {α : Type} {good : α → Prop} {x : m α} {x' : Run α} (expr : Value)
    (env : SmallScheme.Env), R good x x' → R good (Host.note (some (expr, env)) >>= fun _ => x) x'
  openFile : ∀ loader room path k k', loader? = some loader →
    (∀ source, loader.text (loader.absolute path) = .ok source →
      R scope.Data (k source) (k' source)) →
    R scope.Data (Host.openFile loader room (loader.absolute path) k)
      (loader.openFile room (loader.absolute path) k')
  guardDepth : ∀ {α : Type} {good : α → Prop} {x : m α} {x' : Run α},
    R good x x' → R good (Host.guardDepth x) (Run.guardDepth x')

namespace Host

section Relates

variable {m : Type → Type} [Monad m] [MonadLiftT Run m] [Host m] {scope : Scope}
  {loader? : Option Loader} {R : ⦃α : Type⦄ → (α → Prop) → m α → Run α → Prop}

/-- The engine has as much room as the evaluator, and compares to it on what is in scope. -/
structure Engine.Follows (scope : Scope) (R : ⦃α : Type⦄ → (α → Prop) → m α → Run α → Prop)
    (ev : Engine m) (ev' : Evaluator) : Prop where
  room : ev.room = ev'.room
  run : ∀ below expr env, scope.Body expr → scope.Env env →
    R scope.Data (ev.run below expr env) (ev'.run below expr env)

omit [Monad m] [MonadLiftT Run m] [Host m] in
/-- What is nested in an engine that follows still does. -/
theorem Engine.Follows.deeper {ev : Engine m} {ev' : Evaluator} (h : ev.Follows scope R ev')
    (used : Nat) : (ev.deeper used).Follows scope R (ev'.deeper used) :=
  ⟨congrArg (· - used) h.room, fun below => h.run (used + below)⟩

/-- A subexpression in scope, in the way of a single step. -/
theorem Engine.Follows.sub {ev : Engine m} {ev' : Evaluator} (h : ev.Follows scope R ev')
    {env : Env} (henv : scope.Env env) (below : Nat) {expr : Value} (hexpr : scope.Code expr) :
    R scope.Data ((way loader? ev).sub below expr env)
      ((Way.ofStep loader? ev').sub below expr env) :=
  h.run below expr env hexpr.body henv

variable (h : Relates scope loader? R)
include h

namespace Relates

/-- Errors are aloof. -/
theorem raise {α : Type} {good : α → Prop} (room : Nat) (e : Error) :
    R good (liftM (Run.raise room e)) (Run.raise room e) :=
  h.aloof (Run.raise_aloof room e)

/-- So are faults. -/
theorem fail {α : Type} {good : α → Prop} (fault : Fault) :
    R good (Host.fail fault) (throw fault) :=
  h.aloof (Run.Aloof.throw fault)

/-! ## The loader -/

/-- The forms of a file are let in and evaluated one after the other. -/
theorem runForms {ev : Engine m} {ev' : Evaluator} (hev : ev.Follows scope R ev')
    {forms : List Value} (hforms : ∀ form ∈ forms, scope.Code form) :
    R (fun _ => True) (Host.runForms ev forms) (Loader.runForms ev' forms) := by
  induction forms with
  | nil => exact h.pure trivial
  | cons form forms ih =>
    obtain ⟨hform, hforms⟩ := List.forall_mem_cons.mp hforms
    refine h.bind (h.aloof (Run.letIn_aloof hform)) fun form hform => ?_
    refine h.bind (hev.run _ form .empty hform.body Scope.env_empty) fun v _ => ?_
    cases v with
    | quit => exact h.pure trivial
    | _ => exact ih hforms

/-- A script runs its forms, and ends in the fault that cuts it off unless one of them quits. -/
theorem runScript {ev : Engine m} {ev' : Evaluator} (hev : ev.Follows scope R ev')
    {script : Script} (hforms : ∀ form ∈ script.forms, scope.Code form) :
    R scope.Data (Host.runScript ev script) (Loader.runScript ev' script) := by
  refine h.bind (h.runForms hev hforms) fun quits _ => ?_
  cases quits with
  | true => exact h.pure (Scope.data_of_parts rfl rfl)
  | false =>
    cases script.fault? with
    | some fault => exact h.fail fault
    | none => exact h.pure (Scope.data_of_parts rfl rfl)

/-- Loading a file asks for the names in its forms to be in scope, whichever text it turns out to
    have. -/
theorem loadPath {ev : Engine m} {ev' : Evaluator} (hev : ev.Follows scope R ev')
    {loader : Loader} (hloader : loader? = some loader) {path : Path}
    (hforms : ∀ source, loader.text (loader.absolute path) = .ok source →
      ∀ room, ∀ form ∈ (Script.ofText room source).forms, scope.Code form) :
    R scope.Data (Host.loadPath loader ev path) (loader.loadPath ev' path) := by
  rw [Host.loadPath, Loader.loadPath_eq, hev.room]
  split
  · exact h.fail _
  · exact h.openFile loader _ path _ _ hloader fun source hsource =>
      h.runScript hev (hforms source hsource _)

/-- A name that is in scope stands for files whose forms are: this is where `Scope.Modules` is
    used. -/
theorem load {ev : Engine m} {ev' : Evaluator} (hev : ev.Follows scope R ev') {loader : Loader}
    (hloader : loader? = some loader) {name : String} (hname : scope.modules name) :
    R scope.Data (Host.load loader ev name) (loader.load ev' name) := by
  rw [Host.load, Loader.load, hev.room]
  refine h.bind (h.aloof (Loader.resolve_aloof loader name)) fun path? hpath => ?_
  cases path? with
  | some path =>
    exact h.loadPath hev hloader (h.modules loader hloader name hname path (hpath path rfl))
  | none => exact h.raise _ _

/-- `require` loads, or complains that there is no loader. -/
theorem require {ev : Engine m} {ev' : Evaluator} (hev : ev.Follows scope R ev') {name : String}
    (hname : scope.modules name) :
    R scope.Data (Host.require loader? ev name) (Eval.require loader? ev' name) := by
  cases hloader : loader? with
  | some loader => exact h.load hev hloader hname
  | none =>
    rw [Host.require, Eval.require, hev.room]
    exact h.raise _ _

/-! ## A step -/

section Step

variable {ev : Engine m} {ev' : Evaluator} (hev : ev.Follows scope R ev') {env : Env}
  (henv : scope.Env env)
include hev henv

omit hev henv in
/-- What is left to a run. -/
theorem settle {x : Run Value} (hx : R scope.Data (liftM x) x) :
    R scope.Reply ((way loader? ev).settle x) ((Way.ofStep loader? ev').settle x) :=
  h.bind hx fun _ hv => h.pure hv

omit henv in
/-- A complaint. -/
theorem failWith (e : Error) :
    R scope.Reply ((way loader? ev).fail e) ((Way.ofStep loader? ev').fail e) := by
  rw [Way.fail, Way.fail, show (way loader? ev).room = (Way.ofStep loader? ev').room from hev.room]
  exact h.settle (h.raise _ e)

omit hev henv in
/-- What has quit has nothing more to do in the host either. -/
theorem unlessQuit {x : m Value} {x' : Run Value} {k : Value → m SmallScheme.Reply}
    {k' : Value → Run SmallScheme.Reply} (hx : R scope.Data x x')
    (hk : ∀ v, scope.Data v → R scope.Reply (k v) (k' v)) :
    R scope.Reply ((way loader? ev).unlessQuit x k)
      ((Way.ofStep loader? ev').unlessQuit x' k') := by
  refine h.bind hx fun v hv => ?_
  split
  · exact h.pure hv
  · exact hk _ hv

/-- Operands from left to right, and nothing if one of them quits. -/
theorem operands {exprs : List Value} (hexprs : ∀ expr ∈ exprs, scope.Code expr) :
    R (fun vs? => ∀ vs, vs? = some vs → ∀ v ∈ vs, scope.Data v)
      ((way loader? ev).operands env exprs) ((Way.ofStep loader? ev').operands env exprs) := by
  induction exprs with
  | nil =>
    refine h.pure fun vs hvs => ?_
    cases hvs
    exact fun _ hmem => (nomatch hmem)
  | cons expr exprs ih =>
    obtain ⟨hexpr, hexprs⟩ := List.forall_mem_cons.mp hexprs
    refine h.bind (hev.sub henv _ hexpr) fun v hv => ?_
    split
    -- a quit among the operands ends the call, and there are no values to speak of
    · exact h.pure nofun
    · refine h.bind (ih hexprs) fun vs? hvs => ?_
      split
      · refine h.pure fun vs heq => ?_
        cases heq
        exact List.forall_mem_cons.mpr ⟨hv, hvs _ rfl⟩
      · exact h.pure nofun

/-- `and`.  The last expression is left to do, with the same code in it. -/
theorem conjunction {exprs : List Value} (hexprs : ∀ expr ∈ exprs, scope.Code expr) :
    R scope.Reply ((way loader? ev).conjunction env exprs)
      ((Way.ofStep loader? ev').conjunction env exprs) := by
  induction exprs with
  | nil => exact h.pure (Primitive.data_bool _)
  | cons expr exprs ih =>
    obtain ⟨hexpr, hexprs⟩ := List.forall_mem_cons.mp hexprs
    cases exprs with
    | nil => exact h.pure hexpr
    | cons e es =>
      refine h.bind (hev.sub henv _ hexpr) fun v hv => ?_
      split
      · exact h.pure hv
      · exact h.pure hv
      · exact ih hexprs

/-- `or`. -/
theorem disjunction {exprs : List Value} (hexprs : ∀ expr ∈ exprs, scope.Code expr) :
    R scope.Reply ((way loader? ev).disjunction env exprs)
      ((Way.ofStep loader? ev').disjunction env exprs) := by
  induction exprs with
  | nil => exact h.pure (Primitive.data_bool _)
  | cons expr exprs ih =>
    obtain ⟨hexpr, hexprs⟩ := List.forall_mem_cons.mp hexprs
    cases exprs with
    | nil => exact h.pure hexpr
    | cons e es =>
      refine h.bind (hev.sub henv _ hexpr) fun v hv => ?_
      split
      · exact ih hexprs
      · exact h.pure hv

/-- `cond`, with the answer of `else` at the end of the clauses. -/
theorem choice {otherwise? : Option Value} {clauses : List (Value × Value)}
    (hform : scope.Form (.cond clauses otherwise?)) :
    R scope.Reply ((way loader? ev).choice env otherwise? clauses)
      ((Way.ofStep loader? ev').choice env otherwise? clauses) := by
  induction clauses with
  | nil =>
    cases otherwise? with
    | none => exact h.failWith hev _
    | some answer => exact h.pure (hform.2 answer rfl)
  | cons clause clauses ih =>
    obtain ⟨⟨hquestion, hanswer⟩, hclauses⟩ := List.forall_mem_cons.mp hform.1
    refine h.bind (hev.sub henv _ hquestion) fun v hv => ?_
    split
    · exact ih ⟨hclauses, hform.2⟩
    · exact h.pure hv
    · exact h.pure hanswer

/-- A body, up to the expression that is left to do. -/
theorem sequence {first : Value} {others : List Value} (hfirst : scope.Code first)
    (hothers : ∀ other ∈ others, scope.Code other) :
    R scope.Reply ((way loader? ev).sequence env first others)
      ((Way.ofStep loader? ev').sequence env first others) := by
  induction others generalizing first with
  | nil => exact h.pure hfirst
  -- what the first comes to is dropped, unless it quits
  | cons next others ih =>
    obtain ⟨hnext, hothers⟩ := List.forall_mem_cons.mp hothers
    refine h.bind (hev.sub henv _ hfirst) fun v hv => ?_
    split
    · exact h.pure hv
    · exact ih hnext hothers

omit henv in
/-- The body of a closure goes on in its own environment with the arguments in front. -/
theorem call {f : Value} {args : List Value} (hf : scope.Data f)
    (hargs : ∀ arg ∈ args, scope.Data arg) :
    R scope.Reply ((way loader? ev).call f args) ((Way.ofStep loader? ev').call f args) := by
  cases f with
  | closure formals body inner =>
    obtain ⟨hbody, hinner⟩ := Scope.data_closure.mp hf
    rw [Way.call, Way.call]
    split
    · refine h.bind (h.aloof Run.fresh_aloof) fun origin _ => ?_
      rw [Env.bind?]
      split
      -- the new frame holds the arguments, and the frames of the closure lie behind it
      · next hbound =>
        split at hbound <;> cases hbound
        exact h.pure ⟨hbody, Scope.env_frame.mpr ⟨hargs, hinner⟩⟩
      · exact h.settle (h.fail _)
    · exact h.failWith hev _
  | primitive name =>
    rw [Way.call, Way.call,
      show (way loader? ev).room = (Way.ofStep loader? ev').room from hev.room]
    exact h.settle (h.aloof (Primitive.call_aloof name _ hargs))
  | _ => exact h.failWith hev _

/-- A form of each kind.  All values of its parts are made of what is in scope, and so is its
    own. -/
theorem form {form : SmallScheme.Form} (hform : scope.Form form) :
    R scope.Reply ((way loader? ev).form env form) ((Way.ofStep loader? ev').form env form) := by
  cases form with
  | constant v => exact h.pure hform
  | identifier name =>
    rw [Way.form, Way.form,
      show (way loader? ev).room = (Way.ofStep loader? ev').room from hev.room]
    exact h.settle (h.lookup _ name env hform henv)
  | quote datum => exact h.pure hform
  | lambda formals body => exact h.pure (Scope.data_closure.mpr ⟨hform, henv⟩)
  | cond clauses otherwise? => exact h.choice hev henv hform
  -- a definition is evaluated in the empty environment: it sees no frame
  | define name expr =>
    refine h.unlessQuit (hev.sub Scope.env_empty _ hform.2) fun v hv => ?_
    exact h.settle (h.define name v hform.1 hv)
  | and exprs => exact h.conjunction hev henv hform
  | or exprs => exact h.disjunction hev henv hform
  | not operand =>
    exact h.unlessQuit (hev.sub henv _ hform) fun v _ => h.pure (Primitive.data_bool _)
  | begin first others => exact h.sequence hev henv hform.1 hform.2
  | require name =>
    exact h.unlessQuit (h.require hev hform) fun _ _ => h.pure (Scope.data_of_parts rfl rfl)
  | quit => exact h.pure (Scope.data_of_parts rfl rfl)
  | call head exprs =>
    refine h.unlessQuit (hev.sub henv _ hform.1) fun f hf => ?_
    refine h.bind (h.operands hev henv hform.2) fun args? hargs => ?_
    split
    · exact h.pure (Scope.data_of_parts rfl rfl)
    · exact h.call hev hf (hargs _ rfl)

/-- One step of what is in scope leaves something in scope. -/
theorem step {expr : Value} (hexpr : scope.Body expr) :
    R scope.Reply (Host.step loader? ev expr env) (Eval.step loader? ev' expr env) := by
  by_cases hroom : ev'.room = 0
  · rw [Host.step, Eval.step, if_pos hroom, if_pos (hev.room.trans hroom)]
    exact h.fail _
  · rw [Host.step, if_neg (hev.room ▸ hroom), Way.step_eq_eval loader? ev' env hroom]
    refine h.note expr env ?_
    rw [Way.eval, Way.eval]
    cases hform : Form.ofExpr? expr with
    | error e => exact h.failWith hev e
    | ok form => exact h.form hev henv (Form.ofExpr?_scope hexpr hform)

end Step

/-! ## A whole evaluation -/

/-- From step to step.  A part stays in its environment, a body brings its own. -/
theorem follow {next : Nat → Value → SmallScheme.Env → m SmallScheme.Reply}
    {next' : Nat → Value → SmallScheme.Env → Run SmallScheme.Reply}
    (hnext : ∀ used expr env, scope.Body expr → scope.Env env →
      R scope.Reply (next used expr env) (next' used expr env))
    (steps used : Nat) (body? : Option Nat) {expr : Value} {env : SmallScheme.Env}
    (hexpr : scope.Body expr) (henv : scope.Env env) :
    R scope.Data (Host.follow next steps used body? expr env)
      (Eval.follow next' steps used body? expr env) := by
  induction steps generalizing used body? expr env with
  | zero => exact h.fail _
  | succ steps ih =>
    rw [Host.follow, Eval.follow]
    refine h.bind (hnext used expr env hexpr henv) fun reply hreply => ?_
    cases reply with
    | done v => exact h.pure hreply
    | part expr => exact ih _ _ hreply.body henv
    | body expr env =>
      -- the first body is entered from outside, every other takes its place
      cases body? with
      | some inner => exact ih _ _ hreply.1 hreply.2
      | none => exact ih _ _ hreply.1 hreply.2

/-- The evaluation of an expression in scope compares to its evaluation as a run. -/
theorem evaluate (steps room below : Nat) {expr : Value} {env : SmallScheme.Env}
    (hexpr : scope.Body expr) (henv : scope.Env env) :
    R scope.Data (Host.evaluate loader? steps room below expr env)
      (Eval.evaluate loader? steps room below expr env) := by
  induction room generalizing below expr env with
  | zero => exact h.fail _
  | succ room ih =>
    cases below with
    | succ below => exact ih below hexpr henv
    | zero =>
      refine h.follow (fun used expr env hexpr henv => ?_) steps 0 none hexpr henv
      have hev : Engine.Follows scope R
          ⟨room + 1, fun below => Host.evaluate loader? steps room (below - 1)⟩
          ⟨room + 1, fun below => Eval.evaluate loader? steps room (below - 1)⟩ :=
        ⟨rfl, fun below expr env hexpr henv => ih (below - 1) hexpr henv⟩
      exact h.step (hev.deeper used) henv hexpr

/-- What is nested in an evaluation follows as well. -/
theorem within (steps room : Nat) :
    (Host.within loader? steps room).Follows scope R (Eval.within loader? steps room) :=
  ⟨rfl, fun below _ _ hexpr henv => h.evaluate steps room below hexpr henv⟩

end Relates

end Relates

/-! ## The interpreter -/

namespace Relates

section Interpreter

variable {m : Type → Type} [Monad m] [MonadLiftT Run m] [Host m] {scope : Scope}
  {R : ⦃α : Type⦄ → (α → Prop) → m α → Run α → Prop} {i : Interpreter}
  (h : Relates scope (some i.loader) R)
include h

/-- The engine of an interpreter follows its evaluator. -/
theorem engine : (Host.engine i).Follows scope R i.evaluator := h.within Interpreter.maxSteps i.room

/-- The forms of a text. -/
theorem evalForms {last : Value} (hlast : scope.Data last) {forms : List Value}
    (hforms : ∀ form ∈ forms, scope.Code form) :
    R scope.Data (Host.evalForms i last forms) (i.evalForms last forms) := by
  induction forms generalizing last with
  | nil => exact h.pure hlast
  | cons form forms ih =>
    obtain ⟨hform, hforms⟩ := List.forall_mem_cons.mp hforms
    refine h.bind (h.aloof (Run.letIn_aloof hform)) fun form hform => ?_
    refine h.bind (h.guardDepth (h.engine.run 0 form .empty hform.body Scope.env_empty)) ?_
    intro v hv
    cases v with
    | quit => exact h.pure hv
    | _ => exact ih hv hforms

/-- A whole text, if the names in it are in scope. -/
theorem eval {source : String}
    (hforms : ∀ form ∈ (Script.ofText i.room source).forms, scope.Code form) :
    R scope.Data (Host.eval i source) (i.eval source) := by
  rw [Host.eval, Interpreter.eval]
  split
  · exact h.pure (Scope.data_of_parts rfl rfl)
  · have hlast : scope.Data .unspecified := Scope.data_of_parts rfl rfl
    refine h.bind (h.evalForms hlast hforms) fun v hv => ?_
    cases v with
    | quit => exact h.pure hv
    | _ =>
      cases (Script.ofText i.room source).fault? with
      | some fault => exact h.fail fault
      | none => exact h.pure hv

/-- A file that is loaded from outside. -/
theorem loadFile {path : Path}
    (hforms : ∀ source, i.loader.text (i.loader.absolute path) = .ok source →
      ∀ room, ∀ form ∈ (Script.ofText room source).forms, scope.Code form) :
    R scope.Data (Host.loadFile i path) (i.loadFile path) := by
  rw [Host.loadFile, Interpreter.loadFile]
  split
  · exact h.pure (Scope.data_of_parts rfl rfl)
  · exact h.guardDepth (h.loadPath h.engine rfl hforms)

/-- The prelude, module by module. -/
theorem loadPrelude {names : List String} (hnames : ∀ name ∈ names, scope.modules name) :
    R (fun _ => True) (Host.loadPrelude i names) (i.loadPrelude names) := by
  induction names with
  | nil => exact h.pure trivial
  | cons name names ih =>
    obtain ⟨hname, hnames⟩ := List.forall_mem_cons.mp hnames
    refine h.bind (h.guardDepth (h.load h.engine rfl hname)) fun v _ => ?_
    cases v with
    | quit => exact h.pure trivial
    | _ => exact ih hnames

end Interpreter

/-- An interpreter starts in the host as it does as a run. -/
theorem start {m : Type → Type} [Monad m] [MonadLiftT Run m] [Host m] {scope : Scope}
    {loader : Loader} {R : ⦃α : Type⦄ → (α → Prop) → m α → Run α → Prop}
    (h : Relates scope (some loader) R) (room : Nat) {prelude : List String}
    (hnames : ∀ name ∈ prelude, scope.modules name) :
    R (fun _ => True) (Host.start loader room prelude) (Interpreter.start loader room prelude) :=
  h.bind (h.loadPrelude (i := ⟨loader, room, false⟩) hnames) fun _ _ => h.pure trivial

end Relates

/-! ## Runs as a host -/

/-- In the host of runs, opening a file is what it is. -/
theorem openFile_run (loader : Loader) (room : Nat) (file : Path) (k : String → Run Value) :
    openFile loader room file k = loader.openFile room file k := rfl

/-- As a host, runs do what they do. -/
theorem relates_run (loader? : Option Loader) :
    Relates .everything loader? fun _ good (x x' : Run _) => x = x' ∧ x'.Gives good where
  modules loader _ := Scope.everything_modules loader
  pure ha := ⟨rfl, Run.Gives.pure ha⟩
  bind := by
    rintro α β good good' x _ k k' ⟨rfl, hx⟩ hk
    refine ⟨?_, hx.bind fun a ha => (hk a ha).2⟩
    funext s
    rw [Run.bind_apply, Run.bind_apply]
    -- after a fault nothing is left to compare
    cases hs : x s with
    | ok a t => exact congrFun (hk a (hx s a t hs)).1 t
    | error fault t => rfl
  aloof hx := ⟨rfl, hx.gives⟩
  lookup _ _ _ _ _ := ⟨rfl, fun _ v _ _ => Scope.everything_data v⟩
  define _ _ _ _ := ⟨rfl, fun _ v _ _ => Scope.everything_data v⟩
  note _ _ hx := hx
  openFile loader room path k k' _ hk := by
    refine ⟨?_, fun _ v _ _ => Scope.everything_data v⟩
    rw [openFile_run, Loader.openFile, Loader.openFile,
      Loader.readFile_congr fun source htext => (hk source htext).1]
  guardDepth hx := ⟨congrArg Run.guardDepth hx.1, hx.2.guardDepth⟩

/-- Evaluation in the host of runs is evaluation. -/
theorem evaluate_run (loader? : Option Loader) (steps room below : Nat) (expr : Value)
    (env : Env) :
    (evaluate loader? steps room below expr env : Run Value)
      = Eval.evaluate loader? steps room below expr env :=
  ((relates_run loader?).evaluate steps room below (Scope.everything_body expr)
    (Scope.everything_env env)).1

/-- So is the evaluation of forms. -/
theorem evalForms_run (i : Interpreter) (last : Value) (forms : List Value) :
    (evalForms i last forms : Run Value) = i.evalForms last forms :=
  ((relates_run (some i.loader)).evalForms (Scope.everything_data last)
    fun form _ => Scope.everything_code form).1

end Host

/-! ## Forms and more forms -/

/-- Is the value the quit signal? -/
def Value.quits : Value → Bool
  | .quit => true
  | _ => false

/-- Only the quit signal quits. -/
theorem Value.quits_eq_false {v : Value} (h : v ≠ .quit) : v.quits = false := by
  cases v <;> first | rfl | exact absurd rfl h

section Append

variable {m : Type → Type} [Monad m] [LawfulMonad m] [MonadLiftT Run m]

/-- The forms of a file and more forms: the latter come after, unless one of the former quits. -/
theorem Host.runForms_append (ev : Engine m) (forms more : List Value) :
    runForms ev (forms ++ more)
      = runForms ev forms >>= fun quits => if quits then pure true else runForms ev more := by
  induction forms with
  | nil => simp [runForms]
  | cons form forms ih =>
    rw [List.cons_append, runForms, runForms]
    simp only [bind_assoc]
    congr 1
    funext form
    congr 1
    funext v
    split
    · simp
    · exact ih

/-- So it is where a value is wanted, which is that of the last form of all. -/
theorem Host.evalForms_append [Host m] (i : Interpreter) {last : Value}
    (hlast : last.quits = false) (forms more : List Value) :
    (evalForms i last (forms ++ more) : m Value)
      = evalForms i last forms >>= fun v => if v.quits then pure .quit else evalForms i v more := by
  induction forms generalizing last with
  | nil => simp [evalForms, hlast]
  | cons form forms ih =>
    rw [List.cons_append, evalForms, evalForms]
    simp only [bind_assoc]
    congr 1
    funext form
    congr 1
    funext v
    split
    · simp [Value.quits]
    · next hv => exact ih (Value.quits_eq_false hv)

end Append

/-- As runs, too. -/
theorem Interpreter.evalForms_append (i : Interpreter) {last : Value} (hlast : last.quits = false)
    (forms more : List Value) :
    i.evalForms last (forms ++ more)
      = i.evalForms last forms >>= fun v =>
        if v.quits then pure .quit else i.evalForms v more := by
  simpa only [Host.evalForms_run] using Host.evalForms_append (m := Run) i hlast forms more

end SmallScheme
