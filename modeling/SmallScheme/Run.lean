/-
  RUNS: computations that define, display, make, load and record.

  A run takes a state to a state, and to a value or a fault.  What it did before a fault stays
  done: the store keeps its definitions, and what has been displayed has been displayed.

  Two fields of the state are no part of what a program can see.  `made` counts lists and frames as
  they are made, so that no two have the same origin; a value that comes from outside is let in
  (`letIn`), and gets origins then.  `loading` is the list that the loader keeps, and
  `whileLoading` is the only run that changes it, and takes back what it has done however the run
  inside ends.

  An error is raised with room for its message.  Where that is too little, it is the writing of
  the message that has failed, and this is reported instead (`raise`).
-/
import SmallScheme.Event
import SmallScheme.Fault
import SmallScheme.Store
import SmallScheme.Value.Stamp

namespace SmallScheme

/-- What a run changes. -/
structure State where
  store : Store
  /-- All that has been displayed, on a stream that takes texts only. -/
  out : String
  /-- All that has been put on record. -/
  events : Array Event
  /-- The modules whose loading is in progress, the innermost first. -/
  loading : List Path
  /-- How many lists and frames have been made or let in. -/
  made : Nat

/-- The state of a fresh system. -/
def State.initial : State := ⟨.empty, "", #[], [], 0⟩

/-- A computation that may end in a fault. -/
abbrev Run := EStateM Fault State

namespace Run

/-- Ends in an error; or in the fault of writing its message, for which there is some room. -/
def raise {α : Type} (room : Nat) (e : Error) : Run α :=
  match e.limit? room with
  | some limit => throw (.ofLimit limit)
  | none => throw (.error e)

/-- The text, unless a limit stopped it. -/
def printed : Except Limit String → Run String
  | .ok text => pure text
  | .error limit => throw (.ofLimit limit)

/-- The origin of what is made next. -/
def fresh : Run Origin := fun s => .ok (.made s.made) { s with made := s.made + 1 }

/-- Lets a value in that comes from outside. -/
def letIn (v : Value) : Run Value := fun s =>
  let (v, made) := v.stamp s.made
  .ok v { s with made := made }

/-- Lets values in that come from outside. -/
def letInAll (vs : List Value) : Run (List Value) := fun s =>
  let (vs, made) := Value.stampAll s.made vs
  .ok vs { s with made := made }

/-- Lets an environment in that comes from outside. -/
def letInEnv (env : Env) : Run Env := fun s =>
  let (env, made) := env.stamp s.made
  .ok env { s with made := made }

/-- Displays a text. -/
def display (text : String) : Run Unit := modify fun s => { s with out := s.out ++ text }

/-- Displays code points, all of them or, if they are no text, none. -/
def displayCodes (codes : List Nat) : Run Unit :=
  match Text.ofCodes codes with
  | .ok text => display text
  | .error bad => throw (.unencodable bad)

/-- Puts an event on record. -/
def record (event : Event) : Run Unit :=
  modify fun s => { s with events := s.events.push event }

/-- Defines a name in the store. -/
def define (name : String) (v : Value) : Run Unit := do
  if (← get).store.contains name then
    record (.redefining name)
  modify fun s => { s with store := s.store.put name v }

/-- The run of `m`, with a fault of depth as an error of the program. -/
def guardDepth {α : Type} (m : Run α) : Run α :=
  tryCatch m fun
    | .tooDeep => throw (.error .tooDeep)
    | fault => throw fault

/-- The run of `m` while `path` is being loaded.  However `m` ends, `path` is then not being
    loaded any more. -/
def whileLoading {α : Type} (path : Path) (m : Run α) : Run α := fun s =>
  match m { s with loading := path :: s.loading } with
  | .ok a t => .ok a { t with loading := t.loading.erase path }
  | .error fault t => .error fault { t with loading := t.loading.erase path }

end Run

/-! ## Evaluators -/

/-- Something that evaluates expressions: the room that it has, and what it does with an
    expression that is `below` so much of it. -/
structure Evaluator where
  room : Nat
  run : (below : Nat) → Value → Env → Run Value

/-- The evaluator that has used up some of its room. -/
def Evaluator.deeper (ev : Evaluator) (used : Nat) : Evaluator :=
  ⟨ev.room - used, fun below => ev.run (used + below)⟩

end SmallScheme
