/-
  EVENTS: what a run puts on record, apart from its output.

  An event has a level and a place where it comes from; those, its text, and the form in which a
  record is written are functions of the event.  So the record is kept as events, in the order in
  which they happened, and a threshold only decides which of them are written in the end
  (`records`): what a program does cannot depend on it.

  The texts of events are written without a limit, for what they show has been shown before: an
  error has its message, and a form that cannot be printed is not put on record at all.
-/
import SmallScheme.Error

namespace SmallScheme

/-- How much an event matters. -/
inductive Event.Level where
  | debug
  | info
  | warning
  | error
  deriving DecidableEq, Repr

/-- Something that happened in a run. -/
inductive Event where
  /-- A name that was defined before is about to get a new value. -/
  | redefining (name : String)
  /-- A `define` form has bound a name. -/
  | defined (name : String)
  /-- A place is looked at for a module. -/
  | trying (candidate : Path) (name : String)
  | loading (path : Path)
  /-- An error has been reported to the user. -/
  | reported (e : Error)
  /-- The evaluation of an expression went too deep. -/
  | tooDeepIn (expr : Value)
  /-- The input ended inside an expression. -/
  | discarding

namespace Event

/-- The level of an event. -/
def level : Event → Level
  | redefining _ | defined _ | trying _ _ => .debug
  | loading _ => .info
  | discarding => .warning
  | reported _ | tooDeepIn _ => .error

/-- The part of the system that an event comes from. -/
def source : Event → String
  | redefining _ => "schemer.definition_store"
  | defined _ => "schemer.evaluation.special_forms.define_form"
  | trying _ _ | loading _ => "schemer.modules.library_loader"
  | reported _ | tooDeepIn _ | discarding => "schemer.repl"

/-- What happened. -/
def text : Event → String
  | redefining name => s!"redefining {name}"
  | defined name => s!"defined {name}"
  | trying candidate name => s!"trying {candidate.text} for module {Text.quoted name}"
  | loading path => s!"loading module {path.text}"
  | reported e => s!"{e.kind.name}: {e.message}"
  | tooDeepIn expr => s!"recursion too deep while evaluating {expr.text true}"
  | discarding => "discarding incomplete input at end of stream"

/-- How a level is called. -/
def Level.name : Level → String
  | .debug => "DEBUG"
  | .info => "INFO"
  | .warning => "WARNING"
  | .error => "ERROR"

/-- How much a level weighs. -/
def Level.weight : Level → Nat
  | .debug => 10
  | .info => 20
  | .warning => 30
  | .error => 40

/-- The weight from which on events are recorded, by the name of a level.  There are more names
    than levels of events. -/
def threshold? : String → Option Nat
  | "NOTSET" => some 0
  | "DEBUG" => some 10
  | "INFO" => some 20
  | "WARN" | "WARNING" => some 30
  | "ERROR" => some 40
  | "FATAL" | "CRITICAL" => some 50
  | _ => none

/-- How an event is recorded. -/
def record (event : Event) : String :=
  s!"{event.level.name} {event.source}: {event.text}"

/-- The records of those events that weigh at least as much as the threshold. -/
def records (threshold : Nat) (events : List Event) : List String :=
  (events.filter fun event => threshold ≤ event.level.weight).map record

end Event

end SmallScheme
