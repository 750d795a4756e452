/-
  SESSIONS: several interpreters side by side.

  Every interpreter works on a store of its own or on the store that all share.  A step belongs
  to one interpreter and touches its store only; what is put on record goes to one record for
  all.

  A state is made up for each step (`perform`): from the store of the interpreter, from the record
  of the session, with nothing displayed and with no file being loaded.  What the step leaves in
  it goes back to where it came from.  The list of files being loaded is not kept, since it is
  empty again whenever a step ends; that this is so is proved where sessions are looked at.
-/
import SmallScheme.Interpreter

namespace SmallScheme

/-- An interpreter of a session, and the number of its store. -/
structure Session.Member where
  interpreter : Interpreter
  store : Nat

/-- A store, and how many lists and frames those who work on it have made or let in. -/
structure Session.Memory where
  store : Store
  made : Nat

/-- The memory in which nothing is. -/
def Session.Memory.empty : Session.Memory := ⟨.empty, 0⟩

/-- Interpreters and the stores they work on; store zero is the shared one. -/
structure Session where
  memories : List Session.Memory
  /-- The interpreters in the order in which they were made; nothing, where that failed. -/
  members : List (Option Session.Member)
  events : Array Event

/-- What a step has come to: its result, what it displayed, and the names defined after it. -/
structure Session.Outcome (α : Type) where
  result : Except Fault α
  out : String
  names : List String

namespace Session

/-- The session without interpreters. -/
def empty : Session := ⟨[.empty], [], #[]⟩

/-- A run on one of the stores. -/
def perform {α : Type} (s : Session) (store : Nat) (m : Run α) : Outcome α × Session :=
  let memory := s.memories.getD store .empty
  let before : State := ⟨memory.store, "", s.events, [], memory.made⟩
  let (result, after) : Except Fault α × State :=
    match m before with
    | .ok a t => (.ok a, t)
    | .error fault t => (.error fault, t)
  (⟨result, after.out, after.store.names⟩,
    { s with
      memories := s.memories.set store ⟨after.store, after.made⟩
      events := after.events })

/-- Makes an interpreter, on the shared store or on a new one. -/
def add (s : Session) (shared : Bool) (make : Run Interpreter) : Outcome Interpreter × Session :=
  let store := if shared then 0 else s.memories.length
  let s := if shared then s else { s with memories := s.memories ++ [.empty] }
  let (outcome, s) := s.perform store make
  let member :=
    match outcome.result with
    | .ok i => some ⟨i, store⟩
    | .error _ => none
  (outcome, { s with members := s.members ++ [member] })

/-- A step of an interpreter; nothing happens if that interpreter could not be made. -/
def step {α : Type} (s : Session) (member : Nat) (m : Interpreter → Run α) :
    Option (Outcome α) × Session :=
  match s.members[member]? with
  | some (some ⟨i, store⟩) =>
    let (outcome, s) := s.perform store (m i)
    (some outcome, s)
  | _ => (none, s)

end Session

end SmallScheme
