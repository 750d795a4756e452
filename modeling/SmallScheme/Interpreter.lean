/-
  THE INTERPRETER: texts and files, evaluated one form after the other.

  An interpreter begins by loading the modules of its prelude.  If one of them quits, the
  interpreter is halted for good: whatever it is asked to do afterwards, it has quit.

  Reading and evaluating take turns in principle, form by form, but they cannot be told from
  reading first: the reader does not look at the state, and forms that come before a place where it
  stops are evaluated all the same.  So a text is read as a `Script`, its forms and what stopped
  the reader, and `eval` goes through the first and then ends as the second says.

  Every form is guarded: an evaluation that goes too deep ends in an error of the language.  Reading
  is not, so a text that is nested too deep ends in the fault itself.
-/
import SmallScheme.Eval
import SmallScheme.Settings

namespace SmallScheme

/-- An interpreter: where its modules are, how much room it has, and whether it is halted. -/
structure Interpreter where
  loader : Loader
  room : Nat
  halted : Bool

namespace Interpreter

/-- How many steps an evaluation may take in a row: more than can ever be waited for. -/
def maxSteps : Nat := Nat.pow 2 62

/-- The evaluator of an interpreter. -/
def evaluator (i : Interpreter) : Evaluator := Eval.within (some i.loader) maxSteps i.room

/-- Evaluates a form. -/
def evalForm (i : Interpreter) (form : Value) : Run Value := i.evaluator.run 0 form .empty

/-- Loads modules up to the first that quits.  Does one quit? -/
def loadPrelude (i : Interpreter) : List String → Run Bool
  | [] => pure false
  | name :: names => do
    match ← Run.guardDepth (i.loader.load i.evaluator name) with
    | .quit => pure true
    | _ => i.loadPrelude names

/-- An interpreter that has loaded its prelude. -/
def start (loader : Loader) (room : Nat) (prelude : List String) : Run Interpreter := do
  let i : Interpreter := ⟨loader, room, false⟩
  let halted ← i.loadPrelude prelude
  pure { i with halted := halted }

/-- Lets forms in and evaluates them, one after the other, up to the first that quits; `last` is
    the value so far. -/
def evalForms (i : Interpreter) (last : Value) : List Value → Run Value
  | [] => pure last
  | form :: forms => do
    let form ← Run.letIn form
    match ← Run.guardDepth (i.evalForm form) with
    | .quit => pure .quit
    | v => i.evalForms v forms

/-- Evaluates the forms of a text, up to the first that quits, or to what stops the reader.  The
    value is that of the last form. -/
def eval (i : Interpreter) (source : String) : Run Value :=
  if i.halted then pure .quit
  else do
    let script := Script.ofText i.room source
    match ← i.evalForms .unspecified script.forms with
    | .quit => pure .quit
    | v =>
      match script.fault? with
      | some fault => throw fault
      | none => pure v

/-- Evaluates the forms of a file. -/
def loadFile (i : Interpreter) (path : Path) : Run Value :=
  if i.halted then pure .quit
  else Run.guardDepth (i.loader.loadPath i.evaluator path)

end Interpreter

end SmallScheme
