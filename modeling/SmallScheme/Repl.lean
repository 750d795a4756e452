/-
  THE DIALOGUE: read, evaluate, print, and on to the next.

  Lines are collected until they hold complete forms.  The forms are then evaluated in order, and
  each value is printed, unless the form was evaluated for its effect.  An error is reported and
  the dialogue goes on, without the forms that came after it in the same lines.

  The dialogue is a loop over lines (`feedAll`), with the text that is pending between them.  What
  it does with one line (`feed`) depends on what is read of the pending text and the line together:

    * incomplete  — the text stays pending, and the next line is invited as the rest of it;
    * any other error — it is reported, and nothing is pending;
    * forms — they are answered (`evalForms`), and nothing is pending.

  A fault that is no error ends the dialogue, except for an evaluation that went too deep.  Of that
  the form is shown in the record, so the form is printed first, and that may fail in turn.
-/
import SmallScheme.Interpreter

namespace SmallScheme.Repl

/-- What invites a new form. -/
def prompt : String := "schemer> "

/-- What invites the rest of a form. -/
def continuationPrompt : String := "....... "

/-- The result of a run, be it a value or a fault. -/
def attempt {α : Type} (m : Run α) : Run (Except Fault α) := fun s =>
  match m s with
  | .ok a t => .ok (.ok a) t
  | .error fault t => .ok (.error fault) t

/-- Tells the user about an error. -/
def report (e : Error) : Run Unit := do
  Run.record (.reported e)
  Run.display s!"error: {e.message}\n"

/-- Writes an invitation, if there is to be one. -/
def invite (prompting : Bool) (text : String) : Run Unit :=
  if prompting then Run.display text else pure ()

/-- Lets forms in, evaluates them and prints their values, up to the first error.  Does one
    quit? -/
def evalForms (i : Interpreter) : List Value → Run Bool
  | [] => pure false
  | form :: forms => do
    let form ← Run.letIn form
    match ← attempt (i.evalForm form) with
    | .error (.error e) => do
      report e
      pure false
    | .error .tooDeep => do
      let _ ← Run.printed (form.print i.room true)
      Run.record (.tooDeepIn form)
      Run.display "error: recursion too deep\n"
      pure false
    | .error fault => throw fault
    | .ok .quit => pure true
    | .ok .unspecified => evalForms i forms
    | .ok v => do
      let text ← Run.printed (v.print i.room true)
      Run.display (text ++ "\n")
      evalForms i forms

/-- Takes a line.  What is pending afterwards is the text of a form that is not complete; nothing
    is pending any more, not even the next line, when a form has quit. -/
def feed (i : Interpreter) (prompting : Bool) (pending line : String) : Run (Option String) := do
  let source := pending ++ line
  match (Script.ofText i.room source).all with
  | .error (.error e) =>
    if e.kind = .incomplete then
      invite prompting continuationPrompt
      pure (some source)
    else
      report e
      invite prompting prompt
      pure (some "")
  | .error fault => throw fault
  | .ok forms =>
    if ← evalForms i forms then pure none
    else
      invite prompting prompt
      pure (some "")

/-- Takes the end of the input, with what is then pending. -/
def finish (pending : String) : Run Unit :=
  if Text.hasInk pending.toList then Run.record .discarding else pure ()

/-- Takes lines up to the last, or up to a form that quits. -/
def feedAll (i : Interpreter) (prompting : Bool) (pending : String) : List String → Run Unit
  | [] => finish pending
  | line :: lines => do
    match ← feed i prompting pending line with
    | some pending => feedAll i prompting pending lines
    | none => pure ()

/-- The whole dialogue.  With a halted interpreter there is none. -/
def run (i : Interpreter) (prompting : Bool) (input : String) : Run Unit :=
  if i.halted then pure ()
  else do
    invite prompting prompt
    feedAll i prompting "" ((Text.lines input.toList).map String.ofList)

end SmallScheme.Repl
