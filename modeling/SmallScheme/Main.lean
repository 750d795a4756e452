/-
  THE PROGRAM: the command line with real files, input and output.

  Runs are computed on a tree of the files that they may need.  Before each run the files are
  looked at again: those named on the command line, and those in which a required module may be
  found.  Nothing else is decided here.

  A run on such a tree does what it would do on the files themselves, as long as every file is in
  the tree that the run may look at.  Those are known before the run: the operand of `require` is
  a literal, so the modules that a text may ask for are all named in it (see the requirements),
  and theirs in them.

  What a run has displayed is written when the run has ended, line by line in the dialogue.
-/
import SmallScheme.CommandLine
import SmallScheme.Library
import SmallScheme.Requirements

namespace SmallScheme.Main

/-- Adds what lies at a path, and all that the text of the file there may need; `seen` are the
    paths that have been looked at. -/
partial def addPaths (room : Nat) (loader : Loader) (seen : List Path) : List Path → IO Loader
  | [] => pure loader
  | path :: paths => do
    if seen.contains path then addPaths room loader seen paths
    else
      let seen := path :: seen
      try
        let place ← IO.FS.realPath path.text
        if ← place.isDir then addPaths room (loader.addFolder path) seen paths
        else
          let bytes := (← IO.FS.readBinFile path.text).toList
          let needed :=
            match Text.Utf8.decode bytes with
            | .ok cs => loader.candidatesOf room (String.ofList (Text.unifyNewlines cs))
            | .error _ => []
          addPaths room (loader.addFile path bytes) seen (needed ++ paths)
      catch _ => addPaths room loader seen paths

/-- Adds all that a text may need. -/
def addNeeded (i : Interpreter) (source : String) : IO Interpreter := do
  let loader ← addPaths i.room i.loader [] (i.loader.candidatesOf i.room source)
  pure { i with loader := loader }

/-- The settings that the program looks at. -/
def readVariables : IO Variables := do
  let names := ["SCHEMER_PATH", "SCHEMER_LOG_LEVEL", "SCHEMER_RECURSION_LIMIT"]
  let values ← names.mapM fun name => do
    match ← IO.getEnv name with
    | some value => pure [(name, value)]
    | none => pure []
  pure values.flatten

/-- The surroundings of the program.  The bundled library is seen next to the program's file. -/
def system : IO CommandLine.System := do
  let vars ← readVariables
  let folder := (Path.ofString (← IO.currentDir).toString).parts
  let library := Path.join (.ofString (← IO.appDir).toString) (.ofString "library")
  pure ⟨vars, Library.mount library.parts ⟨[], []⟩, folder, library⟩

/-- Writes what a run has displayed and recorded, and gives the state without it. -/
def emit (threshold : Nat) (s : State) : IO State := do
  let out ← IO.getStdout
  out.putStr s.out
  out.flush
  (← IO.getStderr).putStr (CommandLine.recordLines threshold s.events)
  pure { s with out := "", events := #[] }

/-- Does a run, and writes what it has displayed and recorded.  No result means that a fault has
    ended it, which has been reported. -/
def perform {α : Type} (threshold : Nat) (s : State) (m : Run α) : IO (Option α × State) :=
  match m s with
  | .ok a t => do
    let t ← emit threshold t
    pure (some a, t)
  | .error fault t => do
    let t ← emit threshold t
    (← IO.getStderr).putStrLn s!"fatal: {fault.message}"
    pure (none, t)

/-- The dialogue, line by line; the result is the program's status. -/
partial def dialogue (i : Interpreter) (threshold : Nat) (prompting : Bool) (s : State)
    (pending : String) : IO UInt32 := do
  let line := String.ofList (Text.unifyNewlines (← (← IO.getStdin).getLine).toList)
  if line.isEmpty then
    let (result?, _) ← perform threshold s (Repl.finish pending)
    pure (if result?.isSome then 0 else 1)
  else
    let i ← addNeeded i (pending ++ line)
    let (pending??, s) ← perform threshold s (Repl.feed i prompting pending line)
    match pending?? with
    | some (some pending) => dialogue i threshold prompting s pending
    | some none => pure 0
    | none => pure 1

/-- The files, and then the dialogue. -/
def execute (plan : CommandLine.Plan) : IO UInt32 := do
  let i := plan.interpreter
  let loader ← addPaths i.room i.loader [] plan.options.files
  let i := { i with loader := loader }
  let (result?, s) ←
    perform plan.threshold .initial (CommandLine.runFiles i plan.options.files)
  match result? with
  | none => pure 1
  | some .quit => pure 0
  | some (.failed text) => do
    (← IO.getStderr).putStr text
    pure 1
  | some .finished =>
    if plan.options.noRepl then pure 0
    else
      let prompting ← (← IO.getStdin).isTty
      let (_, s) ← perform plan.threshold s (Repl.invite prompting Repl.prompt)
      dialogue i plan.threshold prompting s ""

/-- How to call the program. -/
def usage : String :=
  "usage: schemer [-h] [-I LIBRARY_PATH] [--no-repl] [--log-level LOG_LEVEL] [files ...]"

end SmallScheme.Main

open SmallScheme in
/-- The program. -/
def main (args : List String) : IO UInt32 := do
  match CommandLine.plan (← Main.system) args with
  | .ok plan => Main.execute plan
  | .error (.usage 0) => do
    IO.println Main.usage
    pure 0
  | .error (.usage status) => do
    (← IO.getStderr).putStrLn Main.usage
    pure status.toUInt32
  | .error (.exit status) => pure status.toUInt32
  | .error (.fault fault) => do
    (← IO.getStderr).putStrLn s!"fatal: {fault.message}"
    pure 1
