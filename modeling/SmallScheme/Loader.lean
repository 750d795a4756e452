/-
  THE LOADER: modules in files.

  A module's name is a path with dots between its parts, or a file's name as it stands.  It is
  looked for under the roots, one after the other; an absolute path is not looked for anywhere
  else.  Loading a module evaluates the forms of its file, each in the empty environment, up to
  the first that quits or fails.  A file that is being loaded cannot be loaded again meanwhile.

  Structure:
    1. From a name to a path (`modulePath`), and from a path to what lies there (`find`).
    2. From a name to a file: the first candidate under the roots that is one (`resolve`).  Each
       candidate is put on record before it is looked at.
    3. From a file to its text, and from that to a script.
    4. Loading: `loadPath` refuses a file that is in progress, and puts every other one on the list
       for as long as its forms are evaluated.

  Whether a file is being loaded is asked of its absolute path, without detours; so two spellings
  of one path are the same file.
-/
import SmallScheme.Reader.Datum
import SmallScheme.Run
import SmallScheme.Text.Lines

namespace SmallScheme

/-- Where modules are found. -/
structure Loader where
  roots : List Path
  tree : FileTree
  /-- The place that relative paths are seen from. -/
  folder : List String

namespace Loader

/-- The ending of a module's file. -/
def suffix : String := ".scm"

/-- The relative path of a module. -/
def modulePath (name : String) : Except Fault Path :=
  if name.endsWith suffix then .ok (.ofString name)
  else
    let steps := (Path.splitAt '.' name.toList).map fun step => Path.ofString (String.ofList step)
    let path := steps.foldl Path.join ⟨.relative, []⟩
    match path.parts.getLast? with
    | none => .error (.namelessPath path)
    | some last => .ok { path with parts := path.parts.dropLast ++ [last ++ suffix] }

/-- Where a path is seen from. -/
def start (loader : Loader) (path : Path) : List String :=
  if path.isAbsolute then [] else loader.folder

/-- What a path leads to. -/
def find (loader : Loader) (path : Path) : Except FileTree.ReadError FileTree.Node :=
  if FileTree.maxPath ≤ path.text.utf8ByteSize then .error .nameTooLong
  else loader.tree.find (loader.start path) path.parts

/-- Does the path lead to a file?  That cannot be told of a path with names that are too long. -/
def isFile (loader : Loader) (path : Path) : Except Fault Bool :=
  if path.hasNull then .ok false
  else
    match loader.find path with
    | .ok (.file _) => .ok true
    | .ok .folder => .ok false
    | .error .nameTooLong => .error (.unreadable path .nameTooLong)
    | .error _ => .ok false

/-- `isFile`, as a run. -/
def checkFile (loader : Loader) (path : Path) : Run Bool :=
  match loader.isFile path with
  | .ok answer => pure answer
  | .error fault => throw fault

/-- The absolute path, without detours, that a path stands for. -/
def absolute (loader : Loader) (path : Path) : Path :=
  ⟨.root, FileTree.simplify (loader.start path) path.parts⟩

/-- The first of the roots' candidates that is a file. -/
def search (loader : Loader) (name : String) (path : Path) : List Path → Run (Option Path)
  | [] => pure none
  | root :: roots => do
    let candidate := root.join path
    Run.record (.trying candidate name)
    if ← loader.checkFile candidate then pure (some candidate)
    else loader.search name path roots

/-- The file of a module, if there is one. -/
def resolve (loader : Loader) (name : String) : Run (Option Path) := do
  match modulePath name with
  | .error fault => throw fault
  | .ok path =>
    if path.isAbsolute then
      if ← loader.checkFile path then pure (some path) else pure none
    else loader.search name path loader.roots

/-- The bytes of the file that a path leads to. -/
def bytes (loader : Loader) (path : Path) : Except Fault (List UInt8) :=
  match loader.find path with
  | .ok (.file bytes) => .ok bytes
  | .ok .folder => .error (.unreadable path .isFolder)
  | .error why => .error (.unreadable path why)

/-- The text of the file that a path leads to. -/
def text (loader : Loader) (path : Path) : Except Fault String :=
  match loader.bytes path with
  | .error fault => .error fault
  | .ok bytes =>
    match Text.Utf8.decode bytes with
    | .error bad => .error (.undecodable bad)
    | .ok cs => .ok (String.ofList (Text.unifyNewlines cs))

/-- Lets forms in and evaluates them, one after the other, up to the first that quits.  Does one
    quit? -/
def runForms (ev : Evaluator) : List Value → Run Bool
  | [] => pure false
  | form :: forms => do
    let form ← Run.letIn form
    match ← ev.run Room.moduleForm form .empty with
    | .quit => pure true
    | _ => runForms ev forms

/-- Evaluates what a text holds, up to the first form that quits or the fault that ends it. -/
def runScript (ev : Evaluator) (script : Script) : Run Value := do
  if ← runForms ev script.forms then pure .quit
  else
    match script.fault? with
    | some fault => throw fault
    | none => pure .unspecified

/-- Loads the file that a path leads to. -/
def loadPath (loader : Loader) (ev : Evaluator) (path : Path) : Run Value := do
  let file := loader.absolute path
  if path.hasNull then throw .nullInPath
  else if (← get).loading.contains file then Run.raise ev.room (.circularRequire file)
  else
    Run.record (.loading file)
    Run.whileLoading file do
      match loader.text file with
      | .error fault => throw fault
      | .ok source => runScript ev (.ofText (ev.room - Room.moduleText) source)

/-- Loads a module. -/
def load (loader : Loader) (ev : Evaluator) (name : String) : Run Value := do
  match ← loader.resolve name with
  | some path => loader.loadPath ev path
  | none => Run.raise ev.room (.moduleNotFound name loader.roots)

end Loader

end SmallScheme
