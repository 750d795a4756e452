/-
  THE COMMAND LINE: files to evaluate, folders of modules (`-I`), and how to go on.

  Options may be shortened as long as only one is meant, a value may be joined to its option, and
  after two dashes nothing is an option any more.  The files have to stand side by side.

  A run of the program goes through four stages, each of them a function of the one before:

    * words    — `words?` tells options from values.  Where a word may be short for several
                 options, there is no reading of the whole line;
    * options  — `readWords` goes through them from left to right.  The help and what makes no
                 sense end the program here, with a status and before anything is looked at;
    * plan     — `Options.plan` looks at the settings, in the order in which a wrong one is
                 reported: the level of events, the limit, the roots;
    * run      — `execute` loads the files up to the first that quits or fails, and goes on with
                 the dialogue unless it was not asked for.

  What the program finds around it is a `System`, so `run` is a function of the arguments and the
  input, and all of it can be reasoned about.
-/
import SmallScheme.Repl

namespace SmallScheme.CommandLine

/-! ## Words -/

/-- The options there are. -/
inductive Flag where
  | help
  | libraryPath
  | noRepl
  | logLevel
  deriving DecidableEq, Repr

/-- All ways to write an option in full. -/
def spellings : List (String × Flag) :=
  [("-h", .help), ("--help", .help), ("-I", .libraryPath), ("--library-path", .libraryPath),
    ("--no-repl", .noRepl), ("--log-level", .logLevel)]

/-- What a word of the command line is. -/
inductive Word where
  | value (text : String)
  /-- An option, with the text that is joined to it; `short` tells whether it is written with one
      dash, so that the text may be more options of one letter. -/
  | option (flag : Flag) (joined? : Option String) (short : Bool)
  | unknown
  /-- The two dashes after which nothing is an option. -/
  | dashes
  deriving DecidableEq, Repr

/-- A text before and after its first `=`. -/
def splitEquals (cs : List Char) : List Char × Option (List Char) :=
  match cs.dropWhile (· ≠ '=') with
  | [] => (cs, none)
  | _ :: rest => (cs.takeWhile (· ≠ '='), some rest)

/-- The options that a long word may be short for, each with the text joined to it. -/
def abbreviated (cs : List Char) : List (Flag × Option String) :=
  let (start, joined?) := splitEquals cs
  spellings.filterMap fun (spelling, flag) =>
    if start.isPrefixOf spelling.toList then some (flag, joined?.map String.ofList) else none

/-- A text without the newline at its end. -/
def chomp (cs : List Char) : List Char :=
  if cs.getLast? = some '\n' then cs.dropLast else cs

/-- Is the word a number below zero?  Such a word is no option; and a newline may follow it. -/
def isNegativeNumber (cs : List Char) : Bool :=
  match chomp cs with
  | '-' :: rest =>
    let fraction := rest.dropWhile Text.isDigit
    match fraction with
    | [] => !rest.isEmpty
    | '.' :: digits => !digits.isEmpty && digits.all Text.isDigit
    | _ => false
  | _ => false

/-- What a word is that is no option. -/
def plain (text : String) : Word :=
  if isNegativeNumber text.toList || text.toList.contains ' ' then .value text else .unknown

/-- What a word with two dashes in front is.  If it may be short for several options, that is
    nothing. -/
def longWord? (text : String) : Option Word :=
  match abbreviated text.toList with
  | [] => some (plain text)
  | [(flag, joined?)] => some (.option flag joined? false)
  | _ => none

/-- What a word with one dash in front is. -/
def shortWord (text : String) : Word :=
  match spellings.lookup (String.ofList (text.toList.take 2)) with
  | some flag => .option flag (some (String.ofList (text.toList.drop 2))) true
  | none => plain text

/-- What a word is, if that is clear. -/
def word? (text : String) : Option Word :=
  match spellings.lookup text with
  | some flag => some (.option flag none false)
  | none =>
    match text.toList with
    | '-' :: c :: cs =>
      let (start, joined?) := splitEquals ('-' :: c :: cs)
      match joined?, spellings.lookup (String.ofList start) with
      | some joined, some flag => some (.option flag (some (String.ofList joined)) (c ≠ '-'))
      | _, _ => if c = '-' then longWord? text else some (shortWord text)
    | _ => some (.value text)

/-- What the words are, if that is clear for all of them. -/
def words? : List String → Option (List Word)
  | [] => some []
  | "--" :: rest => some (.dashes :: rest.map .value)
  | text :: rest =>
    match word? text, words? rest with
    | some w, some ws => some (w :: ws)
    | _, _ => none

/-! ## Options -/

/-- The value of an option.  Two dashes joined to an option are taken away, and then there is
    none. -/
inductive Argument where
  | text (s : String)
  | nothing
  deriving Repr

/-- The value that is joined to an option. -/
def Argument.ofJoined (s : String) : Argument := if s = "--" then .nothing else .text s

/-- What the command line asks for. -/
structure Options where
  files : List Path
  libraryPaths : List Argument
  noRepl : Bool
  logLevel? : Option Argument
  deriving Repr

/-- How far the files have been read. -/
inductive Files where
  | awaited
  /-- The files may go on with the next word. -/
  | reading (words : List Word)
  /-- An option has ended them. -/
  | closed (words : List Word)

/-- The files after an option. -/
def Files.close : Files → Files
  | .reading words => .closed words
  | files => files

/-- The files, without the first two dashes among them. -/
def Files.paths (files : Files) : List Path :=
  let words :=
    match files with
    | .awaited => []
    | .reading words | .closed words => words.erase .dashes
  words.map fun
    | .value text => .ofString text
    | _ => .ofString "--"

/-- The status with which the program ends after showing its help, when letters are joined to
    the option.  They have to be letters of options; an `I` wants a value, which may be joined to
    it, too. -/
def helpStatus (valueFollows : Bool) : List Char → Nat
  | [] => 0
  | 'h' :: cs => helpStatus valueFollows cs
  | ['I'] => if valueFollows then 0 else 2
  | 'I' :: _ => 0
  | _ => 2

/-- The options with one more. -/
def Options.put (options : Options) (flag : Flag) (argument : Argument) : Options :=
  match flag with
  | .libraryPath => { options with libraryPaths := options.libraryPaths ++ [argument] }
  | .logLevel => { options with logLevel? := some argument }
  | .noRepl => { options with noRepl := true }
  | .help => options

/-- Does the option come with a value? -/
def Flag.wantsValue : Flag → Bool
  | .libraryPath | .logLevel => true
  | .help | .noRepl => false

/-- Reads the words from left to right.  Where the program ends by itself, the result is its
    status: two if the words make no sense, zero after the help. -/
def readWords (options : Options) (files : Files) (extra : Bool) :
    List Word → Except Nat Options
  | [] => if extra then .error 2 else .ok { options with files := files.paths }
  | .unknown :: rest => readWords options files.close true rest
  | .option .help joined? short :: rest =>
    let valueFollows :=
      match rest with
      | .value _ :: _ => true
      | _ => false
    match joined? with
    | none => .error 0
    | some joined =>
      if short && joined ≠ "" then .error (helpStatus valueFollows joined.toList) else .error 2
  | .option flag (some joined) _ :: rest =>
    if flag.wantsValue then
      readWords (options.put flag (.ofJoined joined)) files.close extra rest
    else .error 2
  | .option flag none _ :: rest =>
    if flag.wantsValue then
      match rest with
      | .value text :: rest => readWords (options.put flag (.text text)) files.close extra rest
      | _ => .error 2
    else readWords (options.put flag .nothing) files.close extra rest
  | w :: rest =>
    match files with
    | .awaited => readWords options (.reading [w]) extra rest
    | .reading words => readWords options (.reading (words ++ [w])) extra rest
    | .closed _ => readWords options files true rest

/-- Reads the arguments of the command line. -/
def options? (args : List String) : Except Nat Options :=
  match words? args with
  | some words => readWords ⟨[], [], false, none⟩ .awaited false words
  | none => .error 2

/-! ## The program -/

/-- What the program finds around it. -/
structure System where
  vars : Variables
  tree : FileTree
  /-- The place that relative paths are seen from. -/
  folder : List String
  /-- The folder of the bundled library. -/
  library : Path

/-- The modules that are found under the given roots. -/
def System.loader (system : System) (roots : List Path) : Loader :=
  ⟨roots, system.tree, system.folder⟩

/-- The modules that are found where nothing else is asked for. -/
def System.defaultLoader (system : System) : Loader :=
  system.loader (Settings.roots system.vars system.library)

/-- A program that is ready to run: what it is to do, and from which weight on it shows events. -/
structure Plan where
  options : Options
  threshold : Nat
  interpreter : Interpreter

/-- How the program ends. -/
inductive Ending where
  /-- The arguments alone have decided. -/
  | usage (status : Nat)
  | exit (status : Nat)
  | fault (fault : Fault)

/-- The largest recursion limit. -/
def maxRecursionLimit : Int := 2147483647

/-- The level of events that is asked for, in capitals. -/
def logLevel (system : System) (options : Options) : Except Fault String :=
  match options.logLevel? with
  | none => .ok (Text.upper (Settings.logLevel system.vars))
  | some (.text name) => .ok (Text.upper name)
  | some .nothing => .error .noLogLevel

/-- The weight of the events that are shown. -/
def threshold (system : System) (options : Options) : Except Fault Nat :=
  match logLevel system options with
  | .error fault => .error fault
  | .ok name =>
    match Event.threshold? name with
    | some weight => .ok weight
    | none => .error (.unknownLevel name)

/-- The room that there is to be. -/
def room (system : System) : Except Fault Nat :=
  match Settings.recursionLimit system.vars with
  | .error fault => .error fault
  | .ok limit =>
    if maxRecursionLimit < limit then .error .hugeLimit else .ok (Settings.roomOf limit)

/-- The roots that library paths name. -/
def roots : List Argument → Except Fault (List Path)
  | [] => .ok []
  | .nothing :: _ => .error .noLibraryPath
  | .text name :: arguments =>
    match roots arguments with
    | .ok paths => .ok (.ofString name :: paths)
    | .error fault => .error fault

/-- The plan for what the options ask for.  Settings are looked at in this order. -/
def Options.plan (options : Options) (system : System) : Except Fault Plan :=
  match threshold system options with
  | .error fault => .error fault
  | .ok threshold =>
    match room system with
    | .error fault => .error fault
    | .ok room =>
      match roots options.libraryPaths with
      | .error fault => .error fault
      | .ok paths =>
        let loader := system.loader (paths ++ Settings.roots system.vars system.library)
        .ok ⟨options, threshold, ⟨loader, room, false⟩⟩

/-- Reads the arguments and the settings. -/
def plan (system : System) (args : List String) : Except Ending Plan :=
  match options? args with
  | .error status => .error (.usage status)
  | .ok options =>
    match options.plan system with
    | .ok plan => .ok plan
    | .error fault => .error (.fault fault)

/-- What the files have come to. -/
inductive FilesEnding where
  | finished
  | quit
  /-- A file has failed; the text tells which and why. -/
  | failed (text : String)

/-- Evaluates files one after the other, up to the first that quits or fails. -/
def runFiles (i : Interpreter) : List Path → Run FilesEnding
  | [] => pure .finished
  | path :: paths => do
    match ← Repl.attempt (i.loadFile path) with
    | .ok .quit => pure .quit
    | .ok _ => runFiles i paths
    | .error fault =>
      match fault with
      | .error _ | .unreadable _ _ => pure (.failed s!"error: {path.text}: {fault.message}\n")
      | _ => throw fault

/-- Runs the files, and then the dialogue with the input.  The result is the status, and what
    there is to be said about a file that has failed. -/
def execute (plan : Plan) (input : String) : Run (Nat × String) := do
  match ← runFiles plan.interpreter plan.options.files with
  | .quit => pure (0, "")
  | .failed text => pure (1, text)
  | .finished =>
    if plan.options.noRepl then pure (0, "")
    else
      Repl.run plan.interpreter false (String.ofList (Text.unifyNewlines input.toList))
      pure (0, "")

/-- What the program has written when it ends. -/
structure Report where
  ending : Ending
  out : String
  err : String

/-- The records of events, a line each. -/
def recordLines (threshold : Nat) (events : Array Event) : String :=
  String.join ((Event.records threshold events.toList).map (· ++ "\n"))

/-- Runs the program. -/
def run (system : System) (args : List String) (input : String) : Report :=
  match plan system args with
  | .error ending => ⟨ending, "", ""⟩
  | .ok plan =>
    match execute plan input .initial with
    | .ok (status, text) s => ⟨.exit status, s.out, recordLines plan.threshold s.events ++ text⟩
    | .error fault s => ⟨.fault fault, s.out, recordLines plan.threshold s.events⟩

end SmallScheme.CommandLine
