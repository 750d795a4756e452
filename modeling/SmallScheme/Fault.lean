/-
  FAULTS: all that can end a run without a value.

  An error of the program is only one of them.  The others lie outside the language: a limit of
  the machine, a file that cannot be read, a setting that makes no sense.  A program's user sees
  them as well, but what handles errors does not handle them.

  There are four sorts of these:

    * limits: numbers of too many digits, nesting that is too deep, too many steps;
    * files: paths that name nothing, what cannot be read, bytes that are not UTF-8;
    * output: code points that cannot be written, since they are surrogates;
    * settings and options, before a program is run at all.

  Two more stand for what should never happen (`noItem`, `unequalFrame`): a list that no reader and
  no primitive makes, and a frame that no call makes.  That they do not happen is proved, and not
  built into the types.
-/
import SmallScheme.Error
import SmallScheme.FileTree
import SmallScheme.Text.CodePoint
import SmallScheme.Text.Utf8

namespace SmallScheme

/-- What ends a run without a value. -/
inductive Fault where
  | error (e : Error)
  /-- A number of too many digits was to be printed. -/
  | digitsPrinted
  /-- A numeral of too many digits was to be read. -/
  | digitsRead (count : Nat)
  /-- Evaluation, reading, printing or comparison went too deep. -/
  | tooDeep
  /-- An evaluation took more steps than it was given. -/
  | tooLong
  /-- The first item of a dotted list without items was asked for. -/
  | noItem
  /-- A frame was to bind names to a different number of values. -/
  | unequalFrame
  /-- A path without a last part was to be given a suffix. -/
  | namelessPath (path : Path)
  | unreadable (path : Path) (why : FileTree.ReadError)
  /-- A file was to be loaded from a path with a null character in it. -/
  | nullInPath
  | undecodable (bad : Text.BadUtf8)
  /-- Code points were to be displayed that are no text. -/
  | unencodable (bad : Text.Unencodable)
  | notInteger (text : String)
  | unknownLevel (name : String)
  /-- A limit that does not fit into 32 bits. -/
  | hugeLimit
  /-- The option for library paths came without one. -/
  | noLibraryPath
  /-- The option for the level of events came without one. -/
  | noLogLevel

namespace Fault

/-- The fault of meeting a limit. -/
def ofLimit : Limit → Fault
  | .digits => .digitsPrinted
  | .nesting => .tooDeep

/-- What is wrong with bytes that are not UTF-8. -/
def undecodableMessage (bad : Text.BadUtf8) : String :=
  let bytes :=
    if bad.length = 1 then
      let code := String.ofList (Text.hexDigits 2 bad.lead)
      s!"byte 0x{code} in position {bad.start}"
    else s!"bytes in position {bad.start}-{bad.start + bad.length - 1}"
  let why :=
    match bad.reason with
    | .invalidStart => "invalid start byte"
    | .invalidContinuation => "invalid continuation byte"
    | .unexpectedEnd => "unexpected end of data"
  s!"'utf-8' codec can't decode {bytes}: {why}"

/-- What is wrong with code points that are no text. -/
def unencodableMessage (bad : Text.Unencodable) : String :=
  let characters :=
    if bad.length = 1 then
      let code := String.ofList (Text.hexDigits 4 bad.code)
      s!"character '\\u{code}' in position {bad.start}"
    else s!"characters in position {bad.start}-{bad.start + bad.length - 1}"
  s!"'utf-8' codec can't encode {characters}: surrogates not allowed"

/-- What is wrong with a file, with the system's number for it. -/
def unreadableMessage (path : Path) (why : FileTree.ReadError) : String :=
  let what :=
    match why with
    | .missing => "[Errno 2] No such file or directory"
    | .belowFile => "[Errno 20] Not a directory"
    | .isFolder => "[Errno 21] Is a directory"
    | .nameTooLong => "[Errno 36] File name too long"
  s!"{what}: {Text.quoted path.text}"

/-- The most characters of a text that a message about a setting shows. -/
def shownLength : Nat := 200

/-- What is wrong with a setting that is no integer.  The text is cut off after the quotes have
    been put around it. -/
def notIntegerMessage (text : String) : String :=
  let shown := String.ofList ((Text.quoted text).toList.take shownLength)
  s!"invalid literal for int() with base 10: {shown}"

/-- The message of a fault. -/
def message : Fault → String
  | error e => e.message
  | digitsPrinted =>
    "Exceeds the limit (4300 digits) for integer string conversion; "
      ++ "use sys.set_int_max_str_digits() to increase the limit"
  | digitsRead count =>
    s!"Exceeds the limit (4300 digits) for integer string conversion: value has {count} digits; "
      ++ "use sys.set_int_max_str_digits() to increase the limit"
  | tooDeep => "recursion too deep"
  | tooLong => "too many steps"
  | noItem => "list index out of range"
  | unequalFrame => "frame names and values must have equal length"
  | namelessPath path => s!"PosixPath({Text.quoted path.text}) has an empty name"
  | unreadable path why => unreadableMessage path why
  | nullInPath => "embedded null byte"
  | undecodable bad => undecodableMessage bad
  | unencodable bad => unencodableMessage bad
  | notInteger text => notIntegerMessage text
  | unknownLevel name => s!"Unknown level: {Text.quoted name}"
  | hugeLimit => "Python int too large to convert to C int"
  | noLibraryPath => "expected str, bytes or os.PathLike object, not list"
  | noLogLevel => "'list' object has no attribute 'upper'"

end Fault

end SmallScheme
