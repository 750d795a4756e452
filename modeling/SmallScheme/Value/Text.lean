/-
  THE TEXT of values.

  * `text true`  — readable: what the reader reads back; strings are literals.
  * `text false` — raw: strings stand as they are.  This is for output.
  * `detail`     — for messages about a program: every value shows what it is.

  The texts themselves are defined for every value.  But a program may not print a number that
  is too long, or data nested deeper than it has room for, and `textLimit?` and `detailLimit?` say
  which of the two a text meets first, from left to right.  They charge each value for the calls
  that write it, a leaf as well as a list; how much a leaf takes is told by `textRoom` and
  `detailRoom`.  What prints a value has the margin for it besides the room.
-/
import SmallScheme.Numeral
import SmallScheme.Room
import SmallScheme.Text.Escape
import SmallScheme.Text.Quoted
import SmallScheme.Value

namespace SmallScheme

/-- The texts, with `mark` between them. -/
def joined (mark : String) : List String → String
  | [] => ""
  | [s] => s
  | s :: rest => s ++ mark ++ joined mark rest

/-! ## Readable and raw text -/

mutual

/-- The readable text of a value, or the raw one. -/
def Value.text (readable : Bool) : Value → String
  | .bool true => "#t"
  | .bool false => "#f"
  | .int n => Numeral.text n
  | .str s => if readable then Text.literal s else s
  | .symbol name => name
  | .list _ vs => "(" ++ Value.texts readable vs ++ ")"
  | .dotted _ vs v => "(" ++ Value.texts readable vs ++ " . " ++ v.text readable ++ ")"
  | .primitive name => "#<primitive " ++ name ++ ">"
  | .closure formals _ _ => "#<closure (" ++ joined " " formals ++ ")>"
  | .unspecified => ""
  | .quit => "#<quit>"

/-- The texts of values, with a space between them. -/
def Value.texts (readable : Bool) : List Value → String
  | [] => ""
  | [v] => v.text readable
  | v :: vs => v.text readable ++ " " ++ Value.texts readable vs

end

/-! ## Detailed text -/

/-- The detailed text of a symbol. -/
def symbolDetail (name : String) : String := "Symbol(" ++ Text.quoted name ++ ")"

mutual

/-- The detailed text of a value. -/
def Value.detail : Value → String
  | .bool true => "True"
  | .bool false => "False"
  | .int n => Numeral.text n
  | .str s => Text.quoted s
  | .symbol name => symbolDetail name
  | .list _ vs => "[" ++ Value.details vs ++ "]"
  | .dotted _ vs v => "([" ++ Value.details vs ++ "], " ++ v.detail ++ ")"
  | .primitive name => "Primitive(" ++ Text.quoted name ++ ")"
  | .closure formals body _ =>
    "Closure([" ++ joined ", " (formals.map symbolDetail) ++ "], " ++ body.detail ++ ")"
  | .unspecified => "#<unspecified>"
  | .quit => "#<quit>"

/-- The detailed texts of values, with commas between them. -/
def Value.details : List Value → String
  | [] => ""
  | [v] => v.detail
  | v :: vs => v.detail ++ ", " ++ Value.details vs

end

namespace Env

/-- The detailed text of a frame: its bindings in braces. -/
def frameDetail (names : List String) (values : List Value) : String :=
  let bindings := List.zipWith (fun name v => name ++ ": " ++ v.detail) names values
  "\x7b" ++ joined ", " bindings ++ "\x7d"

/-- The innermost frame, and whether there are others. -/
def summary : Env → String
  | .empty => "\x7b\x7d"
  | .frame _ names values .empty => frameDetail names values
  | .frame _ names values _ => frameDetail names values ++ " -> ..."

/-- All frames, the innermost first. -/
def detail (env : Env) : String :=
  let frames :=
    match env.frames with
    | [] => "\x7b\x7d"
    | frames => joined " -> " (frames.map fun (names, values) => frameDetail names values)
  "<Environment chain: " ++ frames ++ ">"

end Env

/-! ## What stops a value from being printed -/

/-- What a text must not have. -/
inductive Limit where
  /-- A number of too many digits. -/
  | digits
  /-- Data nested too deep. -/
  | nesting
  deriving DecidableEq, Repr

/-- What stops a text that takes so much of the room, for the calls that write it, and then is
    stopped by what is written. -/
def Limit.guarded (room needed : Nat) (inner : Option Limit) : Option Limit :=
  if room < needed then some .nesting else inner

/-- What stops a number from being written. -/
def Limit.ofInt? (n : Int) : Option Limit := if Numeral.isTooLong n then some .digits else none

/-- The room that writing a value takes, without what it takes to write its items.  Characters of a
    literal that look like an escape are written one by one. -/
def Value.textRoom (readable : Bool) : Value → Nat
  | .bool _ | .unspecified => 1
  | .int _ => 2
  | .str s =>
    if readable then if s.toList.any fun c => c == '\\' || c == '"' then 4 else 2
    else 1
  | .symbol _ | .primitive _ => 3
  | .list _ _ | .dotted _ _ _ => Room.item
  | .quit => 4
  | .closure formals _ _ => if formals.isEmpty then 5 else 7

mutual

/-- What stops a value from being printed in the given room, with no margin. -/
def Value.textLimit? (readable : Bool) (room : Nat) : Value → Option Limit
  | .int n => Limit.guarded room ((Value.int n).textRoom readable) (Limit.ofInt? n)
  | .list _ vs => Limit.guarded room Room.item (Value.textLimits? readable (room - Room.item) vs)
  | .dotted _ vs v =>
    Limit.guarded room Room.item <|
      match Value.textLimits? readable (room - Room.item) vs with
      | none => v.textLimit? readable (room - Room.nested)
      | limit => limit
  | v => Limit.guarded room (v.textRoom readable) none

/-- What stops the first of the values that cannot be printed. -/
def Value.textLimits? (readable : Bool) (room : Nat) : List Value → Option Limit
  | [] => none
  | v :: vs =>
    match v.textLimit? readable room with
    | none => Value.textLimits? readable room vs
    | limit => limit

end

/-- The room that showing a value in detail takes, without what is in it. -/
def Value.detailRoom : Value → Nat
  | .bool _ | .int _ | .str _ => 1
  | .list _ _ | .dotted _ _ _ => Room.nested
  | .unspecified | .quit => 2
  | .symbol _ | .primitive _ => 3
  | .closure formals _ _ => if formals.isEmpty then 3 else 6

mutual

/-- What stops a value from being shown in detail in the given room, with no margin. -/
def Value.detailLimit? (room : Nat) : Value → Option Limit
  | .int n => Limit.guarded room (Value.int n).detailRoom (Limit.ofInt? n)
  | .list _ vs => Limit.guarded room Room.nested (Value.detailLimits? (room - Room.nested) vs)
  | .dotted _ vs v =>
    Limit.guarded room Room.nested <|
      match Value.detailLimits? (room - Room.detail) vs with
      | none => v.detailLimit? (room - Room.nested)
      | limit => limit
  | .closure formals body env =>
    Limit.guarded room (Value.closure formals body env).detailRoom
      (body.detailLimit? (room - Room.detail))
  | v => Limit.guarded room v.detailRoom none

/-- What stops the first of the values that cannot be shown in detail. -/
def Value.detailLimits? (room : Nat) : List Value → Option Limit
  | [] => none
  | v :: vs =>
    match v.detailLimit? room with
    | none => Value.detailLimits? room vs
    | limit => limit

end

/-- What stops the values of the frames from being shown in detail. -/
def Env.detailLimit? (room : Nat) : Env → Option Limit
  | .empty => none
  | .frame _ _ values outer =>
    match Value.detailLimits? room values with
    | none => outer.detailLimit? room
    | limit => limit

/-! ## Printing within the limits

Here the margin comes in: it is there besides the room, for what a leaf takes. -/

/-- The text of a value, unless a limit stops it. -/
def Value.print (room : Nat) (readable : Bool) (v : Value) : Except Limit String :=
  match v.textLimit? readable (room + Room.margin) with
  | some limit => .error limit
  | none => .ok (v.text readable)

/-- The detailed text of a value, unless a limit stops it. -/
def Value.printDetail (room : Nat) (v : Value) : Except Limit String :=
  match v.detailLimit? (room + Room.margin) with
  | some limit => .error limit
  | none => .ok v.detail

/-- The detailed text of an environment, unless a limit stops it. -/
def Env.printDetail (room : Nat) (env : Env) : Except Limit String :=
  match env.detailLimit? (room + Room.margin) with
  | some limit => .error limit
  | none => .ok env.detail

/-- The innermost frame, unless a limit stops it. -/
def Env.printSummary (room : Nat) (env : Env) : Except Limit String :=
  let values :=
    match env with
    | .empty => []
    | .frame _ _ values _ => values
  match Value.detailLimits? (room + Room.margin) values with
  | some limit => .error limit
  | none => .ok env.summary

end SmallScheme
