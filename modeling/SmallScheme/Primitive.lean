/-
  PRIMITIVES: the operations that are built in.

  The catalog is closed, and a name of the catalog always means its primitive: neither a
  parameter nor a definition can take it over.  Every primitive first checks how many arguments
  it got, then what they are, and only then does its work.

  Most of them are functions of one or two values that cannot do anything else.  These are made of
  `unary` and `binary`, which check the count, and of a function that gives a value or a fault;
  arithmetic is made of `onNumber`, `onNumberPair` and `onNumbers`, which check that all arguments
  are numbers.  Three primitives touch the state:

    * `cons` and `cdr` make a list, and take an origin for it before anything is checked;
    * `display` writes.  All of its arguments are printed before the first character is written,
      and escapes are resolved in the whole text, so it writes everything or nothing.

  Messages, printing and comparing take room for the nesting of values, so every primitive gets
  the room that is left where it is called.
-/
import SmallScheme.Run
import SmallScheme.Value.Equal

namespace SmallScheme

/-- The built-in operations. -/
inductive Primitive where
  | cons
  | car
  | cdr
  | isNull
  | isEqual
  | isAtom
  | isZero
  | add1
  | sub1
  | isNumber
  | greater
  | less
  | add
  | multiply
  | subtract
  | display
  deriving DecidableEq, Repr

namespace Primitive

/-- The name of a primitive. -/
def name : Primitive → String
  | cons => "cons"
  | car => "car"
  | cdr => "cdr"
  | isNull => "null?"
  | isEqual => "eq?"
  | isAtom => "atom?"
  | isZero => "zero?"
  | add1 => "add1"
  | sub1 => "sub1"
  | isNumber => "number?"
  | greater => ">"
  | less => "<"
  | add => "+"
  | multiply => "*"
  | subtract => "-"
  | display => "display"

/-- The primitive of that name. -/
def ofName? : String → Option Primitive
  | "cons" => some cons
  | "car" => some car
  | "cdr" => some cdr
  | "null?" => some isNull
  | "eq?" => some isEqual
  | "atom?" => some isAtom
  | "zero?" => some isZero
  | "add1" => some add1
  | "sub1" => some sub1
  | "number?" => some isNumber
  | ">" => some greater
  | "<" => some less
  | "+" => some add
  | "*" => some multiply
  | "-" => some subtract
  | "display" => some display
  | _ => none

/-- Every primitive is found under its name. -/
theorem ofName?_name (p : Primitive) : ofName? p.name = some p := by
  cases p <;> rfl

/-! ## Pairs -/

/-- A value in front of another.  In front of a value that is no list, it makes a dotted list. -/
def consValue (origin : Origin) (head : Value) : Value → Value
  | .list _ vs => .list origin (head :: vs)
  | .dotted _ vs v => .dotted origin (head :: vs) v
  | v => .dotted origin [head] v

/-- The first item of a pair. -/
def first : Value → Except Fault Value
  | .list _ (v :: _) => .ok v
  | .dotted _ (v :: _) _ => .ok v
  | .dotted _ [] _ => .error .noItem
  | v => .error (.error (.notPair car.name v))

/-- A pair without its first item.  What is left of a dotted list may be its tail alone. -/
def others (origin : Origin) : Value → Except Fault Value
  | .list _ (_ :: vs) => .ok (.list origin vs)
  | .dotted _ (_ :: w :: vs) v => .ok (.dotted origin (w :: vs) v)
  | .dotted _ _ v => .ok v
  | v => .error (.error (.notPair cdr.name v))

/-! ## Predicates -/

/-- Symbols, booleans and numbers are atoms. -/
def isAtomValue : Value → Bool
  | .symbol _ | .bool _ | .int _ => true
  | _ => false

/-- Is the value a number? -/
def isNumberValue : Value → Bool
  | .int _ => true
  | _ => false

/-- Is the value the number zero? -/
def isZeroValue : Value → Bool
  | .int n => n == 0
  | _ => false

/-- Is the value the empty list? -/
def isNullValue : Value → Bool
  | .list _ [] => true
  | _ => false

/-! ## Numbers -/

/-- The numbers that the arguments are; the first that is none is to blame. -/
def numbers (name : String) : List Value → Except Error (List Int)
  | [] => .ok []
  | .int n :: vs =>
    match numbers name vs with
    | .ok ns => .ok (n :: ns)
    | .error e => .error e
  | v :: _ => .error (.notNumber name v)

/-- `n - (m - (…))`: subtraction, taken from the right. -/
def alternating : List Int → Int
  | [] => 0
  | n :: ns => n - alternating ns

/-! ## Calls -/

/-- Raises the error that a primitive gets a number of arguments other than `expected`. -/
def wrongCount (p : Primitive) (room expected : Nat) (args : List Value) : Run Value :=
  Run.raise room (.primitiveArity p.name expected args.length)

/-- Ends as `result` says. -/
def settle (room : Nat) : Except Fault Value → Run Value
  | .ok v => pure v
  | .error (.error e) => Run.raise room e
  | .error fault => throw fault

/-- A primitive of one argument. -/
def unary (p : Primitive) (room : Nat) (args : List Value) (result : Value → Except Fault Value) :
    Run Value :=
  match args with
  | [v] => settle room (result v)
  | _ => wrongCount p room 1 args

/-- A primitive of two arguments. -/
def binary (p : Primitive) (room : Nat) (args : List Value)
    (result : Value → Value → Except Fault Value) : Run Value :=
  match args with
  | [v, w] => settle room (result v w)
  | _ => wrongCount p room 2 args

/-- What a function of one number gives. -/
def onNumber (p : Primitive) (result : Int → Value) : Value → Except Fault Value
  | .int n => .ok (result n)
  | v => .error (.error (.notNumber p.name v))

/-- What a function of two numbers gives. -/
def onNumberPair (p : Primitive) (result : Int → Int → Value) : Value → Value → Except Fault Value
  | .int m, .int n => .ok (result m n)
  | .int _, w => .error (.error (.notNumber p.name w))
  | v, _ => .error (.error (.notNumber p.name v))

/-- What a function of numbers gives. -/
def onNumbers (p : Primitive) (result : List Int → Value) (args : List Value) :
    Except Fault Value :=
  match numbers p.name args with
  | .ok ns => .ok (result ns)
  | .error e => .error (.error e)

/-- Are the values equal, as far as there is room to find out? -/
def equality (room : Nat) (v w : Value) : Except Fault Value :=
  match v.equal? (room + Room.margin) w with
  | some verdict => .ok (.bool verdict)
  | none => .error .tooDeep

/-- The raw texts of the values, one after the other. -/
def rawText (room : Nat) : List Value → Run String
  | [] => pure ""
  | v :: vs => do
    let text ← Run.printed (v.print room false)
    let rest ← rawText room vs
    pure (text ++ rest)

/-- Calls a primitive, with room for its work. -/
def apply (p : Primitive) (room : Nat) (args : List Value) : Run Value :=
  match p with
  | cons => do
    let origin ← Run.fresh
    binary p room args fun v w => .ok (consValue origin v w)
  | car => unary p room args first
  | cdr => do
    let origin ← Run.fresh
    unary p room args (others origin)
  | isNull => unary p room args fun v => .ok (.bool (isNullValue v))
  | isEqual => binary p room args (equality room)
  | isAtom => unary p room args fun v => .ok (.bool (isAtomValue v))
  | isZero => unary p room args fun v => .ok (.bool (isZeroValue v))
  | add1 => unary p room args (onNumber p fun n => .int (n + 1))
  | sub1 => unary p room args (onNumber p fun n => .int (n - 1))
  | isNumber => unary p room args fun v => .ok (.bool (isNumberValue v))
  | greater => binary p room args (onNumberPair p fun m n => .bool (n < m))
  | less => binary p room args (onNumberPair p fun m n => .bool (m < n))
  | add => settle room (onNumbers p (fun ns => .int (ns.foldl (· + ·) 0)) args)
  | multiply => settle room (onNumbers p (fun ns => .int (ns.foldl (· * ·) 1)) args)
  | subtract =>
    match args with
    | [] => Run.raise room (.noArguments p.name)
    | _ => settle room (onNumbers p (fun ns => .int (alternating ns)) args)
  | display => do
    let text ← rawText room args
    Run.displayCodes (Text.unescape text)
    pure .unspecified

/-- Calls the primitive of that name, with room for its work. -/
def call (name : String) (room : Nat) (args : List Value) : Run Value :=
  match ofName? name with
  | some p => p.apply room args
  | none => Run.raise room (.noPrimitive name)

end Primitive

end SmallScheme
