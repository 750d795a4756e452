/-
  VALUES, which are also the expressions: code is data.

  A proper list and a dotted list are two constructors.  A dotted list holds its items and the
  tail after the dot; the reader and `cons` make it only with at least one item and with a tail
  that is not a list of either kind, but nothing in the type demands that.

  A closure holds the environment of the place where it was made.  An environment is a chain of
  frames, the innermost first; a frame binds its names to its values by position.  What is defined
  at the top level is in no frame: it is in the store.

  Lists and frames know where they come from.  That is no part of what they hold: it tells one
  and the same list from another that looks the same, and lets a comparison of a list with itself
  end at once.
-/
namespace SmallScheme

/-- Where a list or a frame comes from. -/
inductive Origin where
  /-- Nothing is known; it is not taken for any other. -/
  | unknown
  /-- A system has made it, or has let it in.  No two have the same number. -/
  | made (serial : Nat)
  deriving DecidableEq, Repr

/-- Are these the origins of one and the same list or frame? -/
def Origin.isOne : Origin → Origin → Bool
  | .made m, .made n => m == n
  | _, _ => false

mutual

/-- A value; an expression is a value too. -/
inductive Value where
  | bool (b : Bool)
  | int (n : Int)
  /-- A string, with the escapes of its literal as they were written. -/
  | str (text : String)
  | symbol (name : String)
  | list (origin : Origin) (items : List Value)
  | dotted (origin : Origin) (items : List Value) (tail : Value)
  | primitive (name : String)
  | closure (formals : List String) (body : Value) (env : Env)
  /-- The result of what is done for its effect. -/
  | unspecified
  /-- The signal that a program has quit.  Whoever asked for a value hands it on. -/
  | quit

/-- A chain of frames, the innermost first. -/
inductive Env where
  | empty
  | frame (origin : Origin) (names : List String) (values : List Value) (outer : Env)

end

/-- Any value will do where one is only needed for a default. -/
instance : Inhabited Value := ⟨.unspecified⟩

namespace Value

/-- A list with an item in it, or a dotted list. -/
def isPair : Value → Bool
  | .list _ (_ :: _) => true
  | .dotted _ _ _ => true
  | _ => false

/-- The name of a symbol. -/
def symbolName? : Value → Option String
  | .symbol name => some name
  | _ => none

/-- A list of unknown origin. -/
def ofItems (items : List Value) : Value := .list .unknown items

/-- The quoted form of a datum, `(quote d)`. -/
def quoteOf (datum : Value) : Value := .ofItems [.symbol "quote", datum]

end Value

namespace Env

/-- The number of frames. -/
def depth : Env → Nat
  | .empty => 0
  | .frame _ _ _ outer => outer.depth + 1

/-- The frames, the innermost first. -/
def frames : Env → List (List String × List Value)
  | .empty => []
  | .frame _ names values outer => (names, values) :: outer.frames

/-- The value of the first binding of `name` among names and values that go together. -/
def find? (name : String) : List String → List Value → Option Value
  | n :: names, v :: values => if n = name then some v else find? name names values
  | _, _ => none

/-- The value of `name` in the innermost frame that binds it. -/
def lookup? (name : String) : Env → Option Value
  | .empty => none
  | .frame _ names values outer =>
    match find? name names values with
    | some v => some v
    | none => outer.lookup? name

/-- The environment with a new frame of the given origin in front, unless names and values do
    not pair up. -/
def bind? (env : Env) (origin : Origin) (names : List String) (values : List Value) : Option Env :=
  if names.length = values.length then some (.frame origin names values env) else none

/-- The environment with a new frame of unknown origin in front. -/
def extend? (env : Env) (names : List String) (values : List Value) : Option Env :=
  env.bind? .unknown names values

/-- There are as many frames as the depth says. -/
theorem length_frames : (env : Env) → env.frames.length = env.depth
  | .empty => rfl
  | .frame _ _ _ outer => by simp [frames, depth, length_frames outer]

end Env

end SmallScheme
