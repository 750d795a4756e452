/-
  ERRORS of a program: what its text, its forms or its values did wrong.

  An error says its cause, with the value it is about.  Its kind, its message, and the values that
  the message shows are functions of the cause.  A message is written when the error is raised;
  so if a value in it cannot be printed, that is what is reported, and `limit?` tells.

  The kinds are what a program's user can act on: an incomplete text may be mended by more of it, a
  malformed one may not.  The causes are finer than the kinds, one for each place in which an
  error can come up with a message of its own.

  Values are shown in one of two ways.  What is wrong with the shape of an expression is shown in
  detail, as an expression (`Value.detail`); what is wrong with an argument is shown as it would
  be printed (`Value.text`).
-/
import SmallScheme.Path
import SmallScheme.Value.Text

namespace SmallScheme

/-- The kinds of error that a program and its user can tell apart. -/
inductive Error.Kind where
  | unbound
  | shape
  | type
  | arity
  | malformed
  /-- The text ends too early; more text may mend it. -/
  | incomplete
  | module
  | recursion
  deriving DecidableEq, Repr

/-- What went wrong in a program. -/
inductive Error where
  -- reading
  | unterminatedString (position : Nat)
  | nothingQuoted
  | unclosedList
  | leadingDot
  | nothingAfterDot
  | unclosedDot
  | strayClose
  | unknownToken (kind text : String)
  | notOneForm (count : Nat)
  -- names
  | unbound (name : String)
  -- shapes of expressions
  | notExpression (v : Value)
  | dottedCall (v : Value)
  | emptyCall
  | badParameters (v : Value)
  | badClause (v : Value)
  | elseNotLast
  | notName (v : Value)
  | reservedName (name : String)
  | notModuleName (v : Value)
  -- operand counts of the special forms
  | quoteArity
  | lambdaArity
  | defineArity
  | notArity
  | beginArity
  | requireArity
  | quitArity
  -- calls
  | noTrueQuestion
  | notFunction (v : Value)
  | closureArity (closure : Value) (expected got : Nat)
  | noPrimitive (name : String)
  | primitiveArity (name : String) (expected got : Nat)
  | noArguments (name : String)
  | notPair (name : String) (v : Value)
  | notNumber (name : String) (v : Value)
  -- modules
  | noLoader (name : String)
  | moduleNotFound (name : String) (roots : List Path)
  | circularRequire (path : Path)
  -- depth
  | tooDeep

namespace Error

/-- The kind of an error. -/
def kind : Error → Kind
  | unterminatedString _ | nothingQuoted | unclosedList => .incomplete
  | leadingDot | nothingAfterDot | unclosedDot | strayClose | unknownToken _ _ | notOneForm _ =>
    .malformed
  | unbound _ => .unbound
  | notExpression _ | dottedCall _ | emptyCall | badParameters _ | badClause _ | elseNotLast
  | notName _ | reservedName _ | notModuleName _ | noTrueQuestion | notFunction _ | noPrimitive _
  | notPair _ _ => .shape
  | notNumber _ _ => .type
  | quoteArity | lambdaArity | defineArity | notArity | beginArity | requireArity | quitArity
  | closureArity _ _ _ | primitiveArity _ _ _ | noArguments _ => .arity
  | noLoader _ | moduleNotFound _ _ | circularRequire _ => .module
  | tooDeep => .recursion

/-- How a kind of error is called in reports. -/
def Kind.name : Kind → String
  | .unbound => "SchemeUnboundSymbol"
  | .shape => "SchemeShapeError"
  | .type => "SchemeTypeError"
  | .arity => "SchemeArityError"
  | .malformed => "SchemeSyntaxError"
  | .incomplete => "SchemeIncompleteInput"
  | .module => "SchemeModuleError"
  | .recursion => "SchemeRecursionError"

/-- The message of an error. -/
def message : Error → String
  | unterminatedString position => s!"Unterminated string at {position}"
  | nothingQuoted => "Expected an expression after quote"
  | unclosedList => "Unmatched '('"
  | leadingDot => "Dotted list needs at least one element before '.'"
  | nothingAfterDot => "Expected an expression after '.'"
  | unclosedDot => "Expected ')' after dotted cdr"
  | strayClose => "Unexpected ')'"
  | unknownToken kind text => s!"Unknown token: {kind} {text}"
  | notOneForm count => s!"Expected exactly one expression, found {count}"
  | unbound name => s!"Cannot lookup unbound symbol {name}"
  | notExpression v => s!"Cannot evaluate {v.detail}: not an expression"
  | dottedCall v => s!"Cannot apply a dotted list {v.detail}"
  | emptyCall => "Cannot evaluate empty application ()"
  | badParameters v => s!"lambda parameters must be a list of symbols, got {v.detail}"
  | badClause v => s!"cond clause must be (question answer), got {v.detail}"
  | elseNotLast => "cond: else clause must be last"
  | notName v => s!"Cannot define {v.detail}: not a symbol"
  | reservedName name => s!"Cannot redefine primitive {name}"
  | notModuleName v => s!"require expects a string literal, got {v.detail}"
  | quoteArity => "quote expects exactly 1 argument"
  | lambdaArity => "lambda requires a parameter list and a body"
  | defineArity => "define requires exactly 2 arguments"
  | notArity => "not requires exactly 1 argument"
  | beginArity => "begin requires at least 1 expression"
  | requireArity => "require expects exactly 1 argument"
  | quitArity => "quit takes no arguments"
  | noTrueQuestion => "cond: no true questions found"
  | notFunction v => s!"Cannot apply non-function {v.text true}"
  | closureArity closure expected got =>
    s!"{closure.text true} expects {expected} argument(s), got {got}"
  | noPrimitive name => s!"No primitive matches {name}"
  | primitiveArity name 1 got => s!"{name} requires exactly 1 argument, got {got}"
  | primitiveArity name expected got =>
    s!"{name} requires exactly {expected} arguments, got {got}"
  | noArguments name => s!"{name} requires at least 1 argument"
  | notPair name v => s!"{name} expects a pair, got {v.text true}"
  | notNumber name v => s!"All arguments to {name} must be numbers, got {v.text true}"
  | noLoader name => s!"Cannot require {Text.quoted name}: no module loader configured"
  | moduleNotFound name roots =>
    let places := joined ", " (roots.map Path.text)
    s!"Cannot find module '{name}' in SCHEMER_PATH ({places})"
  | circularRequire path => s!"Circular require of {path.text}"
  | tooDeep => "recursion too deep"

/-- What stops the message from being written in the given room. -/
def limit? (room : Nat) : Error → Option Limit
  | notExpression v | dottedCall v | badParameters v | badClause v | notName v
  | notModuleName v => v.detailLimit? (room + Room.margin)
  | notFunction v | notPair _ v | notNumber _ v => v.textLimit? true (room + Room.margin)
  | _ => none

end Error

end SmallScheme
