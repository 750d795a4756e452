/-
  FORMS: expressions whose shape has been checked.

  What an expression is depends on its shape alone, never on what is bound.  A name of a
  primitive is that primitive, a list that begins with a keyword is a special form, and any other
  list is a call.  All that can be wrong with the shape of a form is found here, before anything
  in it is evaluated.

  Evaluators work on `Form` and not on expressions.  A form holds its parts as expressions, for
  these are checked when their turn comes: a malformed expression in a branch that is not taken is
  no error.  What is checked along with the form is only what belongs to the form itself, such as
  all clauses of a `cond`, or the parameters of a `lambda`.

  The bodies of `lambda` are sequences; more than one expression is a `begin` (`body`).
-/
import SmallScheme.Primitive

namespace SmallScheme

/-! ## What kind of expression -/

/-- The names of the special forms. -/
inductive Keyword where
  | quote
  | lambda
  | cond
  | define
  | and
  | or
  | not
  | begin
  | require
  | quit
  deriving DecidableEq, Repr

/-- The keyword of that name. -/
def Keyword.ofName? : String → Option Keyword
  | "quote" => some .quote
  | "lambda" => some .lambda
  | "cond" => some .cond
  | "define" => some .define
  | "and" => some .and
  | "or" => some .or
  | "not" => some .not
  | "begin" => some .begin
  | "require" => some .require
  | "quit" => some .quit
  | _ => none

/-- The name of a keyword. -/
def Keyword.name : Keyword → String
  | .quote => "quote"
  | .lambda => "lambda"
  | .cond => "cond"
  | .define => "define"
  | .and => "and"
  | .or => "or"
  | .not => "not"
  | .begin => "begin"
  | .require => "require"
  | .quit => "quit"

/-- Every keyword is found under its name. -/
theorem Keyword.ofName?_name (k : Keyword) : Keyword.ofName? k.name = some k := by
  cases k <;> rfl

/-- What is to be done with an expression. -/
inductive Action where
  | constant
  | string
  | identifier
  | special (keyword : Keyword)
  | application
  deriving DecidableEq, Repr

/-- How an action is called. -/
def Action.name : Action → String
  | .constant => "constant"
  | .string => "string"
  | .identifier => "identifier"
  | .special keyword => keyword.name
  | .application => "application"

/-- The keyword that a list of expressions begins with. -/
def Value.keyword? : List Value → Option Keyword
  | .symbol name :: _ => Keyword.ofName? name
  | _ => none

/-- What is to be done with an expression.  Values of some kinds are no expressions. -/
def Value.action : Value → Except Error Action
  | .bool _ | .int _ => .ok .constant
  | .str _ => .ok .string
  | .symbol name => .ok (if (Primitive.ofName? name).isSome then .constant else .identifier)
  | .list _ vs =>
    match Value.keyword? vs with
    | some keyword => .ok (.special keyword)
    | none => .ok .application
  | .dotted _ _ _ => .ok .application
  | v => .error (.notExpression v)

/-! ## Checked forms -/

/-- An expression with its parts. -/
inductive Form where
  | constant (v : Value)
  | identifier (name : String)
  | quote (datum : Value)
  | lambda (formals : List String) (body : Value)
  /-- Questions with their answers, and the answer when all questions say no. -/
  | cond (clauses : List (Value × Value)) (otherwise? : Option Value)
  | define (name : String) (expr : Value)
  | and (operands : List Value)
  | or (operands : List Value)
  | not (operand : Value)
  | begin (first : Value) (others : List Value)
  | require (name : String)
  | quit
  | call (head : Value) (operands : List Value)

namespace Form

/-- The clauses of a `cond`.  Only the last one may have `else` for its question. -/
def clauses? : List Value → Except Error (List (Value × Value) × Option Value)
  | [] => .ok ([], none)
  | clause :: rest =>
    match clause with
    | .list _ [.symbol "else", answer] =>
      if rest.isEmpty then .ok ([], some answer) else .error .elseNotLast
    | .list _ [question, answer] =>
      match clauses? rest with
      | .ok (clauses, otherwise?) => .ok ((question, answer) :: clauses, otherwise?)
      | .error e => .error e
    | _ => .error (.badClause clause)

/-- The names of a parameter list. -/
def formals? : Value → Option (List String)
  | .list _ vs => vs.mapM Value.symbolName?
  | _ => none

/-- The body that forms make: the only one, or all of them in sequence. -/
def body (first : Value) : List Value → Value
  | [] => first
  | others => .ofItems (.symbol Keyword.begin.name :: first :: others)

/-- A special form with its operands. -/
def special? : Keyword → List Value → Except Error Form
  | .quote, [datum] => .ok (.quote datum)
  | .quote, _ => .error .quoteArity
  | .lambda, params :: first :: others =>
    match formals? params with
    | some formals => .ok (.lambda formals (body first others))
    | none => .error (.badParameters params)
  | .lambda, _ => .error .lambdaArity
  | .cond, clauses =>
    match clauses? clauses with
    | .ok (clauses, otherwise?) => .ok (.cond clauses otherwise?)
    | .error e => .error e
  | .define, [.symbol name, expr] =>
    if (Primitive.ofName? name).isSome then .error (.reservedName name)
    else .ok (.define name expr)
  | .define, [v, _] => .error (.notName v)
  | .define, _ => .error .defineArity
  | .and, operands => .ok (.and operands)
  | .or, operands => .ok (.or operands)
  | .not, [operand] => .ok (.not operand)
  | .not, _ => .error .notArity
  | .begin, first :: others => .ok (.begin first others)
  | .begin, [] => .error .beginArity
  | .require, [.str name] => .ok (.require name)
  | .require, [v] => .error (.notModuleName v)
  | .require, _ => .error .requireArity
  | .quit, [] => .ok .quit
  | .quit, _ => .error .quitArity

/-- The form of an expression. -/
def ofExpr? (expr : Value) : Except Error Form :=
  match expr with
  | .bool _ | .int _ | .str _ => .ok (.constant expr)
  | .symbol name =>
    .ok (if (Primitive.ofName? name).isSome then .constant (.primitive name)
      else .identifier name)
  | .list _ [] => .error .emptyCall
  | .list _ (head :: operands) =>
    match Value.keyword? [head] with
    | some keyword => special? keyword operands
    | none => .ok (.call head operands)
  | .dotted _ _ _ => .error (.dottedCall expr)
  | _ => .error (.notExpression expr)

end Form

end SmallScheme
