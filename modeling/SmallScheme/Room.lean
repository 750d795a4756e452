/-
  ROOM: how deep a computation may go.

  Evaluating, reading, printing and comparing work from the outside in.  Each is given room, and
  works on a part in less room than on the whole; without room it gives up.  How much less is a
  matter of the construct: the numbers below count the calls that lie between the work on the
  whole and the work on the part.

  What has no parts takes room as well.  A number, a string or a symbol is read, written or
  compared by a few calls of its own, and their number depends on what it is: so lists in lists
  may be nested a little deeper if the innermost one is empty than if there is a symbol in it.
  These calls all lie at the very bottom, and there are never many of them.

  So that they do not matter where data are not deep, `room` does not count them: besides its room,
  reading, printing or comparing has a `margin`, which is more than any leaf takes.  What the
  room lets pass is passed whatever the leaves are; where the data go beyond the room, it is up
  to the leaves whether the margin is enough.
-/
namespace SmallScheme.Room

/-- The room that there is where no setting asks for more. -/
def standard : Nat := 10000

/-- What there is besides the room, for the calls at the very bottom. -/
def margin : Nat := 16

/-! ## Evaluating -/

/-- What the operator of a call takes. -/
def operator : Nat := 2

/-- What an operand of a call takes. -/
def operand : Nat := 3

/-- What an expression inside a special form takes. -/
def part : Nat := 2

/-- What the body of a closure takes that is called for its value. -/
def body : Nat := 4

/-- What the work of a primitive takes. -/
def primitive : Nat := 5

/-- What the text of a required module takes. -/
def moduleText : Nat := 5

/-- What a form of a required module takes. -/
def moduleForm : Nat := 6

/-! ## Reading

Each list or quote that is open takes one of the room, for the call that reads it. -/

/-- What an atom takes: the calls that read it, find out what it is, make it a symbol and keep
    its name. -/
def atom : Nat := 4

/-- What a string takes: the call that reads it. -/
def literal : Nat := 1

/-! ## Printing and comparing -/

/-- What it takes to tell values of two kinds apart. -/
def kinds : Nat := 2

/-- What an item of a list takes when the list is printed or compared. -/
def item : Nat := 3

/-- What the tail of a dotted list takes, and the body of a closure when it is compared.  It is
    also what each list takes that is shown in detail. -/
def nested : Nat := 1

/-- What the items of a dotted list take when it is compared. -/
def dottedItem : Nat := 4

/-- What a value in a frame takes when closures are compared. -/
def bound : Nat := 4

/-- What the items of a dotted list and the body of a closure take when they are shown in
    detail. -/
def detail : Nat := 2

end SmallScheme.Room
