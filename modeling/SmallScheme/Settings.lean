/-
  SETTINGS, from the variables of the environment.

  `SCHEMER_PATH` lists the library roots, `SCHEMER_LOG_LEVEL` names a level of events, and
  `SCHEMER_RECURSION_LIMIT` bounds how deep evaluation may go.  A variable that is not set has a
  value all the same: the bundled library, `WARNING`, and the standard room.

  Of the three only the limit can be wrong by itself.  The level is only a name here, and what it
  means is for the events to say; roots may lead anywhere or nowhere.
-/
import SmallScheme.Fault
import SmallScheme.Room
import SmallScheme.Text.UpperCase

namespace SmallScheme

/-- The variables of the environment. -/
abbrev Variables := List (String × String)

namespace Settings

/-- The roots that `SCHEMER_PATH` lists, with colons between them; without it, the library. -/
def roots (vars : Variables) (library : Path) : List Path :=
  match vars.lookup "SCHEMER_PATH" with
  | none | some "" => [library]
  | some places =>
    ((Path.splitAt ':' places.toList).map Text.trim).filterMap fun place =>
      if place.isEmpty then none else some (.ofString (String.ofList place))

/-- The level of events that are to be shown, in capitals. -/
def logLevel (vars : Variables) : String :=
  Text.upper ((vars.lookup "SCHEMER_LOG_LEVEL").getD "WARNING")

/-- The recursion limit. -/
def recursionLimit (vars : Variables) : Except Fault Int :=
  match vars.lookup "SCHEMER_RECURSION_LIMIT" with
  | none => .ok Room.standard
  | some text =>
    match Numeral.readSetting text.toList with
    | .number n => .ok n
    | .tooLong count => .error (.digitsRead count)
    | .notNumeral => .error (.notInteger text)

/-- The room that a recursion limit gives: a limit can only ask for more than there is anyway. -/
def roomOf (limit : Int) : Nat := (max (Room.standard : Int) limit).toNat

end Settings

end SmallScheme
