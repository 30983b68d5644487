import BudgetReaper.Log.Fault

/-!
# Log — levels and records

A record is what one log call says: who speaks, how serious it is, an event and its fields in
order.  The event is a text as a rule, and may be absent.  A level is a name for a number; a record
is kept if its number is at least the threshold's.
-/

namespace BudgetReaper.Log

/-- How serious a record is. -/
inductive Level where
  | debug
  | info
  | warning
  | error
  deriving DecidableEq, Repr, Inhabited

/-- The number of a level. -/
def Level.number : Level → Nat
  | debug => 10
  | info => 20
  | warning => 30
  | error => 40

/-- The name of a level. -/
def Level.name : Level → String
  | debug => "debug"
  | info => "info"
  | warning => "warning"
  | error => "error"

/-- What one log call says. -/
structure Record where
  logger : String
  level : Level
  event : Value
  fields : List (String × Value)
  /-- The fields whose texts are never quoted. -/
  verbatim : List String := []
  deriving DecidableEq, Repr, Inhabited

/-- The record of an event that is a text. -/
def Record.of (logger : String) (level : Level) (event : String)
    (fields : List (String × Value)) : Record :=
  { logger, level, event := .str event, fields }

/-- The record as an object. -/
def Record.toValue (r : Record) : Value :=
  .object [("event", r.event), ("fields", .object r.fields), ("level", .str r.level.name),
    ("logger", .str r.logger)]

/-! ### Thresholds -/

/-- The large letters of a character, as far as the name of a threshold may hold them.  Of the characters
beyond ASCII whose large letters are ASCII, the sharp s and the ligatures of `f` are left out: their large
letters are a double `S`, or an `F` with an `F`, an `I` or an `L` behind it, and no name below holds
these. -/
def largeLetters (c : Char) : List Char :=
  if c = 'ı' then ['I']
  else if c = 'ſ' then ['S']
  else if c = 'ﬅ' ∨ c = 'ﬆ' then ['S', 'T']
  else [c.toUpper]

/-- The number that the name of a threshold stands for, in any case; an unknown name stands for the
level of information, and two names for what is no level. -/
def thresholdOf (name : String) : Except LevelFault Nat :=
  match String.ofList (name.toList.flatMap largeLetters) with
  | "DEBUG" => .ok 10
  | "WARN" | "WARNING" => .ok 30
  | "ERROR" => .ok 40
  | "CRITICAL" | "FATAL" => .ok 50
  | "NOTSET" => .ok 0
  | "BASIC_FORMAT" => .error (.text "%(levelname)s:%(name)s:%(message)s")
  | "_STYLES" => .error .table
  | _ => .ok 20

end BudgetReaper.Log
