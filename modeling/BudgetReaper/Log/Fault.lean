import BudgetReaper.Signature
import BudgetReaper.Value.Template

/-!
# Log — faults

Why a call on a log fails, or the set-up of a log.  A call is refused whose arguments do not fit its
parameters, or whose fields bear the names of parameters further in; a line is not made if the event
cannot be filled with the arguments that come with it, or if a part that must be a text is none.
-/

namespace BudgetReaper.Log

/-- Why a call on a log fails. -/
inductive Fault where
  /-- Arguments that do not fit. -/
  | call (f : Signature.Fault)
  /-- A value that cannot be shown. -/
  | value (f : Value.Fault)
  /-- Arguments for an event that are no collection. -/
  | unsized (kind : String)
  /-- An object where a list of arguments was expected. -/
  | notAList
  /-- Arguments without an event. -/
  | noEvent
  /-- An event that cannot be filled with its arguments. -/
  | template (f : Template.Fault)
  deriving DecidableEq, Repr, Inhabited

namespace Fault

/-- The text of a fault. -/
def message : Fault → String
  | call f => f.message
  | value f => f.message
  | unsized kind => "object of type '" ++ kind ++ "' has no len()"
  | notAList => "0"
  | noEvent => "'event'"
  | template f => f.message

/-- The name of a kind of fault. -/
def typeName : Fault → String
  | notAList | noEvent => "KeyError"
  | template f => f.typeName
  | value f => f.typeName
  | _ => "TypeError"

end Fault

/-! ### Levels -/

/-- Why no level is found: a text or a table of texts stands where one was sought, or the name of
the level is no text. -/
inductive LevelFault where
  | text (s : String)
  | table
  | name (f : Value.Fault)
  deriving DecidableEq, Repr, Inhabited

namespace LevelFault

/-- The table as it stands in a message. -/
def tableText : String :=
  "\x7b'%': (<class 'logging.PercentStyle'>, '%(levelname)s:%(name)s:%(message)s'), " ++
    "'\x7b': (<class 'logging.StrFormatStyle'>, " ++
    "'\x7blevelname\x7d:\x7bname\x7d:\x7bmessage\x7d'), " ++
    "'$': (<class 'logging.StringTemplateStyle'>, " ++
    "'$\x7blevelname\x7d:$\x7bname\x7d:$\x7bmessage\x7d')\x7d"

/-- The text of a fault. -/
def message : LevelFault → String
  | text s => "Unknown level: " ++ Text.quoted s
  | table => "Level not an integer or a valid string: " ++ tableText
  | name f => f.message

/-- The name of a kind of fault. -/
def typeName : LevelFault → String
  | text _ => "ValueError"
  | table => "TypeError"
  | name f => f.typeName

end LevelFault

end BudgetReaper.Log
