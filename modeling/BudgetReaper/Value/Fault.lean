import BudgetReaper.Number
import BudgetReaper.Text.Quoted

/-!
# Values — faults

Why a value cannot be used as it is: a use of a value demands a kind, and a value of another kind
does not meet it.  The kinds are named as messages name them.
-/

namespace BudgetReaper.Value

/-- Why a value cannot be used. -/
inductive Fault where
  /-- Two values of these kinds have no order. -/
  | unordered (sign left right : String)
  /-- Two values of these kinds cannot be combined. -/
  | notCombined (sign left right : String)
  /-- A text or a list cannot be repeated by a value of this kind. -/
  | notRepeated (kind : String)
  /-- A text or a list cannot be repeated that often. -/
  | tooOften
  /-- A repeated text is too long. -/
  | tooLong
  /-- There is no room for a repeated text or list. -/
  | noRoom
  /-- A value of this kind has no items. -/
  | noItems (kind : String)
  /-- A value of this kind has no members. -/
  | noMembers (kind : String)
  /-- A value of this kind is no part of a text. -/
  | notWithinText (kind : String)
  /-- A value of this kind names nothing. -/
  | notAName (kind : String)
  /-- A value of this kind cannot stand behind a text. -/
  | notAText (kind : String)
  /-- A value of this kind does not have the part. -/
  | noPart (kind part : String)
  /-- A number has no result. -/
  | number (f : Number.Fault)
  deriving DecidableEq, Repr, Inhabited

namespace Fault

/-- The text of a fault. -/
def message : Fault → String
  | unordered sign left right =>
    "'" ++ sign ++ "' not supported between instances of '" ++ left ++ "' and '" ++ right ++ "'"
  | notCombined sign left right =>
    "unsupported operand type(s) for " ++ sign ++ ": '" ++ left ++ "' and '" ++ right ++ "'"
  | notRepeated kind => "can't multiply sequence by non-int of type '" ++ kind ++ "'"
  | tooOften => "cannot fit 'int' into an index-sized integer"
  | tooLong => "repeated string is too long"
  | noRoom => ""
  | noItems kind => "'" ++ kind ++ "' object is not iterable"
  | noMembers kind => "argument of type '" ++ kind ++ "' is not iterable"
  | notWithinText kind => "'in <string>' requires string as left operand, not " ++ kind
  | notAName kind => "unhashable type: '" ++ kind ++ "'"
  | notAText kind => "can only concatenate str (not \"" ++ kind ++ "\") to str"
  | noPart kind part => "'" ++ kind ++ "' object has no attribute " ++ Text.quoted part
  | number f => f.message

/-- The name of a kind of fault. -/
def typeName : Fault → String
  | noPart .. => "AttributeError"
  | tooOften => "OverflowError"
  | tooLong => "OverflowError"
  | noRoom => "MemoryError"
  | number f => f.typeName
  | _ => "TypeError"

end Fault

end BudgetReaper.Value
