import BudgetReaper.Binary64.Shortest
import BudgetReaper.Text.Quoted
import BudgetReaper.Value.Basic

/-!
# Values — the text shown in a message

`display` is the text of a value inside a message: texts are quoted, lists stand in brackets,
objects in braces with quoted names, and the three constants are capitalised words.  `plain` is
the same but for a text, which stands as it is.
-/

namespace BudgetReaper.Value

open BudgetReaper.Text (quoted)

mutual

/-- The text of a value inside a message. -/
def display : Value → String
  | null => "None"
  | bool b => if b then "True" else "False"
  | int n => Decimal.text n
  | float x => x.text
  | str s => quoted s
  | list items => "[" ++ displayItems items ++ "]"
  | object fields => "\x7b" ++ displayFields fields ++ "\x7d"

/-- The items of a list, separated by commas. -/
def displayItems : List Value → String
  | [] => ""
  | [v] => display v
  | v :: rest => display v ++ ", " ++ displayItems rest

/-- The fields of an object, separated by commas. -/
def displayFields : List (String × Value) → String
  | [] => ""
  | [(k, v)] => quoted k ++ ": " ++ display v
  | (k, v) :: rest => quoted k ++ ": " ++ display v ++ ", " ++ displayFields rest

end

/-- The text of a value by itself: a text stands without quotes. -/
def plain : Value → String
  | str s => s
  | v => v.display

/-- The word for the kind of a value. -/
def kindName : Value → String
  | null => "NoneType"
  | bool _ => "bool"
  | int _ => "int"
  | float _ => "float"
  | str _ => "str"
  | list _ => "list"
  | object _ => "dict"

end BudgetReaper.Value
