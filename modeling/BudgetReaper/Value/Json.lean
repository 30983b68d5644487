import BudgetReaper.Binary64.Shortest
import BudgetReaper.Text.CodePoint
import BudgetReaper.Text.Hex
import BudgetReaper.Value.Basic

/-!
# Values — JSON text

`json` writes a value as JSON in the printable ASCII characters: `", "` between items, `": "`
after names, short escapes for the seven characters that have one, and every other character
outside the space to the tilde as its UTF-16 units.  Half of a pair is one unit (`jsonCodePoint`).
`sortKeys` orders the fields of every object by name, so that `canonical` gives equal texts to
objects that differ in the order of their fields.
-/

namespace BudgetReaper.Value

open BudgetReaper.Text (hexDigits)

/-! ### Texts -/

/-- A UTF-16 unit as an escape. -/
def escapedUnit (n : Nat) : List Char :=
  '\\' :: 'u' :: hexDigits 4 n

/-- One character of a JSON text. -/
def jsonChar (c : Char) : List Char :=
  if c = '"' then ['\\', '"']
  else if c = '\\' then ['\\', '\\']
  else if c = '\n' then ['\\', 'n']
  else if c = '\r' then ['\\', 'r']
  else if c = '\t' then ['\\', 't']
  else if c = '\x0c' then ['\\', 'f']
  else if c = '\x08' then ['\\', 'b']
  else if 0x20 ≤ c.toNat ∧ c.toNat < 0x7F then [c]
  else if c.toNat < 0x10000 then escapedUnit c.toNat
  else
    escapedUnit (0xD800 + (c.toNat - 0x10000) / 0x400) ++
      escapedUnit (0xDC00 + (c.toNat - 0x10000) % 0x400)

/-- A text between double quotes. -/
def jsonText (s : String) : List Char :=
  '"' :: s.toList.flatMap jsonChar ++ ['"']

/-- One code point of a JSON text. -/
def jsonCodePoint : CodePoint → List Char
  | .char c => jsonChar c
  | .half n => escapedUnit n

/-- Code points between double quotes. -/
def jsonCodePoints (ps : List CodePoint) : List Char :=
  '"' :: ps.flatMap jsonCodePoint ++ ['"']

/-- A double; the three that are not finite have words of their own. -/
def jsonFloat : Binary64 → List Char
  | .nan => "NaN".toList
  | .infinite negative => (if negative then "-Infinity" else "Infinity").toList
  | x => x.text.toList

/-! ### Values -/

mutual

/-- The JSON text of a value. -/
def jsonChars : Value → List Char
  | null => "null".toList
  | bool b => (if b then "true" else "false").toList
  | int n => Decimal.ofInt n
  | float x => jsonFloat x
  | str s => jsonText s
  | list items => '[' :: jsonItems items ++ [']']
  | object fields => '\x7b' :: jsonFields fields ++ ['\x7d']

/-- The items of a list, separated by commas. -/
def jsonItems : List Value → List Char
  | [] => []
  | [v] => jsonChars v
  | v :: rest => jsonChars v ++ ',' :: ' ' :: jsonItems rest

/-- The fields of an object, separated by commas. -/
def jsonFields : List (String × Value) → List Char
  | [] => []
  | [(k, v)] => jsonText k ++ ':' :: ' ' :: jsonChars v
  | (k, v) :: rest =>
    jsonText k ++ ':' :: ' ' :: jsonChars v ++ ',' :: ' ' :: jsonFields rest

end

/-- The JSON text of a value. -/
def json (v : Value) : String :=
  String.ofList v.jsonChars

/-! ### The order of fields -/

/-- Fields ordered by name. -/
def sortFields (fields : List (String × Value)) : List (String × Value) :=
  fields.mergeSort fun a b => decide (a.1 ≤ b.1)

mutual

/-- The value with the fields of every object in it ordered by name. -/
def sortKeys : Value → Value
  | list items => list (sortKeysItems items)
  | object fields => object (sortFields (sortKeysFields fields))
  | v => v

/-- The items with the fields of every object in them ordered by name. -/
def sortKeysItems : List Value → List Value
  | [] => []
  | v :: rest => sortKeys v :: sortKeysItems rest

/-- The fields with the fields of every object below them ordered by name. -/
def sortKeysFields : List (String × Value) → List (String × Value)
  | [] => []
  | (k, v) :: rest => (k, sortKeys v) :: sortKeysFields rest

end

/-- The JSON text of a value with ordered fields. -/
def canonical (v : Value) : String :=
  v.sortKeys.json

end BudgetReaper.Value
