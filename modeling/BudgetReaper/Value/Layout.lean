import BudgetReaper.Text.Blank
import BudgetReaper.Value.Display
import BudgetReaper.Value.Json

/-!
# Values — layout over lines

`laidOut` writes a value in lines of at most `lineWidth` characters where it can.  A value whose
text fits stands on one line.  An object that does not fit has one field a line, a list one item a
line, each aligned under the first; a text that does not fit is cut after its line ends and, where
a line is still too wide, between words, each part quoted by itself.  Fields are in the order of
their names.
-/

namespace BudgetReaper.Value

open BudgetReaper.Text (isBlank quoted quotedChars)

/-- The width that lines are fitted to. -/
def lineWidth : Int := 80

/-! ### Cutting a text -/

/-- A character that ends a line. -/
def isLineEnd (c : Char) : Bool :=
  let n := c.toNat
  (0x0A ≤ n && n ≤ 0x0D) || (0x1C ≤ n && n ≤ 0x1E) || n == 0x85 || n == 0x2028 || n == 0x2029

/-- The lines of a text, each with its end; `line` holds the characters of the first one read so
far, in reverse. -/
def linesFrom (line : List Char) : List Char → List (List Char)
  | [] => if line.isEmpty then [] else [line.reverse]
  | '\r' :: '\n' :: rest => ('\n' :: '\r' :: line).reverse :: linesFrom [] rest
  | c :: rest =>
    if isLineEnd c then (c :: line).reverse :: linesFrom [] rest else linesFrom (c :: line) rest

/-- The words of a line, each with the blanks behind it; `word` holds the characters of the first
one read so far, in reverse, and `closed` whether a blank is among them. -/
def wordsFrom (word : List Char) (closed : Bool) : List Char → List (List Char)
  | [] => if word.isEmpty then [] else [word.reverse]
  | c :: rest =>
    if isBlank c then wordsFrom (c :: word) true rest
    else if closed then word.reverse :: wordsFrom [c] false rest
    else wordsFrom (c :: word) false rest

/-- The number of characters of a quoted text. -/
def quotedWidth (cs : List Char) : Int :=
  (quotedChars cs).length

/-- Words joined into parts whose quoted forms are at most `limit` wide, at most `last` for the
part of the last word, where one word alone is not wider. -/
def joinWords (limit last : Int) (part : List Char) : List (List Char) → List (List Char)
  | [] => if part.isEmpty then [] else [part]
  | word :: rest =>
    let bound := if rest.isEmpty then last else limit
    if bound < quotedWidth (part ++ word) then
      if part.isEmpty then joinWords limit last word rest
      else part :: joinWords limit last word rest
    else joinWords limit last (part ++ word) rest

/-- The parts of the lines of a text: the last line has `allowance` fewer columns. -/
def cutLines (limit allowance : Int) : List (List Char) → List (List Char)
  | [] => []
  | line :: rest =>
    let last := if rest.isEmpty then limit - allowance else limit
    let parts :=
      if quotedWidth line ≤ last then [line]
      else joinWords limit last [] (wordsFrom [] false line)
    parts ++ cutLines limit allowance rest

/-- A line end and `indent` spaces. -/
def newLine (indent : Nat) : String :=
  String.ofList ('\n' :: List.replicate indent ' ')

/-- A text over lines, its parts aligned at `indent`. -/
def layoutText (indent allowance : Nat) (s : String) : String :=
  if s.isEmpty then quoted s
  else
    let parts := cutLines (lineWidth - indent) allowance (linesFrom [] s.toList)
    (newLine indent).intercalate (parts.map fun part => String.ofList (quotedChars part))

/-! ### Values -/

/-- Whether the text of a value fits between column `indent` and the columns kept behind it. -/
def fits (indent allowance : Nat) (v : Value) : Bool :=
  (v.display.length : Int) ≤ lineWidth - indent - allowance

mutual

/-- A value over lines, from column `indent` on, with `allowance` columns kept behind it. -/
def layoutAt (indent allowance : Nat) : Value → String
  | list items =>
    if fits indent allowance (list items) then (list items).display
    else "[" ++ layoutItems (indent + 1) (allowance + 1) items ++ "]"
  | object fields =>
    if fits indent allowance (object fields) then (object fields).display
    else "\x7b" ++ layoutFields (indent + 1) (allowance + 1) fields ++ "\x7d"
  | str s => if fits indent allowance (str s) then quoted s else layoutText indent allowance s
  | v => v.display

/-- The items of a list, one a line. -/
def layoutItems (indent allowance : Nat) : List Value → String
  | [] => ""
  | [v] => layoutAt indent allowance v
  | v :: rest => layoutAt indent 1 v ++ "," ++ newLine indent ++ layoutItems indent allowance rest

/-- The fields of an object, one a line. -/
def layoutFields (indent allowance : Nat) : List (String × Value) → String
  | [] => ""
  | [(k, v)] =>
    quoted k ++ ": " ++ layoutAt (indent + (quoted k).length + 2) allowance v
  | (k, v) :: rest =>
    quoted k ++ ": " ++ layoutAt (indent + (quoted k).length + 2) 1 v ++ "," ++ newLine indent ++
      layoutFields indent allowance rest

end

/-- A value over lines. -/
def laidOut (v : Value) : String :=
  layoutAt 0 0 v.sortKeys

end BudgetReaper.Value
