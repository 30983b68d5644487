import BudgetReaper.Text.Hex
import BudgetReaper.Text.Printable

/-!
# Text — quoted texts

`quoted` writes a text so that a reader of a message sees where it begins and ends and which
characters it holds.  The quote is the apostrophe, or the double quote for a text that holds an
apostrophe and no double quote.  The backslash, the quote in use, line feed, carriage return and
tab have two-character escapes; every other character that is not printable is written as its
code point in two, four or eight hexadecimal digits; all else stands as it is.
-/

namespace BudgetReaper.Text

/-- The quote that encloses `cs`. -/
def quoteFor (cs : List Char) : Char :=
  if cs.contains '\'' && !cs.contains '"' then '"' else '\''

/-- One character of a text enclosed in `quote`. -/
def quotedChar (quote c : Char) : List Char :=
  if c = quote ∨ c = '\\' then ['\\', c]
  else if c = '\n' then ['\\', 'n']
  else if c = '\r' then ['\\', 'r']
  else if c = '\t' then ['\\', 't']
  else if isPrintable c then [c]
  else if c.toNat < 0x100 then '\\' :: 'x' :: hexDigits 2 c.toNat
  else if c.toNat < 0x10000 then '\\' :: 'u' :: hexDigits 4 c.toNat
  else '\\' :: 'U' :: hexDigits 8 c.toNat

/-- `cs` between quotes, with escapes. -/
def quotedChars (cs : List Char) : List Char :=
  let quote := quoteFor cs
  quote :: cs.flatMap (quotedChar quote) ++ [quote]

/-- A text between quotes, with escapes. -/
def quoted (s : String) : String :=
  String.ofList (quotedChars s.toList)

/-- An absent text is written as the bare word for absence. -/
def quotedOrNone : Option String → String
  | none => "None"
  | some s => quoted s

/-- An absent text is written as the bare word for absence, a present one as it stands. -/
def orNone : Option String → String
  | none => "None"
  | some s => s

end BudgetReaper.Text
