import BudgetReaper.Decimal.Digits
import BudgetReaper.Text.Blank
import BudgetReaper.Text.Digit

/-!
# Decimal — integer numerals

The written form of an integer: blanks, an optional sign, digits of any script with single low
lines between digits only, blanks.  A numeral of more than `digitLimit` digits is refused, leading
zeros counted and low lines not.
-/

namespace BudgetReaper.Decimal

open BudgetReaper.Text

/-- The largest number of digits of a numeral. -/
def digitLimit : Nat := 4300

/-- The digit values of a run of digits; single low lines may stand between digits. -/
def digitRun? : List Char → Option (List Nat)
  | [] => none
  | [c] => (digitValue? c).map ([·])
  | c :: '_' :: rest => do
    let d ← digitValue? c
    let ds ← digitRun? rest
    some (d :: ds)
  | c :: rest => do
    let d ← digitValue? c
    let ds ← digitRun? rest
    some (d :: ds)

/-- The number that an unsigned numeral denotes. -/
def readNat? (cs : List Char) : Option Nat := do
  let ds ← digitRun? cs
  if ds.length ≤ digitLimit then some (ofDigits ds) else none

/-- Whether a sign stands in front, and what follows it. -/
def splitSign : List Char → Bool × List Char
  | '-' :: rest => (true, rest)
  | '+' :: rest => (false, rest)
  | cs => (false, cs)

/-- The integer that a numeral denotes. -/
def readInt? (cs : List Char) : Option Int :=
  let (negative, rest) := splitSign (trim isNumeralBlank cs)
  (readNat? rest).map fun n => if negative then -(n : Int) else n

end BudgetReaper.Decimal
