import BudgetReaper.Binary64.Basic
import BudgetReaper.Decimal.Numeral

/-!
# Binary64 — decimal numerals

The written forms of a double: blanks, an optional sign, then one of the words for an infinity or
for no number in any case, or digits of any script with an optional point and an optional
exponent, then blanks.  Single low lines may stand between digits, nowhere else.  The value is the
nearest double (`ofDecimal`).
-/

namespace BudgetReaper.Binary64

open BudgetReaper.Text
open BudgetReaper.Decimal (digitRun? ofDigits splitSign)

/-- The double nearest to `± n · 10 ^ e`.  Beyond the first two bounds the value is above every
finite double or below half of the least one, whatever the digits are. -/
def ofDecimal (negative : Bool) (n : Nat) (e : Int) : Binary64 :=
  if n = 0 then ofRatio negative 0 1
  else
    let order := (Decimal.length n : Int) + e
    if 400 < order then .infinite negative
    else if order < -400 then ofRatio negative 0 1
    else ofRatio negative (n * Decimal.unit e.toNat) (Decimal.unit (-e).toNat)

/-- A text in lower case, letters of the ASCII alphabet only. -/
def lowered (cs : List Char) : List Char :=
  cs.map Char.toLower

/-- The digits of a part of a numeral that may be empty. -/
def optionalRun? (cs : List Char) : Option (List Nat) :=
  if cs.isEmpty then some [] else digitRun? cs

/-- `cs` before its first character of `p`, and what follows that character if there is one. -/
def splitFirst (p : Char → Bool) (cs : List Char) : List Char × Option (List Char) :=
  match cs.dropWhile fun c => !p c with
  | [] => (cs, none)
  | _ :: rest => (cs.takeWhile fun c => !p c, some rest)

/-- The integer and the fraction digits of a mantissa, not both empty. -/
def readMantissa? (cs : List Char) : Option (List Nat × List Nat) := do
  let (whole, fraction) := splitFirst (· == '.') cs
  let ws ← optionalRun? whole
  let fs ← optionalRun? (fraction.getD [])
  if ws.isEmpty && fs.isEmpty then none else some (ws, fs)

/-- The exponent of a numeral: an optional sign and digits. -/
def readExponent? (cs : List Char) : Option Int := do
  let (negative, rest) := splitSign cs
  let ds ← digitRun? rest
  some (signed negative (ofDigits ds))

/-- The double that an unsigned numeral denotes, under the given sign. -/
def readMagnitude? (negative : Bool) (cs : List Char) : Option Binary64 :=
  let word := String.ofList (lowered cs)
  if word = "inf" ∨ word = "infinity" then some (.infinite negative)
  else if word = "nan" then some .nan
  else do
    let (mantissa, exponent) := splitFirst (fun c => c == 'e' || c == 'E') cs
    let (ws, fs) ← readMantissa? mantissa
    let e ← match exponent with
      | none => some 0
      | some rest => readExponent? rest
    some (ofDecimal negative (ofDigits (ws ++ fs)) (e - fs.length))

/-- The double that a numeral denotes. -/
def read? (cs : List Char) : Option Binary64 :=
  let (negative, rest) := splitSign (trim isNumeralBlank cs)
  readMagnitude? negative rest

end BudgetReaper.Binary64
