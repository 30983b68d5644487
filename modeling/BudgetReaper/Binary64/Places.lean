import BudgetReaper.Binary64.Shortest

/-!
# Binary64 — a set number of digits

`digits` writes the size of a double with a set number of digits: behind the point, behind the first
of them, or in all.  What is rounded is the exact value, a tie to the even digit (`roundDiv`).  A
number of digits in all writes no zeros at the end and chooses the notation by the order of the
rounded value: positional from -4 up to the number of digits.  No double has more digits behind the
point than `exactPlaces`, so that the digits behind those are zeros.

A point with no digit behind it, and zeros at the end of a number of digits in all, are written only
if they are asked for (`full`).
-/

namespace BudgetReaper.Binary64

/-- What a number of digits counts. -/
inductive Places where
  | behindPoint
  | behindFirst
  | inAll
  deriving DecidableEq, Repr, Inhabited

/-- The double has a minus sign. -/
def isNegative : Binary64 → Bool
  | .nan => false
  | .infinite negative => negative
  | .finite negative _ _ => negative

/-- Digits with a point between them. -/
def pointed (full : Bool) (whole fraction : List Char) : List Char :=
  if fraction.isEmpty && !full then whole else whole ++ '.' :: fraction

/-- The digits of `n`, with zeros in front up to `width` of them. -/
def paddedDigits (width n : Nat) : List Char :=
  let ds := Decimal.ofNat n
  List.replicate (width - ds.length) '0' ++ ds

/-- The digits behind the point that can be other than zero in a multiple of `2 ^ e`. -/
def exactPlaces (e : Int) : Nat :=
  (-e).toNat

/-- `m · 2 ^ e` with `places` digits behind the point. -/
def fixed (full : Bool) (places m : Nat) (e : Int) : List Char :=
  let (num, den) := ratio m e
  let exact := min places (exactPlaces e)
  let ds := paddedDigits (exact + 1) (roundDiv (num * Decimal.unit exact) den)
  let whole := ds.length - exact
  pointed full (ds.take whole) (ds.drop whole ++ List.replicate (places - exact) '0')

/-- The first `places + 1` digits of `m · 2 ^ e`, rounded, and the order of the first. -/
def leading (places m : Nat) (e : Int) : List Char × Int :=
  if m = 0 then (List.replicate (places + 1) '0', 0)
  else
    let (num, den) := ratio m e
    let order := decimalOrder num den
    let k := (places : Int) - order
    let zeros := (k - exactPlaces e).toNat
    let k := k - zeros
    let d := roundDiv (num * Decimal.unit k.toNat) (den * Decimal.unit (-k).toNat)
    if Decimal.length d = places + 2 then (Decimal.ofNat (d / 10), order + 1)
    else (Decimal.ofNat d ++ List.replicate zeros '0', order)

/-- Digits whose first has the order `k`, in exponent notation. -/
def scientific (full : Bool) (ds : List Char) (k : Int) : List Char :=
  pointed full (ds.take 1) (ds.drop 1) ++ 'e' :: exponentText k

/-- Digits whose first has the order `k`, in positional notation. -/
def positional (full : Bool) (ds : List Char) (k : Int) : List Char :=
  if k < 0 then '0' :: '.' :: List.replicate (-k - 1).toNat '0' ++ ds
  else
    let whole := k.toNat + 1
    pointed full (ds.take whole ++ List.replicate (whole - ds.length) '0') (ds.drop whole)

/-- Digits without the zeros at their end, but for the first. -/
def significant : List Char → List Char
  | [] => []
  | d :: ds => d :: Text.trimRight (· == '0') ds

/-- `m · 2 ^ e` with `count` digits in all. -/
def general (full : Bool) (count m : Nat) (e : Int) : List Char :=
  let (ds, k) := leading (count - 1) m e
  let kept := if full then ds else significant ds
  if k < -4 ∨ (max 1 count : Int) ≤ k then scientific full kept k else positional full kept k

/-- The size of a double with `n` digits, without its sign. -/
def digits (places : Places) (full : Bool) (n : Nat) : Binary64 → List Char
  | .nan => "nan".toList
  | .infinite _ => "inf".toList
  | .finite _ m e =>
    match places with
    | .behindPoint => fixed full n m e
    | .behindFirst =>
      let (ds, k) := leading n m e
      scientific full ds k
    | .inAll => general full n m e

end BudgetReaper.Binary64
