import BudgetReaper.Binary64.Reading

/-!
# Binary64 — the shortest digits that read back

`shortest` gives, for a positive finite double, the fewest decimal digits whose number rounds to
that double, and of those the number nearest to it.  For `n` digits the candidates are the two
neighbours of the value on the grid of `n`-digit numbers; the first `n` with a candidate that
reads back is taken, of two candidates the nearer, at a tie the even one.

`text` writes a double: positional notation for orders from -4 to 15 with at least one digit after
the point, otherwise one digit, the remaining digits after a point, and an exponent of at least
two digits with its sign.
-/

namespace BudgetReaper.Binary64

/-- `m · 2 ^ e` as a quotient of natural numbers. -/
def ratio (m : Nat) (e : Int) : Nat × Nat :=
  (shift m e, shift 1 (-e))

/-- The decimal order of a positive quotient: `10 ^ k ≤ num / den < 10 ^ (k + 1)`. -/
def decimalOrder (num den : Nat) : Int :=
  let k : Int := (Decimal.length num : Int) - Decimal.length den
  if num * Decimal.unit (-k).toNat < den * Decimal.unit k.toNat then k - 1 else k

/-- The candidate with digits `d` on the grid of step `10 ^ k` reads back as `m · 2 ^ e`. -/
def readsBack (m : Nat) (e : Int) (d : Nat) (k : Int) : Bool :=
  ofRatio false (d * Decimal.unit k.toNat) (Decimal.unit (-k).toNat) == .finite false m e

/-- The digits and the grid exponent, on the grid of `n`-digit numbers, of the candidate nearest
to `m · 2 ^ e` that reads back. -/
def onGrid? (m : Nat) (e order : Int) (n : Nat) : Option (Nat × Int) :=
  let k := order - (n - 1 : Nat)
  let (num, den) := ratio m e
  let scaled := num * Decimal.unit (-k).toNat
  let unit := den * Decimal.unit k.toNat
  let low := scaled / unit
  let rest := scaled % unit
  let lowBack := readsBack m e low k
  let highBack := readsBack m e (low + 1) k
  let nearLow := 2 * rest < unit || (2 * rest == unit && low % 2 == 0)
  if lowBack && (nearLow || !highBack) then some (low, k)
  else if highBack then some (low + 1, k)
  else none

/-- The fewest digits, from `n` on and at most `n + fuel`, that read back as `m · 2 ^ e`. -/
def shortestFrom (m : Nat) (e order : Int) : (fuel n : Nat) → Nat × Int
  | 0, n => ((onGrid? m e order n).getD (m, e))
  | fuel + 1, n => (onGrid? m e order n).getD (shortestFrom m e order fuel (n + 1))

/-- The digits of a positive finite double and the place of the point after the first of them:
`(ds, k)` denotes `0.ds · 10 ^ k`. -/
def shortest (m : Nat) (e : Int) : List Char × Int :=
  let (num, den) := ratio m e
  let (d, k) := shortestFrom m e (decimalOrder num den) 16 1
  let ds := Decimal.ofNat d
  let kept := Text.trimRight (· == '0') ds
  (kept, k + ds.length)

/-- The exponent part of a text: a sign and at least two digits. -/
def exponentText (e : Int) : List Char :=
  let ds := Decimal.ofNat e.natAbs
  (if e < 0 then '-' else '+') :: (if ds.length < 2 then '0' :: ds else ds)

/-- Digits with the point at place `k`, in positional or in exponent notation. -/
def layout (ds : List Char) (k : Int) : List Char :=
  if 16 < k ∨ k ≤ -4 then
    let mantissa := match ds with
      | d :: d' :: rest => d :: '.' :: d' :: rest
      | _ => ds
    mantissa ++ 'e' :: exponentText (k - 1)
  else if k ≤ 0 then
    '0' :: '.' :: List.replicate (-k).toNat '0' ++ ds
  else
    let whole := ds.take k.toNat
    let fraction := ds.drop k.toNat
    whole ++ List.replicate (k.toNat - whole.length) '0' ++
      '.' :: (if fraction.isEmpty then ['0'] else fraction)

/-- The text of a double. -/
def text : Binary64 → String
  | .nan => "nan"
  | .infinite negative => if negative then "-inf" else "inf"
  | .finite negative m e =>
    let magnitude :=
      if m = 0 then ['0', '.', '0']
      else
        let (ds, k) := shortest m e
        layout ds k
    String.ofList (if negative then '-' :: magnitude else magnitude)

end BudgetReaper.Binary64
