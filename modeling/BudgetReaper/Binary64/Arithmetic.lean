import BudgetReaper.Binary64.Basic

/-!
# Binary64 — order, products and quotients

`le` compares two doubles as the exact numbers that they denote: no number is at most, or at least,
what is no number.  `times` and `dividedBy` round the exact product, or the exact quotient by a
positive integer, once (`ofRatio`).
-/

namespace BudgetReaper.Binary64

/-- The double with the other sign. -/
def opposite : Binary64 → Binary64
  | nan => nan
  | infinite negative => infinite !negative
  | finite negative m e => finite (!negative) m e

/-- `x ≤ y`. -/
def le : (x y : Binary64) → Bool
  | nan, _ | _, nan => false
  | infinite true, _ | _, infinite false => true
  | infinite false, _ | _, infinite true => false
  | finite s m e, finite t n d => signed s (shift m (e - d)) ≤ signed t (shift n (d - e))

/-- `± m · 2 ^ e / den`, rounded, for a positive `den`. -/
def ofScaled (negative : Bool) (m : Nat) (e : Int) (den : Nat) : Binary64 :=
  ofRatio negative (shift m e) (den * shift 1 (-e))

/-- The product, rounded; an infinity times zero is no number. -/
def times : (x y : Binary64) → Binary64
  | nan, _ | _, nan => nan
  | infinite s, infinite t => infinite (s ^^ t)
  | infinite s, finite t n _ | finite t n _, infinite s => if n = 0 then nan else infinite (s ^^ t)
  | finite s m e, finite t n d => ofScaled (s ^^ t) (m * n) (e + d) 1

/-- The quotient by a positive integer, rounded. -/
def dividedBy (x : Binary64) (den : Nat) : Binary64 :=
  match x with
  | nan => nan
  | infinite s => infinite s
  | finite s m e => ofScaled s m e den

end BudgetReaper.Binary64
