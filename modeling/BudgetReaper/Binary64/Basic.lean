/-!
# Binary64 — doubles as exact numbers

A finite double is a sign, a mantissa below `2 ^ 53` and an exponent: it denotes
`± mantissa · 2 ^ exponent`.  `ofRatio` rounds a quotient to the nearest double, a tie to the even
mantissa, and gives an infinity where the rounded quotient would need an exponent above the
largest.  `ceil?`, `floor?`, `truncate?` and `atLeast` are exact.
-/

namespace BudgetReaper

/-- A double: not a number, an infinity, or `± mantissa · 2 ^ exponent`. -/
inductive Binary64 where
  | nan
  | infinite (negative : Bool)
  | finite (negative : Bool) (mantissa : Nat) (exponent : Int)
  deriving DecidableEq, Repr, Inhabited

namespace Binary64

/-! ### Rounding a quotient -/

/-- `num / den` to the nearest integer, a tie to the even one. -/
def roundDiv (num den : Nat) : Nat :=
  let q := num / den
  let r := num % den
  if 2 * r < den then q else if den < 2 * r then q + 1 else q + q % 2

/-- `n · 2 ^ k` for a `k` that is not negative, and `n` otherwise. -/
def shift (n : Nat) (k : Int) : Nat :=
  n <<< k.toNat

/-- The number of bits of a mantissa, all of them used above the smallest doubles. -/
def precision : Nat := 53

/-- The exponent of the lowest mantissa bit. -/
def minExponent : Int := -1074

/-- The largest exponent of a mantissa of 53 bits. -/
def maxExponent : Int := 971

/-- The power of two at or below `num / den`: `2 ^ k ≤ num / den < 2 ^ (k + 1)`. -/
def binaryOrder (num den : Nat) : Int :=
  let k : Int := (Nat.log2 num : Int) - Nat.log2 den
  if shift num (-k) < shift den k then k - 1 else k

/-- The double nearest to `± num / den`, for a positive `den`. -/
def ofRatio (negative : Bool) (num den : Nat) : Binary64 :=
  if num = 0 then .finite negative 0 minExponent
  else
    let e := max minExponent (binaryOrder num den - (precision - 1 : Nat))
    let m := roundDiv (shift num (-e)) (shift den e)
    let (m, e) := if m = 1 <<< precision then (1 <<< (precision - 1), e + 1) else (m, e)
    if maxExponent < e then .infinite negative else .finite negative m e

/-- The double nearest to `n / den`, for a positive `den`. -/
def ofIntRatio (n : Int) (den : Nat) : Binary64 :=
  ofRatio (n < 0) n.natAbs den

/-- The double nearest to `n`. -/
def ofInt (n : Int) : Binary64 :=
  ofIntRatio n 1

/-! ### Exact readings -/

/-- `± mantissa` as an integer. -/
def signed (negative : Bool) (mantissa : Nat) : Int :=
  if negative then -(mantissa : Int) else mantissa

/-- The least integer not below the double; `none` for an infinity and for no number. -/
def ceil? : Binary64 → Option Int
  | .finite negative m e =>
    some (-((-(signed negative (shift m e))) / (shift 1 (-e) : Int)))
  | _ => none

/-- The greatest integer not above the double; `none` for an infinity and for no number. -/
def floor? : Binary64 → Option Int
  | .finite negative m e => some (signed negative (shift m e) / (shift 1 (-e) : Int))
  | _ => none

/-- The integer part of the double; `none` for an infinity and for no number. -/
def truncate? : Binary64 → Option Int
  | .finite negative m e => some (signed negative (shift m e / shift 1 (-e)))
  | _ => none

/-- Whether `k ≤ x`. -/
def atLeast (x : Binary64) (k : Int) : Bool :=
  match x with
  | .nan => false
  | .infinite negative => !negative
  | .finite negative m e => k * (shift 1 (-e) : Int) ≤ signed negative (shift m e)

/-- Whether the double is above zero. -/
def isPositive : Binary64 → Bool
  | .nan => false
  | .infinite negative => !negative
  | .finite negative m _ => !negative && m != 0

/-- Whether the double is a number of finite size. -/
def isFinite : Binary64 → Bool
  | .finite .. => true
  | _ => false

/-! ### Small facts -/

/-- Rounding is within half a unit. -/
theorem roundDiv_near (num : Nat) {den : Nat} (h : 0 < den) :
    2 * (roundDiv num den * den) ≤ 2 * num + den ∧
      2 * num ≤ 2 * (roundDiv num den * den) + den := by
  have split := Nat.div_add_mod num den
  have below := Nat.mod_lt num h
  rw [Nat.mul_comm] at split
  simp only [roundDiv]
  split
  · omega
  · split
    · rw [Nat.add_mul]; omega
    · have : num / den % 2 = 0 ∨ num / den % 2 = 1 := by omega
      rw [Nat.add_mul]
      rcases this with even | odd
      · rw [even]; omega
      · rw [odd]; omega

/-- A whole quotient is kept. -/
theorem roundDiv_mul (n : Nat) {den : Nat} (h : 0 < den) : roundDiv (n * den) den = n := by
  simp [roundDiv, Nat.mul_div_cancel n h, h]

@[simp] theorem shift_zero (n : Nat) : shift n 0 = n := by
  simp [shift]

theorem ofRatio_zero (negative : Bool) (den : Nat) :
    ofRatio negative 0 den = .finite negative 0 minExponent := by
  simp [ofRatio]

end Binary64

end BudgetReaper
