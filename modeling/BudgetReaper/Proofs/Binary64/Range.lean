import Mathlib.Algebra.Group.Nat.Defs
import BudgetReaper.Binary64.Basic

/-!
# Binary64 — the range of the finite doubles

A quotient is rounded to a finite double exactly if it is below `2 ^ 1024 - 2 ^ 970`
(`isFinite_ofRatio_iff`).  That is the middle between the largest finite double and the next power of
two, and the middle itself is rounded up, since the largest mantissa is odd (`roundDiv_odd`).
-/

namespace BudgetReaper.Binary64

/-- The order of half a unit of the largest finite doubles. -/
def halfOrder : Nat := 970

/-- Half a unit of the largest finite doubles. -/
def halfUnit : Nat := 2 ^ halfOrder

/-- The least magnitude that is rounded to an infinity, `2 ^ 1024 - 2 ^ 970`. -/
def limit : Nat := (2 ^ 54 - 1) * halfUnit

theorem halfUnit_pos : 0 < halfUnit :=
  Nat.two_pow_pos _

theorem limit_pos : 0 < limit :=
  Nat.mul_pos (by decide) halfUnit_pos

theorem two_pow_mul (k den : Nat) : 2 ^ (k + halfOrder) * den = 2 ^ k * (den * halfUnit) := by
  rw [Nat.pow_add, Nat.mul_assoc, Nat.mul_comm den, halfUnit]

theorem shift_natCast (n k : Nat) : shift n (k : Int) = n * 2 ^ k := by
  rw [shift, Int.toNat_natCast, Nat.shiftLeft_eq]

theorem shift_neg_natCast (n k : Nat) : shift n (-(k : Int)) = n := by
  rw [shift, Int.toNat_neg_natCast]
  rfl

theorem shift_maxExponent (den : Nat) : shift den maxExponent = 2 * (den * halfUnit) := by
  rw [show maxExponent = ((halfOrder + 1 : Nat) : Int) from rfl, shift_natCast, Nat.mul_comm, Nat.add_comm,
    two_pow_mul 1 den, Nat.pow_one]

/-- The order of a quotient is the greatest power of two at or below it. -/
theorem le_binaryOrder_iff {num den : Nat} (hn : num ≠ 0) (hd : den ≠ 0) (k : Nat) :
    (k : Int) ≤ binaryOrder num den ↔ 2 ^ k * den ≤ num := by
  have num_lower := Nat.log2_self_le hn
  have num_upper : num < 2 ^ (num.log2 + 1) := Nat.lt_log2_self
  have den_lower := Nat.log2_self_le hd
  have den_upper : den < 2 ^ (den.log2 + 1) := Nat.lt_log2_self
  -- what the two magnitudes say of a power of two times the divisor
  have under {j : Nat} (h : j + den.log2 + 1 ≤ num.log2) : 2 ^ j * den ≤ num := by
    calc 2 ^ j * den ≤ 2 ^ j * 2 ^ (den.log2 + 1) := Nat.mul_le_mul_left _ (Nat.le_of_lt den_upper)
      _ = 2 ^ (j + den.log2 + 1) := (Nat.pow_add ..).symm
      _ ≤ 2 ^ num.log2 := Nat.pow_le_pow_right (by decide) h
      _ ≤ num := num_lower
  have beyond {j : Nat} (h : num.log2 + 1 ≤ j + den.log2) : num < 2 ^ j * den := by
    calc num < 2 ^ (num.log2 + 1) := num_upper
      _ ≤ 2 ^ (j + den.log2) := Nat.pow_le_pow_right (by decide) h
      _ = 2 ^ j * 2 ^ den.log2 := Nat.pow_add ..
      _ ≤ 2 ^ j * den := Nat.mul_le_mul_left _ den_lower
  have grow {i j : Nat} (h : i ≤ j) : 2 ^ i * den ≤ 2 ^ j * den :=
    Nat.mul_le_mul_right _ (Nat.pow_le_pow_right (by decide) h)
  by_cases order : den.log2 ≤ num.log2
  · obtain ⟨d, hd⟩ := Nat.exists_eq_add_of_le order
    have first : (num.log2 : Int) - den.log2 = (d : Int) := by omega
    simp only [binaryOrder, first, shift_natCast, shift_neg_natCast, Nat.mul_comm den]
    split
    · next below =>
        constructor
        · exact fun h => under (by omega)
        · intro h
          have : ¬ d ≤ k := fun hk => absurd (grow hk) (by omega)
          omega
    · next above =>
        constructor
        · exact fun h => Nat.le_trans (grow (by omega)) (Nat.not_lt.mp above)
        · intro h
          have : ¬ d + 1 ≤ k := fun hk => absurd (beyond (j := k) (by omega)) (by omega)
          omega
  · have none_below : ¬ 2 ^ k * den ≤ num := Nat.not_le.mpr (beyond (by omega))
    have negative : binaryOrder num den < 0 := by
      simp only [binaryOrder]
      split <;> omega
    omega

/-- An odd integer gives way to the next one from the middle on. -/
theorem roundDiv_odd {num half m : Nat} (hh : 0 < half) (odd : m % 2 = 1)
    (below : num < (m + 1) * (2 * half)) :
    roundDiv num (2 * half) = m + 1 ↔ (2 * m + 1) * half ≤ num := by
  have split := Nat.div_add_mod num (2 * half)
  have rest := Nat.mod_lt num (y := 2 * half) (by omega)
  have most : num / (2 * half) ≤ m :=
    Nat.lt_succ_iff.mp ((Nat.div_lt_iff_lt_mul (by omega)).mpr below)
  have middle : (2 * m + 1) * half = 2 * half * m + half := by
    rw [Nat.add_mul, Nat.one_mul, Nat.mul_right_comm]
  rcases Nat.lt_or_eq_of_le most with less | same
  · -- two or more steps below, rounding does not get there
    have far : 2 * half * (num / (2 * half)) + 2 * half ≤ 2 * half * m := by
      rw [← Nat.mul_succ]
      exact Nat.mul_le_mul_left _ less
    have short : roundDiv num (2 * half) ≤ num / (2 * half) + 1 := by
      unfold roundDiv
      dsimp only
      split
      · omega
      · split <;> omega
    omega
  · rw [same] at split
    simp only [roundDiv, same]
    split
    · omega
    · split <;> omega

/-- The exponent of a quotient before its mantissa is rounded. -/
def unitOrder (num den : Nat) : Int :=
  max minExponent (binaryOrder num den - (precision - 1 : Nat))

/-- A quotient is rounded to a finite double if its exponent is in range, and under the largest exponent
as long as the mantissa is not rounded up to the next power of two. -/
theorem isFinite_ofRatio (negative : Bool) {num den : Nat} (hn : num ≠ 0) :
    (ofRatio negative num den).isFinite = true ↔ unitOrder num den < maxExponent ∨
      unitOrder num den = maxExponent ∧
        roundDiv (shift num (-maxExponent)) (shift den maxExponent) ≠ 1 <<< precision := by
  have finite_iff {m : Nat} {e : Int} : (if maxExponent < e then infinite negative
      else finite negative m e).isFinite = true ↔ e ≤ maxExponent := by
    split
    · next far => exact ⟨fun h => (nomatch h), fun h => absurd far (Int.not_lt.mpr h)⟩
    · next near => exact ⟨fun _ => Int.not_lt.mp near, fun _ => rfl⟩
  have exponent : max minExponent (binaryOrder num den - (precision - 1 : Nat)) =
      unitOrder num den := rfl
  rw [ofRatio, if_neg hn, exponent]
  generalize unitOrder num den = e
  dsimp only
  rw [finite_iff]
  by_cases top : e = maxExponent
  · subst top
    split
    · next carried => exact iff_of_false (by dsimp only; omega) (by simp [carried])
    · next kept => simp [kept]
  · split <;> dsimp only <;> omega

/-- A quotient is rounded to a finite double exactly below the limit. -/
theorem isFinite_ofRatio_iff (negative : Bool) (num : Nat) {den : Nat} (hd : 0 < den) :
    (ofRatio negative num den).isFinite = true ↔ num < limit * den := by
  by_cases hn : num = 0
  · subst hn
    rw [ofRatio_zero]
    exact ⟨fun _ => Nat.mul_pos limit_pos hd, fun _ => rfl⟩
  have unit : 0 < den * halfUnit := Nat.mul_pos hd halfUnit_pos
  have at_limit : limit * den = (2 * (2 ^ 53 - 1) + 1) * (den * halfUnit) := by
    have odd : 2 ^ 54 - 1 = 2 * (2 ^ 53 - 1) + 1 := by decide
    rw [limit, Nat.mul_assoc, Nat.mul_comm halfUnit, odd]
  have order (k : Nat) : ((k + halfOrder : Nat) : Int) ≤ binaryOrder num den ↔
      2 ^ k * (den * halfUnit) ≤ num := by
    rw [← two_pow_mul]
    exact le_binaryOrder_iff hn (Nat.pos_iff_ne_zero.mp hd) _
  have below : (1023 : Int) ≤ binaryOrder num den ↔ _ := order 53
  have above : (1024 : Int) ≤ binaryOrder num den ↔ _ := order 54
  have exponent : unitOrder num den = max (-1074) (binaryOrder num den - 52) := rfl
  rw [isFinite_ofRatio negative hn, at_limit, exponent]
  by_cases high : 2 ^ 54 * (den * halfUnit) ≤ num
  · have far := above.mpr high
    simp only [maxExponent]
    omega
  · have near : ¬ (1024 : Int) ≤ binaryOrder num den := fun h => high (above.mp h)
    have within : num < (2 ^ 53 - 1 + 1) * (2 * (den * halfUnit)) := by omega
    have carried := roundDiv_odd unit rfl within
    by_cases low : 2 ^ 53 * (den * halfUnit) ≤ num
    · have top : binaryOrder num den = 1023 := by
        have : (1023 : Int) ≤ binaryOrder num den := below.mpr low
        omega
      have largest : max (-1074) ((1023 : Int) - 52) = maxExponent := rfl
      have kept : shift num (-maxExponent) = num := shift_neg_natCast num 971
      have carry : 1 <<< precision = 2 ^ 53 - 1 + 1 := rfl
      rw [top, largest, kept, shift_maxExponent, carry, ne_eq, carried, Nat.not_le]
      exact ⟨fun h => h.elim (fun far => absurd far (Int.lt_irrefl _)) And.right,
        fun h => Or.inr ⟨rfl, h⟩⟩
    · have : ¬ (1023 : Int) ≤ binaryOrder num den := fun h => low (below.mp h)
      simp only [maxExponent]
      omega

theorem isFinite_ofIntRatio_iff (n : Int) {den : Nat} (hd : 0 < den) :
    (ofIntRatio n den).isFinite = true ↔ n.natAbs < limit * den :=
  isFinite_ofRatio_iff _ _ hd

end BudgetReaper.Binary64
