import Mathlib.Algebra.Order.Field.Power
import Mathlib.Data.Rat.Floor
import Mathlib.Tactic.Qify
import BudgetReaper.Proofs.Binary64.Range

/-!
# Binary64 — rounded quotients among the integers

A finite double denotes a rational number (`toRat?`); the integers next to the double are those next
to that number (`ceil?_eq`, `floor?_eq`).

**Sides** (`besides_ofIntRatio`).  Rounding moves a quotient by half a unit of its last place at most.
A quotient by `den` that is no integer is away from every integer by `1 / den` at least.  As long as
half a unit is less than that, rounding does not take a quotient across an integer, nor onto one:
its ceiling and its floor are the exact ones (`ceil?_ofIntRatio`, `floor?_ofIntRatio`).  What it is moved
by is less than `1 / den` then (`close_ofIntRatio`).

**Zero** (`ceil?_ofIntRatio_eq_zero_iff`).  Whether the ceiling is zero is exact for every quotient
that is not beyond the doubles: one of size one or more stays so, whatever its last place is worth
(`one_le_of_le`).
-/

namespace BudgetReaper.Binary64

/-! ### The number of a double -/

/-- The number that a finite double denotes. -/
def toRat? : Binary64 → Option ℚ
  | .finite negative m e => some (signed negative m * 2 ^ e)
  | _ => none

theorem signed_mul (negative : Bool) (m n : Nat) :
    signed negative (m * n) = signed negative m * n := by
  cases negative <;> simp [signed]

/-- A mantissa and an exponent, as the quotient that readings of a double take them for. -/
theorem shift_div_shift (negative : Bool) (m : Nat) (e : Int) :
    (signed negative (shift m e) : ℚ) / (shift 1 (-e) : Nat) = signed negative m * 2 ^ e := by
  obtain ⟨k, rfl | rfl⟩ := e.eq_nat_or_neg
  · rw [shift_natCast, shift_neg_natCast, signed_mul]
    simp
  · rw [shift_neg_natCast, neg_neg, shift_natCast]
    simp [div_eq_mul_inv]

theorem ceil?_eq (x : Binary64) : x.ceil? = x.toRat?.map Int.ceil := by
  cases x with
  | nan | infinite _ => rfl
  | finite negative m e =>
      rw [ceil?, toRat?, Option.map_some, ← shift_div_shift, Rat.ceil_intCast_div_natCast]

theorem floor?_eq (x : Binary64) : x.floor? = x.toRat?.map Int.floor := by
  cases x with
  | nan | infinite _ => rfl
  | finite negative m e =>
      rw [floor?, toRat?, Option.map_some, ← shift_div_shift, Rat.floor_intCast_div_natCast]

/-- A finite double has an integer next above it. -/
theorem exists_ceil? {x : Binary64} (finite : x.isFinite = true) : ∃ n, x.ceil? = some n := by
  cases x with
  | nan | infinite _ => cases finite
  | finite negative m e => exact ⟨_, rfl⟩

/-! ### Sides of integers -/

/-- Two numbers lie on the same side of every integer. -/
def Besides (x y : ℚ) : Prop :=
  ∀ k : ℤ, (x ≤ k ↔ y ≤ k) ∧ (k ≤ x ↔ k ≤ y)

namespace Besides

variable {x y : ℚ}

theorem neg (h : Besides x y) : Besides (-x) (-y) := by
  intro k
  have opposite := h (-k)
  push_cast at opposite
  exact ⟨by rw [neg_le, neg_le (b := (k : ℚ)), opposite.2],
    by rw [le_neg, le_neg (b := y), opposite.1]⟩

theorem ceil_eq (h : Besides x y) : ⌈x⌉ = ⌈y⌉ :=
  eq_of_forall_ge_iff fun k => by rw [Int.ceil_le, Int.ceil_le, (h k).1]

theorem floor_eq (h : Besides x y) : ⌊x⌋ = ⌊y⌋ :=
  eq_of_forall_le_iff fun k => by rw [Int.le_floor, Int.le_floor, (h k).2]

end Besides

/-- Rounding to a multiple of `1 / scale` keeps a quotient on its side of every integer if half of that
is less than `1 / den`. -/
theorem besides_roundDiv {num den scale : Nat} (hd : 0 < den) (narrow : den < 2 * scale) :
    Besides ((roundDiv (num * scale) den : ℚ) / scale) ((num : ℚ) / den) := by
  obtain ⟨upper, lower⟩ := roundDiv_near (num * scale) hd
  generalize roundDiv (num * scale) den = m at upper lower ⊢
  have positive : (0 : ℚ) < den := by exact_mod_cast hd
  have spaced : (0 : ℚ) < scale := by exact_mod_cast (by omega : 0 < scale)
  intro k
  rw [div_le_iff₀ spaced, div_le_iff₀ positive, le_div_iff₀ spaced, le_div_iff₀ positive]
  norm_cast
  zify at upper lower narrow
  have coarse {a b : ℤ} (h : a ≤ b) : a * scale ≤ b * scale :=
    mul_le_mul_of_nonneg_right h (by omega)
  have fine {a b : ℤ} (h : a ≤ b) : a * den ≤ b * den :=
    mul_le_mul_of_nonneg_right h (by omega)
  -- what is not at most an integer is a whole step beyond it
  constructor <;> constructor <;> intro h
  · by_contra above
    have := coarse (Int.not_le.mp above)
    have := fine h
    linarith
  · by_contra above
    have := fine (Int.not_le.mp above)
    have := coarse h
    linarith
  · by_contra below
    have := coarse (Int.not_le.mp below)
    have := fine h
    linarith
  · by_contra below
    have := fine (Int.not_le.mp below)
    have := coarse h
    linarith

/-- It moves the quotient by less than `1 / den`. -/
theorem close_roundDiv {num den scale : Nat} (hd : 0 < den) (narrow : den < 2 * scale) :
    |(roundDiv (num * scale) den : ℚ) / scale * den - num| < 1 := by
  obtain ⟨upper, lower⟩ := roundDiv_near (num * scale) hd
  generalize roundDiv (num * scale) den = m at upper lower ⊢
  have spaced : (0 : ℚ) < scale := by exact_mod_cast (by omega : 0 < scale)
  qify at upper lower narrow
  rw [div_mul_eq_mul_div, abs_sub_lt_iff, sub_lt_iff_lt_add, div_lt_iff₀ spaced, sub_lt_comm,
    lt_div_iff₀ spaced]
  constructor <;> linarith

/-! ### Quotients -/

/-- The mantissa of a quotient, before it is carried over to the next power of two. -/
def mantissa (num den : Nat) : Nat :=
  roundDiv (shift num (-unitOrder num den)) (shift den (unitOrder num den))

/-- A quotient that is not beyond the doubles is rounded to a multiple of its unit. -/
theorem toRat?_ofRatio {negative : Bool} {num den : Nat} (hn : num ≠ 0)
    (finite : (ofRatio negative num den).isFinite = true) :
    (ofRatio negative num den).toRat? =
      some ((signed negative (mantissa num den) : ℚ) * 2 ^ unitOrder num den) := by
  have rounded : ofRatio negative num den =
      (let unit := if mantissa num den = 1 <<< precision
        then (1 <<< (precision - 1), unitOrder num den + 1)
        else (mantissa num den, unitOrder num den)
      if maxExponent < unit.2 then infinite negative else Binary64.finite negative unit.1 unit.2) := by
    rw [ofRatio, if_neg hn]
    rfl
  rw [rounded] at finite ⊢
  by_cases carried : mantissa num den = 1 <<< precision
  · rw [if_pos carried] at finite ⊢
    dsimp only at finite ⊢
    split at finite
    · cases finite
    · next near =>
        have half : (1 <<< precision : Nat) = (1 <<< (precision - 1)) * 2 := rfl
        rw [if_neg near, toRat?, carried, half, signed_mul, zpow_add_one₀ two_ne_zero]
        push_cast
        ring_nf
  · rw [if_neg carried] at finite ⊢
    dsimp only at finite ⊢
    split at finite
    · cases finite
    · next near => rw [if_neg near, toRat?]

/-- The unit of a quotient of size `2 ^ j` at most, and of one below that. -/
theorem unitOrder_of_le {num den j : Nat} (hn : num ≠ 0) (hd : 0 < den) (hj : j < 52)
    (bound : num ≤ 2 ^ j * den) :
    ∃ p : Nat, 0 < p ∧ unitOrder num den = -(p : Int) ∧ (num < 2 ^ j * den → 53 - j ≤ p) := by
  have order := le_binaryOrder_iff hn (Nat.pos_iff_ne_zero.mp hd) j
  have next := le_binaryOrder_iff hn (Nat.pos_iff_ne_zero.mp hd) (j + 1)
  have above : ¬ 2 ^ (j + 1) * den ≤ num := by
    have : 0 < 2 ^ j * den := Nat.mul_pos (Nat.two_pow_pos j) hd
    rw [Nat.pow_succ, Nat.mul_right_comm]
    omega
  have unit : unitOrder num den = max (-1074) (binaryOrder num den - 52) := rfl
  refine ⟨(-unitOrder num den).toNat, ?_, ?_, fun below => ?_⟩ <;> omega

/-- A quotient of size `2 ^ j` at most is rounded to a multiple of some `1 / 2 ^ p`, and half of that is
less than `1 / den` below that size. -/
theorem exists_toRat?_ofRatio (negative : Bool) {num den j : Nat} (hn : num ≠ 0) (hd : 0 < den)
    (hj : j < 52) (narrow : den < 2 ^ (54 - j)) (bound : num ≤ 2 ^ j * den) :
    ∃ p : Nat, (ofRatio negative num den).toRat? =
        some ((signed negative (roundDiv (num * 2 ^ p) den) : ℚ) / (2 ^ p : Nat)) ∧
      (num < 2 ^ j * den → den < 2 * 2 ^ p) := by
  obtain ⟨p, positive, unit, below⟩ := unitOrder_of_le hn hd hj bound
  have finite : (ofRatio negative num den).isFinite = true :=
    (isFinite_ofRatio negative hn).mpr (.inl (by rw [unit, maxExponent]; omega))
  have whole : mantissa num den = roundDiv (num * 2 ^ p) den := by
    rw [mantissa, unit, neg_neg, shift_natCast, shift_neg_natCast]
  refine ⟨p, ?_, fun less => Nat.lt_of_lt_of_le narrow ?_⟩
  · rw [toRat?_ofRatio hn finite, unit, whole, zpow_neg, zpow_natCast, ← div_eq_mul_inv]
    push_cast
    rfl
  · rw [← Nat.pow_succ']
    exact Nat.pow_le_pow_right (by decide) (by have := below less; omega)

/-- A quotient of size `2 ^ j` at most is rounded to a number on the same side of every integer. -/
theorem besides_ofRatio (negative : Bool) {num den j : Nat} (hn : num ≠ 0) (hd : 0 < den)
    (hj : j < 52) (narrow : den < 2 ^ (54 - j)) (bound : num ≤ 2 ^ j * den) :
    ∃ v, (ofRatio negative num den).toRat? = some v ∧
      Besides v ((signed negative num : ℚ) / den) := by
  obtain ⟨p, number, fine⟩ := exists_toRat?_ofRatio negative hn hd hj narrow bound
  have unsigned : Besides ((roundDiv (num * 2 ^ p) den : ℚ) / (2 ^ p : Nat)) ((num : ℚ) / den) := by
    rcases Nat.lt_or_eq_of_le bound with less | rfl
    · exact besides_roundDiv hd (fine less)
    · -- the bound itself is an integer, and exact
      have divisor : (den : ℚ) ≠ 0 := by exact_mod_cast Nat.pos_iff_ne_zero.mp hd
      rw [Nat.mul_right_comm, roundDiv_mul _ hd]
      intro k
      push_cast
      rw [mul_div_cancel_right₀ _ (pow_ne_zero p two_ne_zero), mul_div_cancel_right₀ _ divisor]
      exact ⟨Iff.rfl, Iff.rfl⟩
  refine ⟨_, number, ?_⟩
  cases negative with
  | false => simpa [signed] using unsigned
  | true => simpa [signed, neg_div] using unsigned.neg

/-- A quotient of a size below `2 ^ j` is moved by less than `1 / den`. -/
theorem close_ofRatio (negative : Bool) {num den j : Nat} (hn : num ≠ 0) (hd : 0 < den)
    (hj : j < 52) (narrow : den < 2 ^ (54 - j)) (bound : num < 2 ^ j * den) :
    ∃ v, (ofRatio negative num den).toRat? = some v ∧ |v * den - signed negative num| < 1 := by
  obtain ⟨p, number, fine⟩ :=
    exists_toRat?_ofRatio negative hn hd hj narrow (Nat.le_of_lt bound)
  have unsigned : |(roundDiv (num * 2 ^ p) den : ℚ) / (2 ^ p : Nat) * den - num| < 1 :=
    close_roundDiv hd (fine bound)
  refine ⟨_, number, ?_⟩
  cases negative with
  | false => simpa [signed] using unsigned
  | true =>
      rw [← abs_neg] at unsigned
      simpa [signed, neg_div, neg_add_eq_sub] using unsigned

theorem signed_natAbs (n : Int) : signed (n < 0) n.natAbs = n := by
  by_cases negative : n < 0
  · simp only [signed, negative, decide_true, if_true]
    omega
  · simp only [signed, negative, decide_false, Bool.false_eq_true, if_false]
    omega

/-- A quotient of size `2 ^ j` at most is rounded to a number on the same side of every integer. -/
theorem besides_ofIntRatio {n : Int} {den j : Nat} (hd : 0 < den) (hj : j < 52)
    (narrow : den < 2 ^ (54 - j)) (bound : n.natAbs ≤ 2 ^ j * den) :
    ∃ v, (ofIntRatio n den).toRat? = some v ∧ Besides v ((n : ℚ) / den) := by
  by_cases zero : n = 0
  · subst zero
    exact ⟨0, by simp [ofIntRatio, ofRatio_zero, toRat?, signed], by simp [Besides]⟩
  · have rounded := besides_ofRatio (n < 0) (Int.natAbs_ne_zero.mpr zero) hd hj narrow bound
    rwa [signed_natAbs] at rounded

/-- A quotient of a size below `2 ^ j` is moved by less than `1 / den`. -/
theorem close_ofIntRatio {n : Int} {den j : Nat} (hd : 0 < den) (hj : j < 52)
    (narrow : den < 2 ^ (54 - j)) (bound : n.natAbs < 2 ^ j * den) :
    ∃ v, (ofIntRatio n den).toRat? = some v ∧ |v * den - n| < 1 := by
  by_cases zero : n = 0
  · subst zero
    exact ⟨0, by simp [ofIntRatio, ofRatio_zero, toRat?, signed], by simp⟩
  · have rounded := close_ofRatio (n < 0) (Int.natAbs_ne_zero.mpr zero) hd hj narrow bound
    rwa [signed_natAbs] at rounded

/-- The ceiling of a rounded quotient is exact as long as half a unit is less than `1 / den`. -/
theorem ceil?_ofIntRatio {n : Int} {den j : Nat} (hd : 0 < den) (hj : j < 52)
    (narrow : den < 2 ^ (54 - j)) (bound : n.natAbs ≤ 2 ^ j * den) :
    (ofIntRatio n den).ceil? = some ⌈(n : ℚ) / den⌉ := by
  obtain ⟨v, number, besides⟩ := besides_ofIntRatio hd hj narrow bound
  rw [ceil?_eq, number, Option.map_some, besides.ceil_eq]

/-- The floor of a rounded quotient is exact as long as half a unit is less than `1 / den`. -/
theorem floor?_ofIntRatio {n : Int} {den j : Nat} (hd : 0 < den) (hj : j < 52)
    (narrow : den < 2 ^ (54 - j)) (bound : n.natAbs ≤ 2 ^ j * den) :
    (ofIntRatio n den).floor? = some ⌊(n : ℚ) / den⌋ := by
  obtain ⟨v, number, besides⟩ := besides_ofIntRatio hd hj narrow bound
  rw [floor?_eq, number, Option.map_some, besides.floor_eq]

/-! ### Zero -/

/-- Rounding does not fall below an integer. -/
theorem le_roundDiv {k num den : Nat} (hd : 0 < den) (h : k * den ≤ num) : k ≤ roundDiv num den := by
  obtain ⟨-, lower⟩ := roundDiv_near num hd
  by_contra below
  have := Nat.mul_le_mul_right den (Nat.not_le.mp below)
  rw [Nat.succ_mul] at this
  omega

/-- A quotient of size one or more is rounded to one of size one or more. -/
theorem one_le_of_le {num den : Nat} (hd : 0 < den) (large : den ≤ num) :
    (1 : ℚ) ≤ mantissa num den * 2 ^ unitOrder num den := by
  have order (k : Nat) : (k : Int) ≤ binaryOrder num den ↔ 2 ^ k * den ≤ num :=
    le_binaryOrder_iff (by omega) (by omega) k
  have size : 0 ≤ binaryOrder num den := (order 0).mpr (by omega)
  have unit : unitOrder num den = max (-1074) (binaryOrder num den - 52) := rfl
  obtain ⟨p, whole | fraction⟩ := (unitOrder num den).eq_nat_or_neg
  · have room : 2 ^ p * den ≤ num := (order p).mp (by omega)
    have some : 1 ≤ mantissa num den := by
      rw [mantissa, whole, shift_natCast, shift_neg_natCast]
      exact le_roundDiv (Nat.mul_pos hd (Nat.two_pow_pos p)) (by linarith)
    rw [whole, zpow_natCast]
    exact_mod_cast Nat.mul_pos some (Nat.two_pow_pos p)
  · have some : 2 ^ p ≤ mantissa num den := by
      rw [mantissa, fraction, neg_neg, shift_natCast, shift_neg_natCast, Nat.mul_comm num]
      exact le_roundDiv hd (Nat.mul_le_mul_left _ large)
    rw [fraction, zpow_neg, zpow_natCast, ← div_eq_mul_inv, one_le_div (by positivity)]
    exact_mod_cast some

/-- The ceiling of a rounded quotient is zero exactly if that of the quotient is. -/
theorem ceil?_ofIntRatio_eq_zero_iff {n : Int} {den : Nat} (hd : 0 < den) (narrow : den < 2 ^ 54)
    (finite : (ofIntRatio n den).isFinite = true) :
    (ofIntRatio n den).ceil? = some 0 ↔ -den < n ∧ n ≤ 0 := by
  rcases Nat.lt_or_ge n.natAbs den with small | large
  · have positive : (0 : ℚ) < den := by exact_mod_cast hd
    rw [ceil?_ofIntRatio (j := 0) hd (by decide) narrow (by omega), Option.some_inj, Int.ceil_eq_iff,
      Int.cast_zero, zero_sub, lt_div_iff₀ positive, div_le_iff₀ positive, neg_one_mul, zero_mul]
    norm_cast
  · have beyond : ¬ (-(den : Int) < n ∧ n ≤ 0) := by omega
    have number := toRat?_ofRatio (by omega) finite
    have size := one_le_of_le hd large
    refine iff_of_false (fun zero => ?_) beyond
    rw [ceil?_eq, ofIntRatio, number, Option.map_some, Option.some_inj, Int.ceil_eq_iff] at zero
    obtain ⟨below, above⟩ := zero
    generalize (2 : ℚ) ^ unitOrder n.natAbs den = unit at size below above
    by_cases negative : n < 0
    · simp only [signed, negative, decide_true, if_true] at below
      push_cast at below
      linarith
    · simp only [signed, negative, decide_false, Bool.false_eq_true, if_false] at above
      push_cast at above
      linarith

end BudgetReaper.Binary64
