import Mathlib.Order.WithBot
import BudgetReaper.Binary64.Arithmetic
import BudgetReaper.Proofs.Binary64.Rounding

/-!
# Binary64 — the order of doubles, and of what is rounded to them

Every double but what is no number has a place among the rationals and the two infinities (`place?`), and
doubles are compared by their places (`le_iff`), with each other and with integers.

**Rounding keeps the order** (`ofIntRatio_mono`).  A greater quotient is never rounded to a smaller double,
however far away from the integers rounding takes either of them: of two quotients of one order both are
rounded to multiples of one unit (`roundDiv_mono`), and of two orders the power of two between them is a
double (`magnitude_mono`).

**Doubles are kept** (`le_extent`).  A quotient that is at least a double is not rounded below it.

Where rounding does not take a quotient across an integer, the comparison of the double with an integer
is that of the quotient (`atLeast_ofIntRatio_iff`).
-/

namespace BudgetReaper.Binary64

/-! ### Comparison with integers -/

/-- A finite double is compared as the number that it denotes. -/
theorem atLeast_iff {x : Binary64} {v : ℚ} (number : x.toRat? = some v) (k : Int) :
    x.atLeast k = true ↔ (k : ℚ) ≤ v := by
  cases x with
  | nan | infinite _ => cases number
  | finite negative m e =>
      obtain rfl := Option.some.inj number
      have positive : (0 : ℚ) < (shift 1 (-e) : Nat) := by
        have : 0 < shift 1 (-e) := by
          rw [shift, Nat.shiftLeft_eq, Nat.one_mul]
          exact Nat.two_pow_pos _
        exact_mod_cast this
      rw [← shift_div_shift, le_div_iff₀ positive, atLeast, decide_eq_true_iff]
      norm_cast

/-- Up to `2 ^ j`, a rounded quotient reaches an integer exactly if the quotient does. -/
theorem atLeast_ofIntRatio_iff {n : Int} {den j : Nat} (hd : 0 < den) (hj : j < 52)
    (narrow : den < 2 ^ (54 - j)) (bound : n.natAbs ≤ 2 ^ j * den) (k : Int) :
    (ofIntRatio n den).atLeast k = true ↔ k * den ≤ n := by
  obtain ⟨v, number, besides⟩ := besides_ofIntRatio hd hj narrow bound
  have positive : (0 : ℚ) < den := by exact_mod_cast hd
  rw [atLeast_iff number, (besides k).2, le_div_iff₀ positive]
  norm_cast

/-! ### Integers -/

theorem roundDiv_le {k num den : Nat} (hd : 0 < den) (h : num ≤ k * den) : roundDiv num den ≤ k := by
  obtain ⟨upper, -⟩ := roundDiv_near num hd
  by_contra above
  have := Nat.mul_le_mul_right den (Nat.not_le.mp above)
  rw [Nat.succ_mul] at this
  omega

/-- Of two quotients by one divisor, the greater is not rounded to a smaller integer. -/
theorem roundDiv_mono {num num' den : Nat} (hd : 0 < den) (h : num ≤ num') :
    roundDiv num den ≤ roundDiv num' den := by
  have split := Nat.div_add_mod num den
  have split' := Nat.div_add_mod num' den
  rcases Nat.lt_or_eq_of_le (Nat.div_le_div_right (c := den) h) with less | same
  · -- an integer lies between them, or is the greater
    refine Nat.le_trans (roundDiv_le hd (k := num / den + 1) ?_) (le_roundDiv hd ?_)
    · have := Nat.mod_lt num hd
      rw [Nat.add_mul, Nat.mul_comm (num / den)]
      omega
    · have := Nat.mul_le_mul_right den (Nat.succ_le_of_lt less)
      rw [Nat.mul_comm (num' / den)] at this
      exact Nat.le_trans this (Nat.mul_div_le num' den)
  · rw [same] at split
    simp only [roundDiv, same]
    split_ifs <;> omega

/-! ### Magnitudes -/

/-- A quotient in the unit of an exponent. -/
theorem shift_div (num : Nat) {den : Nat} (hd : den ≠ 0) (e : Int) :
    (shift num (-e) : ℚ) / shift den e = num / den / 2 ^ e := by
  have divisor : (den : ℚ) ≠ 0 := by exact_mod_cast hd
  obtain ⟨k, rfl | rfl⟩ := e.eq_nat_or_neg
  · rw [shift_natCast, shift_neg_natCast, zpow_natCast]
    push_cast
    field_simp
  · rw [shift_neg_natCast, neg_neg, shift_natCast, zpow_neg, zpow_natCast]
    push_cast
    field_simp

theorem shift_pos {n : Nat} (h : n ≠ 0) (e : Int) : 0 < shift n e := by
  rw [shift, Nat.shiftLeft_eq]
  exact Nat.mul_pos (Nat.pos_of_ne_zero h) (Nat.two_pow_pos _)

/-- A number lies between the power of two of its logarithm and the next one. -/
theorem between_log2 {n : Nat} (h : n ≠ 0) :
    (2 : ℚ) ^ (n.log2 : ℤ) ≤ n ∧ (n : ℚ) < 2 ^ ((n.log2 : ℤ) + 1) := by
  rw [← Nat.cast_succ, zpow_natCast, zpow_natCast]
  exact ⟨by exact_mod_cast Nat.log2_self_le h, by exact_mod_cast Nat.lt_log2_self⟩

/-- A quotient lies between the power of two of its order and the next one. -/
theorem between_binaryOrder {num den : Nat} (hn : num ≠ 0) (hd : den ≠ 0) :
    (2 : ℚ) ^ binaryOrder num den ≤ num / den ∧ (num : ℚ) / den < 2 ^ (binaryOrder num den + 1) := by
  obtain ⟨num_lower, num_upper⟩ := between_log2 hn
  obtain ⟨den_lower, den_upper⟩ := between_log2 hd
  have positive : (0 : ℚ) < den := by exact_mod_cast Nat.pos_of_ne_zero hd
  -- the difference of the two logarithms is the order of the quotient, or one too high
  generalize hk : (num.log2 : ℤ) - den.log2 = k
  have lower : (2 : ℚ) ^ (k - 1) ≤ num / den := by
    rw [le_div_iff₀ positive]
    calc (2 : ℚ) ^ (k - 1) * den ≤ 2 ^ (k - 1) * 2 ^ ((den.log2 : ℤ) + 1) := by gcongr
      _ = 2 ^ (num.log2 : ℤ) := by rw [← zpow_add₀ two_ne_zero]; congr 1; omega
      _ ≤ num := num_lower
  have upper : (num : ℚ) / den < 2 ^ (k + 1) := by
    rw [div_lt_iff₀ positive]
    calc (num : ℚ) < 2 ^ ((num.log2 : ℤ) + 1) := num_upper
      _ = 2 ^ (k + 1) * 2 ^ (den.log2 : ℤ) := by rw [← zpow_add₀ two_ne_zero]; congr 1; omega
      _ ≤ 2 ^ (k + 1) * den := by gcongr
  have compared : shift num (-k) < shift den k ↔ (num : ℚ) / den < 2 ^ k := by
    have scaled : (0 : ℚ) < shift den k := by exact_mod_cast shift_pos hd k
    rw [← div_lt_one (by positivity : (0 : ℚ) < 2 ^ k), ← shift_div num hd, div_lt_one scaled]
    norm_cast
  unfold binaryOrder
  simp only [hk]
  split
  · next below => exact ⟨lower, by simpa using compared.mp below⟩
  · next above => exact ⟨not_lt.mp (mt compared.mpr above), upper⟩

theorem binaryOrder_mono {num num' den : Nat} (hn : num ≠ 0) (hd : den ≠ 0) (h : num ≤ num') :
    binaryOrder num den ≤ binaryOrder num' den := by
  have hn' : num' ≠ 0 := by omega
  have lower := (between_binaryOrder hn hd).1
  have upper := (between_binaryOrder hn' hd).2
  have greater : (num : ℚ) / den ≤ num' / den := by gcongr
  have between : (2 : ℚ) ^ binaryOrder num den < 2 ^ (binaryOrder num' den + 1) :=
    lt_of_le_of_lt (lower.trans greater) upper
  exact Int.lt_add_one_iff.mp ((zpow_lt_zpow_iff_right₀ one_lt_two).mp between)

/-- A mantissa is at most an integer if the quotient is at most that many units. -/
theorem mantissa_le {num den k : Nat} (hd : den ≠ 0)
    (h : (num : ℚ) / den ≤ k * 2 ^ unitOrder num den) : mantissa num den ≤ k := by
  have scaled : (0 : ℚ) < shift den (unitOrder num den) := by exact_mod_cast shift_pos hd _
  refine roundDiv_le (shift_pos hd _) ?_
  rw [← div_le_iff₀ (by positivity), ← shift_div num hd, div_le_iff₀ scaled] at h
  exact_mod_cast h

/-- A mantissa is at least an integer if the quotient is at least that many units. -/
theorem le_mantissa {num den k : Nat} (hd : den ≠ 0)
    (h : (k : ℚ) * 2 ^ unitOrder num den ≤ num / den) : k ≤ mantissa num den := by
  have scaled : (0 : ℚ) < shift den (unitOrder num den) := by exact_mod_cast shift_pos hd _
  refine le_roundDiv (shift_pos hd _) ?_
  rw [← le_div_iff₀ (by positivity), ← shift_div num hd, le_div_iff₀ scaled] at h
  exact_mod_cast h

/-- The size of a rounded quotient, as if no exponent were too large. -/
def magnitude (num den : Nat) : ℚ :=
  mantissa num den * 2 ^ unitOrder num den

theorem magnitude_nonneg (num den : Nat) : 0 ≤ magnitude num den := by
  unfold magnitude
  positivity

/-- Above the least exponent all bits of the mantissa are used. -/
theorem pow_le_mantissa {num den : Nat} (hn : num ≠ 0) (hd : den ≠ 0)
    (above : -1074 < unitOrder num den) : 2 ^ 52 ≤ mantissa num den := by
  have unit : unitOrder num den = max (-1074) (binaryOrder num den - 52) := rfl
  refine le_mantissa hd (le_trans ?_ (between_binaryOrder hn hd).1)
  rw [Nat.cast_pow, Nat.cast_two, ← zpow_natCast, ← zpow_add₀ two_ne_zero]
  exact zpow_le_zpow_right₀ one_le_two (by push_cast; omega)

/-- The mantissas of a lower exponent are at most the power of two that a higher one begins with. -/
theorem mul_zpow_le {m : Nat} (hm : m ≤ 2 ^ 53) {e u : Int} (h : e < u) :
    (m : ℚ) * 2 ^ e ≤ (2 ^ 52 : Nat) * 2 ^ u := by
  calc (m : ℚ) * 2 ^ e ≤ (2 ^ 53 : Nat) * 2 ^ e := by gcongr
    _ ≤ (2 ^ 52 : Nat) * 2 ^ u := by
        rw [Nat.cast_pow, Nat.cast_pow, Nat.cast_two, ← zpow_natCast, ← zpow_natCast,
          ← zpow_add₀ two_ne_zero, ← zpow_add₀ two_ne_zero]
        exact zpow_le_zpow_right₀ one_le_two (by push_cast; omega)

/-- A greater quotient is not rounded to a smaller size. -/
theorem magnitude_mono {num num' den : Nat} (hn : num ≠ 0) (hd : den ≠ 0) (h : num ≤ num') :
    magnitude num den ≤ magnitude num' den := by
  have orders := binaryOrder_mono hn hd h
  have unit : unitOrder num den = max (-1074) (binaryOrder num den - 52) := rfl
  have unit' : unitOrder num' den = max (-1074) (binaryOrder num' den - 52) := rfl
  rcases (by omega : unitOrder num den = unitOrder num' den ∨
      unitOrder num den < unitOrder num' den) with same | less
  · have shifted : shift num (-unitOrder num' den) ≤ shift num' (-unitOrder num' den) := by
      rw [shift, shift, Nat.shiftLeft_eq, Nat.shiftLeft_eq]
      exact Nat.mul_le_mul_right _ h
    have := roundDiv_mono (shift_pos hd (unitOrder num' den)) shifted
    unfold magnitude mantissa
    rw [same]
    gcongr
  · -- the lower unit is spent up to the power of two that the higher unit begins with
    have most : mantissa num den ≤ 2 ^ 53 := by
      refine mantissa_le hd ((between_binaryOrder hn hd).2.le.trans ?_)
      rw [Nat.cast_pow, Nat.cast_two, ← zpow_natCast, ← zpow_add₀ two_ne_zero]
      exact zpow_le_zpow_right₀ one_le_two (by push_cast; omega)
    have least : 2 ^ 52 ≤ mantissa num' den := pow_le_mantissa (by omega) hd (by omega)
    calc magnitude num den ≤ (2 ^ 52 : Nat) * 2 ^ unitOrder num' den := mul_zpow_le most less
      _ ≤ magnitude num' den := by
          unfold magnitude
          gcongr

/-- A mantissa in a lower unit. -/
theorem mul_zpow_add (m k : Nat) (u : Int) : (m : ℚ) * 2 ^ (u + k) = (m * 2 ^ k : Nat) * 2 ^ u := by
  rw [zpow_add₀ two_ne_zero, zpow_natCast]
  push_cast
  ring

section Doubles

variable {num den m : Nat} {e : Int} (hd : den ≠ 0) (hm : m < 2 ^ 53) (he : -1074 ≤ e)

include hd hm he

/-- What is at least the size of a double is not rounded below it. -/
theorem le_magnitude (h : (m : ℚ) * 2 ^ e ≤ num / den) : (m : ℚ) * 2 ^ e ≤ magnitude num den := by
  rcases eq_or_ne num 0 with rfl | hn
  · rw [Nat.cast_zero, zero_div] at h
    exact h.trans (magnitude_nonneg 0 den)
  rcases le_or_gt (unitOrder num den) e with within | less
  · obtain ⟨k, rfl⟩ := Int.le.dest within
    rw [mul_zpow_add] at h ⊢
    have := le_mantissa hd h
    unfold magnitude
    gcongr
  · have := pow_le_mantissa hn hd (by omega)
    refine (mul_zpow_le hm.le less).trans ?_
    unfold magnitude
    gcongr

/-- What is at most the size of a double is not rounded above it. -/
theorem magnitude_le (hn : num ≠ 0) (h : (num : ℚ) / den ≤ m * 2 ^ e) :
    magnitude num den ≤ m * 2 ^ e := by
  have unit : unitOrder num den = max (-1074) (binaryOrder num den - 52) := rfl
  rcases le_or_gt (unitOrder num den) e with within | less
  · obtain ⟨k, rfl⟩ := Int.le.dest within
    rw [mul_zpow_add] at h ⊢
    have := mantissa_le hd h
    unfold magnitude
    gcongr
  · -- a quotient of a higher order is greater than the double
    have greater : (2 : ℚ) ^ (53 + e) ≤ num / den :=
      (zpow_le_zpow_right₀ one_le_two (by omega)).trans (between_binaryOrder hn hd).1
    have smaller : (m : ℚ) * 2 ^ e < 2 ^ (53 + e) := by
      rw [zpow_add₀ two_ne_zero]
      gcongr
      exact_mod_cast hm
    exact absurd (greater.trans h) (not_le.mpr smaller)

end Doubles

/-! ### Places -/

/-- A place among the rationals and the two infinities. -/
abbrev Place : Type :=
  WithBot (WithTop ℚ)

/-- The place of a rational. -/
def Place.of (v : ℚ) : Place :=
  ((v : WithTop ℚ) : WithBot (WithTop ℚ))

@[simp] theorem Place.of_le_of {v w : ℚ} : Place.of v ≤ Place.of w ↔ v ≤ w := by
  rw [Place.of, Place.of, WithBot.coe_le_coe, WithTop.coe_le_coe]

@[simp] theorem Place.of_ne_bot (v : ℚ) : Place.of v ≠ ⊥ :=
  WithBot.coe_ne_bot

@[simp] theorem Place.of_ne_top (v : ℚ) : Place.of v ≠ ⊤ :=
  fun same => WithTop.coe_ne_top (WithBot.coe_injective same)

/-- The place of a double; what is no number has none. -/
def place? : Binary64 → Option Place
  | .nan => none
  | .infinite negative => some (if negative then ⊥ else ⊤)
  | .finite negative m e => some (.of (signed negative m * 2 ^ e))

theorem place?_eq_of {x : Binary64} {v : ℚ} (number : x.toRat? = some v) : x.place? = some (.of v) := by
  cases x with
  | nan | infinite _ => cases number
  | finite negative m e =>
      obtain rfl := Option.some.inj number
      rfl

/-- Mantissas are compared in the lower of the two units. -/
theorem signed_shift_le_iff (s t : Bool) (m n : Nat) (e d : Int) :
    signed s (shift m (e - d)) ≤ signed t (shift n (d - e)) ↔
      (signed s m : ℚ) * 2 ^ e ≤ signed t n * 2 ^ d := by
  have opposite : d - e = -(e - d) := by omega
  obtain ⟨k, above | below⟩ := (e - d).eq_nat_or_neg
  · have unit : e = k + d := by omega
    rw [opposite, above, shift_natCast, shift_neg_natCast, signed_mul, unit, zpow_add₀ two_ne_zero,
      ← mul_assoc, mul_le_mul_iff_left₀ (by positivity), zpow_natCast]
    norm_cast
  · have unit : d = k + e := by omega
    rw [opposite, below, neg_neg, shift_natCast, shift_neg_natCast, signed_mul, unit,
      zpow_add₀ two_ne_zero, ← mul_assoc, mul_le_mul_iff_left₀ (by positivity), zpow_natCast]
    norm_cast

/-- Doubles are compared by their places. -/
theorem le_iff {x y : Binary64} :
    x.le y = true ↔ ∃ p q, x.place? = some p ∧ y.place? = some q ∧ p ≤ q := by
  cases x with
  | nan => simp [le, place?]
  | infinite s => cases y with
      | nan => simp [le, place?]
      | infinite t => cases s <;> cases t <;> simp [le, place?]
      | finite t n d => cases s <;> simp [le, place?]
  | finite s m e => cases y with
      | nan => simp [le, place?]
      | infinite t => cases t <;> simp [le, place?]
      | finite t n d => simp [le, place?, signed_shift_le_iff]

/-- So are a double and an integer. -/
theorem atLeast_iff_place {x : Binary64} {k : Int} :
    x.atLeast k = true ↔ ∃ p, x.place? = some p ∧ .of k ≤ p := by
  cases x with
  | nan => simp [atLeast, place?]
  | infinite negative => cases negative <;> simp [atLeast, place?]
  | finite negative m e =>
      have number : (finite negative m e).toRat? = some ((signed negative m : ℚ) * 2 ^ e) := rfl
      rw [atLeast_iff number]
      simp [place?]

theorem atLeast_opposite_iff_place {x : Binary64} {k : Int} :
    x.opposite.atLeast (-k) = true ↔ ∃ p, x.place? = some p ∧ p ≤ .of k := by
  rw [atLeast_iff_place]
  cases x with
  | nan => simp [opposite, place?]
  | infinite negative => cases negative <;> simp [opposite, place?]
  | finite negative m e =>
      have sign : (signed (!negative) m : ℚ) = -signed negative m := by
        cases negative <;> simp [signed]
      simp [opposite, place?, sign]

/-! ### Rounded quotients -/

theorem eq_infinite_of_not_isFinite {negative : Bool} {num den : Nat}
    (beyond : ¬ (ofRatio negative num den).isFinite = true) :
    ofRatio negative num den = .infinite negative := by
  have ends (m : Nat) (e : Int) (h : ¬ (if maxExponent < e then infinite negative
      else finite negative m e).isFinite = true) :
      (if maxExponent < e then infinite negative else finite negative m e) = .infinite negative := by
    split at h
    · next far => rw [if_pos far]
    · exact absurd rfl h
  unfold ofRatio at beyond ⊢
  by_cases zero : num = 0
  · rw [if_pos zero] at beyond
    exact absurd rfl beyond
  · rw [if_neg zero] at beyond ⊢
    exact ends _ _ beyond

/-- The size of a rounded quotient with its sign, as if no exponent were too large. -/
def extent (n : Int) (den : Nat) : ℚ :=
  if n < 0 then -magnitude n.natAbs den else magnitude n.natAbs den

theorem magnitude_zero (den : Nat) : magnitude 0 den = 0 := by
  have none : mantissa 0 den = 0 := by simp [mantissa, shift, roundDiv]
  simp [magnitude, none]

theorem extent_mono {n n' : Int} {den : Nat} (hd : den ≠ 0) (h : n ≤ n') :
    extent n den ≤ extent n' den := by
  have nonneg := magnitude_nonneg n.natAbs den
  have nonneg' := magnitude_nonneg n'.natAbs den
  unfold extent
  split_ifs with below below'
  · exact neg_le_neg (magnitude_mono (by omega) hd (by omega))
  · linarith
  · omega
  · rcases eq_or_ne n 0 with rfl | hn
    · rwa [Int.natAbs_zero, magnitude_zero]
    · exact magnitude_mono (by omega) hd (by omega)

/-- A quotient within the doubles is rounded to its extent. -/
theorem toRat?_ofIntRatio {n : Int} {den : Nat} (hd : 0 < den) (within : n.natAbs < limit * den) :
    (ofIntRatio n den).toRat? = some (extent n den) := by
  rcases eq_or_ne n 0 with rfl | hn
  · simp [ofIntRatio, ofRatio_zero, toRat?, extent, magnitude_zero, signed]
  · have finite := (isFinite_ofIntRatio_iff n hd).mpr within
    rw [ofIntRatio, toRat?_ofRatio (by omega) finite, extent]
    split <;> next sign => simp [sign, signed, magnitude]

/-- A quotient within the doubles is rounded to its extent, and beyond them to an infinity. -/
theorem place?_ofIntRatio (n : Int) {den : Nat} (hd : 0 < den) :
    (ofIntRatio n den).place? =
      some (if n.natAbs < limit * den then .of (extent n den) else if n < 0 then ⊥ else ⊤) := by
  split
  · next within => exact place?_eq_of (toRat?_ofIntRatio hd within)
  · next beyond =>
      have infinite : ¬ (ofIntRatio n den).isFinite = true :=
        mt (isFinite_ofIntRatio_iff n hd).mp beyond
      rw [ofIntRatio, eq_infinite_of_not_isFinite infinite, place?]
      simp

/-- The mantissa and the exponent of a double are within their ranges. -/
def Proper : Binary64 → Prop
  | .finite _ m e => m < 2 ^ precision ∧ minExponent ≤ e ∧ e ≤ maxExponent
  | _ => True

/-- A quotient that is at least a double is not rounded below it. -/
theorem le_extent {x : Binary64} {v : ℚ} (proper : x.Proper) (number : x.toRat? = some v) {n : Int}
    {den : Nat} (hd : 0 < den) (h : v * den ≤ n) : v ≤ extent n den := by
  cases x with
  | nan | infinite _ => cases number
  | finite negative m e =>
      obtain rfl := Option.some.inj number
      obtain ⟨hm, he, -⟩ := proper
      have positive : (0 : ℚ) < den := by exact_mod_cast hd
      have divisor : den ≠ 0 := Nat.pos_iff_ne_zero.mp hd
      have size : (0 : ℚ) ≤ m * 2 ^ e := by positivity
      rw [← le_div_iff₀ positive] at h
      unfold extent
      split_ifs with below
      · have quotient : (n : ℚ) / den < 0 := div_neg_of_neg_of_pos (by exact_mod_cast below) positive
        have natAbs : (n.natAbs : ℚ) = -n := by rw [Nat.cast_natAbs, abs_of_neg below, Int.cast_neg]
        cases negative with
        | false =>
            simp only [signed, Bool.false_eq_true, if_false, Int.cast_natCast] at h
            linarith
        | true =>
            simp only [signed, if_true, Int.cast_neg, Int.cast_natCast, neg_mul] at h ⊢
            refine neg_le_neg (magnitude_le divisor hm he (by omega) ?_)
            rw [natAbs, neg_div]
            linarith
      · have natAbs : (n.natAbs : ℚ) = n := by
          rw [Nat.cast_natAbs, abs_of_nonneg (not_lt.mp below)]
        cases negative with
        | true =>
            simp only [signed, if_true, Int.cast_neg, Int.cast_natCast, neg_mul]
            linarith [magnitude_nonneg n.natAbs den]
        | false =>
            simp only [signed, Bool.false_eq_true, if_false, Int.cast_natCast] at h ⊢
            exact le_magnitude divisor hm he (by rwa [natAbs])

/-- A greater quotient is not rounded to a smaller double. -/
theorem ofIntRatio_mono {n n' : Int} {den : Nat} (hd : 0 < den) (h : n ≤ n') :
    (ofIntRatio n den).le (ofIntRatio n' den) = true := by
  refine le_iff.mpr ⟨_, _, place?_ofIntRatio n hd, place?_ofIntRatio n' hd, ?_⟩
  by_cases within : n.natAbs < limit * den
  · rw [if_pos within]
    by_cases within' : n'.natAbs < limit * den
    · rw [if_pos within']
      exact Place.of_le_of.mpr (extent_mono (Nat.pos_iff_ne_zero.mp hd) h)
    · have above' : ¬ n' < 0 := by omega
      rw [if_neg within', if_neg above']
      exact le_top
  · rw [if_neg within]
    by_cases below : n < 0
    · rw [if_pos below]
      exact bot_le
    · have beyond' : ¬ n'.natAbs < limit * den := by omega
      have above' : ¬ n' < 0 := by omega
      rw [if_neg below, if_neg beyond', if_neg above']

end BudgetReaper.Binary64
