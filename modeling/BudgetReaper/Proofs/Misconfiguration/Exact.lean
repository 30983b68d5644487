import BudgetReaper.Pod
import BudgetReaper.Proofs.Binary64.Rounding
import BudgetReaper.Proofs.Misconfiguration

/-!
# Misconfiguration — exact shares and exact verdicts

A share of pods goes through a double, which is rounded, before it is rounded up or down to a count.

**Shares** (`Bound.exact_share`).  Up to `100 * 2 ^ 47` the count is the exact ceiling or floor of the
hundredth all the same, of either sign.  One more, and rounding up gives one pod too few.

**Verdicts** (`Spec.exact_verdict`).  Whether the bounds of a budget permit no disruption is therefore a
condition on integers: for `maxUnavailable` an interval around zero, exact for every share that is not
beyond the doubles, and for `minAvailable` the interval below the number of expected pods.
-/

namespace BudgetReaper

namespace Bound

/-! ### Shares -/

/-- A share of integers resolves to what its double is rounded to. -/
theorem resolve_of_rounded {percent total count : Int} {up : Bool}
    (rounded : (if up then Binary64.ceil? else Binary64.floor?)
      (Binary64.ofIntRatio (percent * total) 100) = some count) :
    (percentage (.int percent)).resolve (.int total) up = .ok (.int count) := by
  have finite : (Binary64.ofIntRatio (percent * total) 100).isFinite = true := by
    cases h : Binary64.ofIntRatio (percent * total) 100 with
    | finite => rfl
    | nan | infinite _ =>
        rw [h] at rounded
        cases up <;> cases rounded
  have small := (Binary64.isFinite_ofIntRatio_iff _ (by decide)).mp finite
  have share := Value.share_int percent total
  rw [if_pos small] at share
  simp only [resolve, share, bind, Except.bind, Number.rounded, rounded]
  rfl

/-- The largest product of a percentage and a total whose hundredth is rounded to an integer exactly. -/
def exactLimit : Int := 100 * 2 ^ 47

theorem natAbs_le_of_exactLimit {n : Int} (small : |n| ≤ exactLimit) : n.natAbs ≤ 2 ^ 47 * 100 := by
  rw [exactLimit, Int.abs_eq_natAbs] at small
  omega

/-- A percentage is resolved exactly up to the limit, and one pod too low right beyond it. -/
theorem exact_share (percent total : Int) :
    (|percent * total| ≤ exactLimit → ∀ up,
      (percentage (.int percent)).resolve (.int total) up =
        .ok (.int (if up then ⌈(percent * total : ℚ) / 100⌉ else ⌊(percent * total : ℚ) / 100⌋))) ∧
    (percent * total = exactLimit + 1 →
      (percentage (.int percent)).resolve (.int total) true = .ok (.int (2 ^ 47)) ∧
        ⌈(percent * total : ℚ) / 100⌉ = 2 ^ 47 + 1) := by
  constructor
  · intro small up
    have size := natAbs_le_of_exactLimit small
    have up_exact := Binary64.ceil?_ofIntRatio (by decide) (by decide) (by decide) size
    have down_exact := Binary64.floor?_ofIntRatio (by decide) (by decide) (by decide) size
    push_cast at up_exact down_exact
    cases up with
    | true => exact resolve_of_rounded up_exact
    | false => exact resolve_of_rounded down_exact
  · intro beyond
    constructor
    · refine resolve_of_rounded ?_
      rw [beyond]
      rfl
    · rw [← Int.cast_mul, beyond, exactLimit, Int.ceil_eq_iff]
      norm_num

/-- A share of seven pods below zero, rounded both ways, and the first product beyond the limit. -/
theorem exact_share_seven :
    |(-15 : Int) * 7| ≤ exactLimit ∧
      (percentage (.int (-15))).resolve (.int 7) true = .ok (.int (-1)) ∧
      (percentage (.int (-15))).resolve (.int 7) false = .ok (.int (-2)) ∧
      (1 : Int) * (exactLimit + 1) = exactLimit + 1 ∧
      (percentage (.int 1)).resolve (.int (exactLimit + 1)) true = .ok (.int (2 ^ 47)) := by
  have small : |(-15 : Int) * 7| ≤ exactLimit := by decide
  have up := (exact_share (-15) 7).1 small true
  have down := (exact_share (-15) 7).1 small false
  norm_num at up down
  exact ⟨small, up, down, one_mul _, ((exact_share 1 (exactLimit + 1)).2 (one_mul _)).1⟩

/-! ### Counts -/

/-- The ceiling of a hundredth, as a condition on integers. -/
theorem ceil_hundredth_iff {n count : Int} :
    ⌈(n : ℚ) / (100 : Nat)⌉ = count ↔ 100 * (count - 1) < n ∧ n ≤ 100 * count := by
  rw [Int.ceil_eq_iff, lt_div_iff₀ (by norm_num), div_le_iff₀ (by norm_num), mul_comm (100 : Int),
    mul_comm (100 : Int)]
  norm_cast

/-- A share of the pods matched, rounded up. -/
theorem countAmong_of_ceil {percent count : Int} {total : Nat}
    (ceil : (Binary64.ofIntRatio (percent * total) 100).ceil? = some count) :
    (percentage (.int percent)).countAmong total = .ok (.int count) := by
  have resolved : (percentage (.int percent)).resolve (.int total) true = .ok (.int count) :=
    resolve_of_rounded ceil
  rw [countAmong, resolved]
  rfl

/-- Only an absent value writes no bound. -/
theorem eq_null_of_ofValue {v : Value} (h : ofValue v = .ok none) : v = .null := by
  cases v with
  | null => rfl
  | bool _ | int _ | float _ | list _ | object _ => cases h
  | str text =>
      rw [ofValue] at h
      cases read : ofText text <;> rw [read] at h <;> cases h

theorem ofValue_str {text : String} {b : Bound} (h : ofText text = .ok b) :
    ofValue (.str text) = .ok (some b) := by
  rw [ofValue, h]
  rfl

end Bound

/-! ### Verdicts -/

/-- The number of pods that an optional status expects, if it says so. -/
def expectedPods? : Option Status → Option Int
  | none => some 0
  | some s => s.expectedPods

theorem expectedOf_eq (status : Option Status) : expectedOf status = .ofInt? (expectedPods? status) := by
  cases status <;> rfl

namespace Spec

/-- A verdict is given, and it is true exactly if `p` holds. -/
def Decides (verdict : Except BoundFailure Bool) (p : Prop) : Prop :=
  ∃ b, verdict = .ok b ∧ (b = true ↔ p)

theorem Decides.congr {verdict : Except BoundFailure Bool} {p q : Prop} (h : Decides verdict p)
    (same : p ↔ q) : Decides verdict q := by
  obtain ⟨b, given, truth⟩ := h
  exact ⟨b, given, truth.trans same⟩

variable {s : Spec} {podCount : Nat} {count : Int} {b : Bound}

/-- A bound that resolves to a count is compared with the count that permits no disruption. -/
theorem decides_of_count {permitted? : Option Int} (resolved : b.countAmong podCount = .ok (.int count)) :
    Decides ((b.countAmong podCount).map (·.equals (.ofInt? permitted?))) (permitted? = some count) := by
  refine ⟨decide (permitted? = some count), ?_, decide_eq_true_iff⟩
  rw [resolved, ← Value.equals_ofInt?]
  rfl

/-- Where `maxUnavailable` is set, zero permits no disruption. -/
theorem decides_of_most (expected : Value) (read : Bound.ofValue s.maxUnavailable = .ok (some b))
    (resolved : b.countAmong podCount = .ok (.int count)) :
    Decides (s.isMisconfigured podCount expected) (some 0 = some count) := by
  have verdict : s.isMisconfigured podCount expected =
      (b.countAmong podCount).map (·.equals (.ofInt? (some 0))) := by
    unfold isMisconfigured readBound
    rw [read]
    rfl
  rw [verdict]
  exact decides_of_count resolved

/-- Where only `minAvailable` is set, the number of pods expected permits no disruption. -/
theorem decides_of_least (status : Option Status) (unset : s.maxUnavailable = .null)
    (read : Bound.ofValue s.minAvailable = .ok (some b))
    (resolved : b.countAmong podCount = .ok (.int count)) :
    Decides (s.isMisconfigured podCount (expectedOf status)) (expectedPods? status = some count) := by
  have verdict : s.isMisconfigured podCount (expectedOf status) =
      (b.countAmong podCount).map (·.equals (.ofInt? (expectedPods? status))) := by
    rw [← expectedOf_eq]
    unfold isMisconfigured readBound
    rw [unset, read]
    rfl
  rw [verdict]
  exact decides_of_count resolved

/-- The exact condition under which the bounds of a spec permit no disruption. -/
structure Exact (s : Spec) (status : Option Status) (pods : List Pod) : Prop where
  /-- A count of zero for `maxUnavailable`. -/
  mostCount {count : Int} : s.maxUnavailable = .int count →
    Decides (s.isMisconfigured pods.length (expectedOf status)) (count = 0)
  /-- A share that is rounded up to zero, as long as it is not beyond the doubles. -/
  mostShare {text : String} {percent : Int} : s.maxUnavailable = .str text →
    Bound.ofText text = .ok (.percentage (.int percent)) →
    (Binary64.ofIntRatio (percent * pods.length) 100).isFinite = true →
    Decides (s.isMisconfigured pods.length (expectedOf status))
      (-100 < percent * pods.length ∧ percent * pods.length ≤ 0)
  /-- Next to `maxUnavailable`, whatever `minAvailable` holds has no influence. -/
  mostAlone (other : Value) : s.maxUnavailable ≠ .null →
    { s with minAvailable := other }.isMisconfigured pods.length (expectedOf status) =
      s.isMisconfigured pods.length (expectedOf status)
  /-- A count for `minAvailable` of as many pods as are expected. -/
  leastCount {count : Int} : s.maxUnavailable = .null → s.minAvailable = .int count →
    Decides (s.isMisconfigured pods.length (expectedOf status)) (expectedPods? status = some count)
  /-- A share that is rounded up to as many pods as are expected. -/
  leastShare {text : String} {percent : Int} : s.maxUnavailable = .null → s.minAvailable = .str text →
    Bound.ofText text = .ok (.percentage (.int percent)) →
    |percent * pods.length| ≤ Bound.exactLimit →
    Decides (s.isMisconfigured pods.length (expectedOf status))
      (∃ expected, expectedPods? status = some expected ∧
        100 * (expected - 1) < percent * pods.length ∧ percent * pods.length ≤ 100 * expected)
  /-- A spec without a bound is never misconfigured. -/
  unbounded : s.maxUnavailable = .null → s.minAvailable = .null →
    Decides (s.isMisconfigured pods.length (expectedOf status)) False

/-- A verdict is the exact condition on the bounds, the pods matched and the pods expected. -/
theorem exact_verdict (s : Spec) (status : Option Status) (pods : List Pod) : s.Exact status pods where
  mostCount {count} most := by
    have read : Bound.ofValue s.maxUnavailable = .ok (some (.absolute (.int count))) := by
      rw [most]
      rfl
    simpa [eq_comm] using decides_of_most (expectedOf status) read rfl
  mostShare {text percent} most read finite := by
    obtain ⟨count, ceil⟩ := Binary64.exists_ceil? finite
    have zero := Binary64.ceil?_ofIntRatio_eq_zero_iff (by decide) (by decide) finite
    rw [ceil, Option.some_inj, eq_comm] at zero
    have decided := decides_of_most (expectedOf status) (most ▸ Bound.ofValue_str read)
      (Bound.countAmong_of_ceil ceil)
    rw [Option.some_inj] at decided
    exact decided.congr zero
  mostAlone other set := by
    unfold isMisconfigured readBound
    dsimp only
    cases read : Bound.ofValue s.maxUnavailable with
    | error f => rfl
    | ok bound? =>
        cases bound? with
        | some b => rfl
        | none => exact absurd (Bound.eq_null_of_ofValue read) set
  leastCount {count} unset least := by
    have read : Bound.ofValue s.minAvailable = .ok (some (.absolute (.int count))) := by
      rw [least]
      rfl
    exact decides_of_least status unset read rfl
  leastShare {text percent} unset least read small := by
    have ceil := Binary64.ceil?_ofIntRatio (by decide) (by decide) (by decide)
      (Bound.natAbs_le_of_exactLimit small)
    have decided := decides_of_least status unset (least ▸ Bound.ofValue_str read)
      (Bound.countAmong_of_ceil ceil)
    refine decided.congr ?_
    constructor
    · intro counted
      exact ⟨_, counted, Bound.ceil_hundredth_iff.mp rfl⟩
    · rintro ⟨expected, counted, within⟩
      rw [counted, Bound.ceil_hundredth_iff.mpr within]
  unbounded unset none := by
    refine ⟨false, ?_, by simp⟩
    unfold isMisconfigured readBound
    rw [unset, none]
    rfl

theorem Decides.eq_ok {verdict : Except BoundFailure Bool} {p : Prop} (h : Decides verdict p)
    (holds : p) : verdict = .ok true := by
  obtain ⟨b, given, truth⟩ := h
  rw [given, truth.mpr holds]

/-- A third of the pods must stay available. -/
def thirdSpec : Spec :=
  { selector := none, maxUnavailable := .null, minAvailable := .str "33%", evictionPolicy := none }

/-- A share below zero may be unavailable; the other bound cannot be read. -/
def overdrawnSpec : Spec :=
  { selector := none, maxUnavailable := .str "-1%", minAvailable := .str "all",
    evictionPolicy := none }

/-- Three pods are expected. -/
def threeExpected : Status :=
  { disruptionsAllowed := none, expectedPods := some 3, currentHealthy := none, desiredHealthy := none,
    observedGeneration := none, disruptedPods := none }

/-- Of seven pods a third, rounded up, is the three that are expected; one in a hundred below zero is
rounded up to none. -/
theorem exact_verdict_seven :
    Bound.ofText "33%" = .ok (.percentage (.int 33)) ∧ |(33 : Int) * 7| ≤ Bound.exactLimit ∧
      thirdSpec.isMisconfigured 7 (expectedOf (some threeExpected)) = .ok true ∧
      Bound.ofText "-1%" = .ok (.percentage (.int (-1))) ∧
      overdrawnSpec.isMisconfigured 7 (expectedOf (some threeExpected)) = .ok true := by
  let pods : List Pod := List.replicate 7 default
  have third : Bound.ofText "33%" = .ok (.percentage (.int 33)) := by decide +kernel
  have below : Bound.ofText "-1%" = .ok (.percentage (.int (-1))) := by decide +kernel
  have small : |(33 : Int) * 7| ≤ Bound.exactLimit := by decide
  have least := (exact_verdict thirdSpec (some threeExpected) pods).leastShare rfl rfl third small
  have most := (exact_verdict overdrawnSpec (some threeExpected) pods).mostShare rfl below
    (by decide +kernel)
  exact ⟨third, small, least.eq_ok ⟨3, rfl, by decide, by decide⟩, below,
    most.eq_ok ⟨by decide, by decide⟩⟩

end Spec

end BudgetReaper
