import BudgetReaper.Proofs.Misconfiguration.Exact

/-!
# Misconfiguration — raising the lower bound

A budget that sets `minAvailable` only is found to be misconfigured where that bound resolves to exactly
as many pods as are expected.

**Raised** (`verdict_raised`).  So of two bounds that resolve to the same count both are found or neither
is, whichever way they are written.  A bound that resolves to more demands more than every pod, permits
no disruption either, and is not found: what is found for a bound is not found for every higher one
(`not_upward_closed`).
-/

namespace BudgetReaper

/-- The value writes a bound that resolves to `count` among `podCount` pods. -/
def Bound.Demands (v : Value) (podCount : Nat) (count : Int) : Prop :=
  ∃ b, ofValue v = .ok (some b) ∧ b.countAmong podCount = .ok (.int count)

/-- A budget that stops every voluntary disruption expects pods. -/
theorem Status.expects_of_isBlocking {status : Status} (blocking : status.isBlocking = true)
    {expected : Int} (counted : status.expectedPods = some expected) : 0 < expected := by
  unfold isBlocking at blocking
  have positive := (Bool.and_eq_true _ _).mp blocking |>.2
  simpa [counted] using positive

namespace Spec

variable {s : Spec} {status : Status} {pods : List Pod} {count : Int}

/-- Where only `minAvailable` is set, its count is compared with that of the pods expected. -/
theorem verdict_of_demands (unset : s.maxUnavailable = .null)
    (demands : Bound.Demands s.minAvailable pods.length count) :
    s.isMisconfigured pods.length (expectedOf (some status)) =
      .ok (decide (status.expectedPods = some count)) := by
  obtain ⟨b, read, resolved⟩ := demands
  obtain ⟨verdict, given, truth⟩ := decides_of_least (some status) unset read resolved
  rw [given, Bool.eq_iff_iff.mpr (truth.trans decide_eq_true_iff.symm)]
  rfl

/-- If a blocking budget is found for its lower bound, it is found for every bound that resolves to the
same count, and for none that resolves to more. -/
theorem verdict_raised {least' : Value} {count' : Int} (blocking : status.isBlocking = true)
    (unset : s.maxUnavailable = .null) (demands : Bound.Demands s.minAvailable pods.length count)
    (found : s.isMisconfigured pods.length (expectedOf (some status)) = .ok true)
    (demands' : Bound.Demands least' pods.length count') :
    status.expectedPods = some count ∧ 0 < count ∧
      { s with minAvailable := least' }.isMisconfigured pods.length (expectedOf (some status)) =
        .ok (decide (count' = count)) := by
  have counted : status.expectedPods = some count := by
    rw [verdict_of_demands unset demands] at found
    exact of_decide_eq_true (Except.ok.inj found)
  refine ⟨counted, status.expects_of_isBlocking blocking counted, ?_⟩
  rw [verdict_of_demands (s := { s with minAvailable := least' }) unset demands', counted]
  simp [eq_comm]

/-- Every one of three pods must stay available. -/
def wholeSpec : Spec :=
  { selector := none, maxUnavailable := .null, minAvailable := .str "100%", evictionPolicy := none }

/-- Three pods are expected, and none may be disrupted. -/
def threeBlocked : Status :=
  { threeExpected with disruptionsAllowed := some 0 }

/-- Of three pods all of which must stay available, a demand for three is found, one for four is not. -/
theorem verdict_raised_three :
    let pods : List Pod := List.replicate 3 default
    threeBlocked.isBlocking = true ∧ wholeSpec.maxUnavailable = .null ∧
      Bound.Demands wholeSpec.minAvailable pods.length 3 ∧
      wholeSpec.isMisconfigured pods.length (expectedOf (some threeBlocked)) = .ok true ∧
      Bound.Demands (.int 3) pods.length 3 ∧ Bound.Demands (.str "101%") pods.length 4 ∧
      { wholeSpec with minAvailable := .int 3 }.isMisconfigured pods.length
        (expectedOf (some threeBlocked)) = .ok true ∧
      { wholeSpec with minAvailable := .str "101%" }.isMisconfigured pods.length
        (expectedOf (some threeBlocked)) = .ok false := by
  intro pods
  have whole : Bound.Demands wholeSpec.minAvailable pods.length 3 :=
    ⟨.percentage (.int 100), by decide +kernel, by decide +kernel⟩
  have three : Bound.Demands (.int 3) pods.length 3 := ⟨.absolute (.int 3), rfl, rfl⟩
  have four : Bound.Demands (.str "101%") pods.length 4 :=
    ⟨.percentage (.int 101), by decide +kernel, by decide +kernel⟩
  have found : wholeSpec.isMisconfigured pods.length (expectedOf (some threeBlocked)) = .ok true :=
    verdict_of_demands rfl whole
  exact ⟨by decide, rfl, whole, found, three, four,
    (verdict_raised (by decide) rfl whole found three).2.2,
    (verdict_raised (by decide) rfl whole found four).2.2⟩

/-- What is found for a bound is not found for every higher one: three pods are expected, and four of
them demanded. -/
theorem not_upward_closed :
    ¬ ∀ (s : Spec) (status : Status) (pods : List Pod) (least' : Value) (count count' : Int),
      status.isBlocking = true → s.maxUnavailable = .null →
      Bound.Demands s.minAvailable pods.length count →
      s.isMisconfigured pods.length (expectedOf (some status)) = .ok true →
      Bound.Demands least' pods.length count' → count ≤ count' →
        { s with minAvailable := least' }.isMisconfigured pods.length (expectedOf (some status)) =
          .ok true := by
  intro closed
  let pods : List Pod := List.replicate 3 default
  have three : Bound.Demands (.int 3) pods.length 3 := ⟨.absolute (.int 3), rfl, rfl⟩
  have four : Bound.Demands (.int 4) pods.length 4 := ⟨.absolute (.int 4), rfl, rfl⟩
  have found := closed { wholeSpec with minAvailable := .int 3 } threeBlocked pods (.int 4) 3 4
    (by decide) rfl three rfl four (by decide)
  cases found

end Spec

end BudgetReaper
