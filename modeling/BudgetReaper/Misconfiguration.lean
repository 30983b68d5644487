import BudgetReaper.Bound
import BudgetReaper.Budget
import BudgetReaper.Value.Member

/-!
# Misconfiguration — bounds that never permit a disruption

A budget is misconfigured if its bounds permit no disruption by construction.  Only one bound
counts: `maxUnavailable` if it is set, which must then resolve to zero, otherwise `minAvailable`,
which must resolve to the number of pods that the status expects.  Percentages are of the number of
pods that the selector matches now, rounded up.
-/

namespace BudgetReaper

/-- Why it cannot be told whether a budget is misconfigured. -/
inductive BoundFailure where
  | fault (f : Bound.Fault)
  | value (f : Value.Fault)
  deriving DecidableEq, Repr, Inhabited

/-- The text of a failure to tell. -/
def BoundFailure.message : BoundFailure → String
  | fault f => f.message
  | value f => f.message

/-- The bound that a value writes, or the failure to read one. -/
def readBound (v : Value) : Except BoundFailure (Option Bound) :=
  (Bound.ofValue v).mapError .fault

/-- The count that a bound stands for among `podCount` pods, a share rounded up. -/
def Bound.countAmong (b : Bound) (podCount : Nat) : Except BoundFailure Value :=
  (b.resolve (.int podCount) true).mapError .value

/-- The number of pods that an optional status expects: none of an absent status. -/
def expectedOf : Option Status → Value
  | none => .int 0
  | some s => .ofInt? s.expectedPods

/-- The bounds of the spec permit no disruption, with `podCount` pods matched now and `expected`
pods expected. -/
def Spec.isMisconfigured (s : Spec) (podCount : Nat) (expected : Value) :
    Except BoundFailure Bool := do
  match ← readBound s.maxUnavailable with
  | some b => return (← b.countAmong podCount).equals (.int 0)
  | none =>
    match ← readBound s.minAvailable with
    | some b => return (← b.countAmong podCount).equals expected
    | none => return false

end BudgetReaper
