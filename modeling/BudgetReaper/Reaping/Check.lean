import BudgetReaper.Reaping.Mark

/-!
# Reaping — checks on blocking budgets

The third phase makes three checks of every blocking budget: whether it is misconfigured, whether
its pods are in a crash loop, whether they are not ready.  A check that is switched off has the
verdict false.  Every verdict gives a sample; a true one also marks the budget and publishes an
event.
-/

namespace BudgetReaper.Pass

open BudgetReaper.Action

/-- Whether the bounds of a budget permit no disruption of its pods. -/
def misconfigured (b : Budget) (pods : List Pod) : Pass Bool := do
  let spec ← specOf b "max_unavailable"
  ofExcept (Failure.ofBound b.fullName) (spec.isMisconfigured pods.length (expectedOf b.status))

/-- Gives the signals of a verdict. -/
def report (b : Budget) (reason : Reason) (verdict : Bool) (pods : List Pod) : Pass Unit := do
  if verdict then
    say (.marked [b.fullName] reason.text (pods.map Pod.fullName))
    mark b
    announce b reason
    raise b reason
  else lower b reason

/-- Makes the three checks of a blocking budget. -/
def check (space : Option String) (b : Budget) : Pass Unit := do
  let s ← state
  let cfg := s.settings
  say (.evaluated b.fullName "blocking")
  let pods ← selectedPods space b
  let bad ← if cfg.reapMisconfigured.holds then misconfigured b pods else done false
  report b .blocking bad []
  let looping ← if cfg.reapCrashLoop.holds then
      ofExcept .value (areCrashLooping pods cfg.crashLoopThreshold (.ofAll cfg.allCrashLoop.holds))
    else done false
  report b .crashLoop looping pods
  let unready ← if cfg.reapNotReady.holds then
      ofExcept .clock (areNotReady pods cfg.notReadySeconds (.ofAll cfg.allNotReady.holds) s.now)
    else done false
  report b .notReady unready pods

/-- Makes the checks of every blocking budget. -/
def checkBlocking : Pass Unit := do
  let s ← state
  forEach (fun group => forEach (check group.1) group.2) s.ledger.blocking

end BudgetReaper.Pass
