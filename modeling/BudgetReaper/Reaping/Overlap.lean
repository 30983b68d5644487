import BudgetReaper.Reaping.Mark

/-!
# Reaping — budgets that overlap

The second phase judges each namespace with several budgets as a whole: if the pods that its
budgets select have a name in common, every budget of the namespace is marked.
-/

namespace BudgetReaper

/-- The different names of pods, in code-point order. -/
def podNames (pods : List Pod) : List String :=
  (Expression.sorted (pods.map Pod.fullName)).eraseDups

namespace Pass

open BudgetReaper.Action

/-- Judges the budgets of one namespace. -/
def judgeGroup (group : Option String × List Budget) : Pass Unit := do
  let pods ← gather (fun b => do
    say (.evaluated b.fullName "multiple")
    selectedPods group.1 b) group.2
  if hasDuplicates (pods.map Pod.name) then
    say (.marked (group.2.map Budget.fullName) Reason.multiple.text (podNames pods))
    forEach mark group.2
    forEach (fun b => do
      announce b .multiple
      raise b .multiple) group.2
  else forEach (fun b => lower b .multiple) group.2

/-- Marks every budget of a namespace whose budgets select a pod in common. -/
def markOverlapping : Pass Unit := do
  let s ← state
  if s.settings.reapMultiple.holds then forEach judgeGroup s.ledger.multiple

end Pass

end BudgetReaper
