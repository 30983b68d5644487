import BudgetReaper.Reaping.Scan

/-!
# Reaping — pods and marks

What both marking phases use: the pods that a budget selects, and the mark of a budget under its
key, which a second mark does not change.
-/

namespace BudgetReaper.Pass

open BudgetReaper.Action

/-- The spec of a budget; `field` is what is read of it first. -/
def specOf (b : Budget) (field : String) : Pass Spec :=
  match b.spec with
  | some s => done s
  | none => fail (.missing field)

/-- The pods that the selector of a budget selects in a namespace. -/
def selectedPods (space : Option String) (b : Budget) : Pass (List Pod) := do
  let spec ← specOf b "selector"
  let selector ← ofExcept (Failure.budgetSelector b.fullName spec.selector)
    (Selector.renderOption spec.selector)
  let pods ← listPods space selector
  say (.debug "Listed PDB pods" [("pdb", .str b.fullName), ("selector", .str selector),
    ("pod_count", .int pods.length)])
  return pods

/-- Marks a budget for deletion. -/
def mark (b : Budget) : Pass Unit := do
  let m ← metadataOf b
  post (·.mark m.key b)

end BudgetReaper.Pass
