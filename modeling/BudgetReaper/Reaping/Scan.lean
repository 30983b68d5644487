import BudgetReaper.Reaping.Signal

/-!
# Reaping — the scan

The first phase lists every budget of the cluster and sorts it: budgets of excluded namespaces are
left out, namespaces with several of the others are noted, and so are the budgets that block.  The
namespaces of both groupings are in the order in which their first budget was listed.
-/

namespace BudgetReaper

/-- The namespace of a budget that is not left alone, with the budget. -/
def visible? (settings : Settings) (b : Budget) : Option (Option String × Budget) :=
  b.metadata.bind fun m =>
    match settings.isExcluded (.ofText? m.space) with
    | .ok false => some (m.space, b)
    | _ => none

/-- Budgets grouped by namespace, in listing order. -/
def groupBySpace (entries : List (Option String × Budget)) :
    List (Option String × List Budget) :=
  entries.foldl (fun groups e => Assoc.push groups e.1 e.2) []

/-- The groups of the listed budgets that are not left alone. -/
def groupsOf (settings : Settings) (budgets : List Budget) :
    List (Option String × List Budget) :=
  groupBySpace (budgets.filterMap (visible? settings))

/-- The groups of more than one budget. -/
def severalOf (groups : List (Option String × List Budget)) :
    List (Option String × List Budget) :=
  groups.filter fun g => 1 < g.2.length

namespace Pass

open BudgetReaper.Action

/-- Says once of each excluded namespace that it is left alone; `seen` holds those said so far. -/
def tellExcluded (seen : List (Option String)) : List Budget → Pass Unit
  | [] => done ()
  | b :: rest => do
    let m ← metadataOf b
    let s ← settings
    let excluded ← ofExcept .value (s.isExcluded (.ofText? m.space))
    if excluded && !seen.contains m.space then
      say (.excluded m.space)
      tellExcluded (m.space :: seen) rest
    else tellExcluded seen rest

/-- What is said of a budget that does not block. -/
def ignoredDetails (b : Budget) : List (String × Value) :=
  [("disruptions_allowed", .ofInt? (b.status.bind Status.disruptionsAllowed)),
    ("expected_pods", .ofInt? (b.status.bind Status.expectedPods))]

/-- Notes a budget that blocks and gives it the sample of a budget not deleted. -/
def sort (space : Option String) (b : Budget) : Pass Unit := do
  if b.isBlocking then
    post (·.block space b)
    lower b .deleted
  else say (.ignored b.fullName "non-blocking" (ignoredDetails b))

/-- Lists and sorts every budget of the cluster. -/
def scan : Pass Unit := do
  let budgets ← listBudgets ""
  tellExcluded [] budgets
  let s ← settings
  let groups := groupsOf s budgets
  post (·.group (severalOf groups))
  forEach (fun group => forEach (sort group.1) group.2) groups

end Pass

end BudgetReaper
