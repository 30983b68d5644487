import BudgetReaper.Reaping.Mark

/-!
# Reaping — deletion

The last phase keeps the text of every marked budget in the log and deletes it, unless the run
only shows what it would do.  A budget that is already gone is passed over.
-/

namespace BudgetReaper.Pass

open BudgetReaper.Action

/-- Keeps the text of a marked budget and deletes it.  The text can be written, as every integer of a
budget has been read from a text (`Budget.dump`). -/
def remove (entry : Key × Budget) : Pass Unit := do
  let name := entry.1.text
  say (.info "Deleting offending PDB" [("pdb", .str name)])
  say (.dumped name entry.2.dump)
  let s ← settings
  if s.dryRun.holds then say (.kept name)
  else if ← deleteBudget entry.1 then
    say (.removed name)
    announce entry.2 .deleted
    post (·.reap name)
    raise entry.2 .deleted
  else say (.alreadyGone name)

/-- Deletes every marked budget. -/
def removeMarked : Pass Unit := do
  let s ← state
  forEach remove s.ledger.reapable

end BudgetReaper.Pass
