import BudgetReaper.Reaping.Check
import BudgetReaper.Reaping.Deletion
import BudgetReaper.Reaping.Overlap

/-!
# Reaping — a whole run

A run scans the cluster, marks in two phases and deletes.  A failure that the program knows as its
own aborts the run and is reported with the phase that it ended; every other failure ends the run
as it is.  `deliver` then hands the samples to the gateway, and `runAndDeliver` does so whatever
became of the run.
-/

namespace BudgetReaper.Pass

open BudgetReaper.Action

/-- A phase, its own failures reported as an abort. -/
def inPhase (phase : Phase) (a : Pass Unit) : Pass Unit :=
  rephrase a fun f => if f.isReported then .aborted phase f else f

/-- The two marking phases and the deletion. -/
def reap : Pass Unit := do
  inPhase .multiple markOverlapping
  inPhase .blocking checkBlocking
  inPhase .deletion removeMarked

/-- One run over the cluster. -/
def execute : Pass Unit := do
  let s ← state
  say (.runStarted s.runId s.settings.dryRun)
  inPhase .scan scan
  reap
  let s ← state
  say (.runEnded s.runId s.settings.dryRun ((Assoc.keys s.ledger.reapable).map Key.text)
    s.ledger.reaped)

/-- The next answer of the gateway. -/
def nextAnswer : Pass Gateway.Answer := do
  let s ← state
  match s.answers with
  | [] => return Gateway.accepted
  | a :: rest =>
    update fun s => { s with answers := rest }
    return a

/-- Hands the samples to the gateway; false if there is none or it did not take them. -/
def deliver : Pass Bool := do
  let s ← state
  match s.sink with
  | .absent => fail (.missing "push")
  | .scripted .. => return false
  | .registry _ none _ =>
    say .noGateway
    return false
  | .registry r (some address) job =>
    let url := Gateway.target address job
    emit (.push { url, body := Exposition.text r })
    match Gateway.outcome url (← nextAnswer) with
    | .done =>
      say (.delivered url)
      return true
    | .refused error =>
      say (.undelivered url error)
      return false
    | .raised f => fail (.fault f)

/-- One run, and the delivery of its samples whatever became of it. -/
def runAndDeliver : Pass Unit := do
  let result ← attempt execute
  let _ ← deliver
  match result with
  | .ok () => return ()
  | .error f => fail f

end BudgetReaper.Pass
