import BudgetReaper.Cluster.Request

/-!
# Reaping — events and samples

The two signals that a run gives of a budget.  Neither decides anything: a failure to publish an
event or to record a sample becomes a warning, and the run goes on.
-/

namespace BudgetReaper.Pass

open BudgetReaper.Action

/-- Publishes the event of a reason about a budget; false if the cluster did not take it. -/
def publish (b : Budget) (reason : Reason) : Pass Bool := do
  let s ← state
  let event ← ofExcept id (eventOf b reason s.now)
  match ← attempt (createEvent event.space event) with
  | .ok _ => return true
  | .error f =>
    if f.isCluster then
      say (.warning "Failed to publish event"
        [("pdb", .str b.fullName), ("reason", .str reason.text), ("error", .str f.message)])
      return false
    else fail f

/-- Records a sample in the sink. -/
def recordSample (sample : Sample) : Pass Unit := do
  emit (.sample sample)
  let s ← state
  let (sink, failure) := s.sink.record sample
  update fun s => { s with sink }
  match failure with
  | none => return ()
  | some f => fail f

/-- Records a value for a budget and a reason; false if there is no sink or it refuses. -/
def expose (b : Budget) (reason : Reason) (value : Value) : Pass Bool := do
  let s ← state
  if s.sink.isPresent then
    let m ← metadataOf b
    let sample : Sample := { key := m.key, reason, value }
    match ← attempt (recordSample sample) with
    | .ok () =>
      say (.sampled Exposition.resultName value sample.tags)
      return true
    | .error f =>
      if f.isMetrics then
        say (.warning "Pushing metric error" (("error", .str f.message) :: sample.tags))
        return false
      else fail f
  else return false

/-- Records one for a budget and a reason. -/
def raise (b : Budget) (reason : Reason) : Pass Unit := do
  let _ ← expose b reason (.int 1)
  return ()

/-- Records zero for a budget and a reason. -/
def lower (b : Budget) (reason : Reason) : Pass Unit := do
  let _ ← expose b reason (.int 0)
  return ()

/-- Publishes the event of a reason, whether or not the cluster takes it. -/
def announce (b : Budget) (reason : Reason) : Pass Unit := do
  let _ ← publish b reason
  return ()

end BudgetReaper.Pass
