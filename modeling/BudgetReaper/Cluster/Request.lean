import BudgetReaper.Session

/-!
# Cluster — requests of a run

The four requests that a run makes.  A request is one call; a rejection or a break of the
transport becomes the failure of the request, every other fault passes through.  A deletion of
something that does not exist is no failure: it tells that there was nothing to delete.
-/

namespace BudgetReaper.Pass

open BudgetReaper.Action

/-- One call: it is counted, then it fails as planned or acts. -/
def issue {α : Type} (call : Call) (act : Cluster → Except Fault (α × Cluster)) :
    Pass (Except Fault α) := do
  emit (.call call)
  let s ← state
  let (cluster, planned) := s.cluster.count call
  match planned with
  | some f =>
    update fun s => { s with cluster }
    return .error f
  | none =>
    match act cluster with
    | .error f =>
      update fun s => { s with cluster }
      return .error f
    | .ok (x, cluster) =>
      update fun s => { s with cluster }
      return .ok x

/-- The failure of a request whose call failed. -/
def failureOf (operation : Operation) (f : Fault) : Failure :=
  if f.isRemote then .call operation f else .fault f

/-- One request that fails whenever its call does. -/
def request {α : Type} (operation : Operation) (call : Call)
    (act : Cluster → Except Fault (α × Cluster)) : Pass α := do
  match ← issue call act with
  | .ok x => return x
  | .error f => fail (failureOf operation f)

/-- The budgets of a namespace, of the whole cluster for an empty one. -/
def listBudgets (space : String) : Pass (List Budget) :=
  if space = "" then
    request (.listBudgets space) .listAll fun c => .ok (c.budgets, c)
  else
    request (.listBudgets space) (.listIn space) fun c => (c.listIn space).map (·, c)

/-- The pods of a namespace that a query text gives. -/
def listPods (space : Option String) (selector : String) : Pass (List Pod) :=
  request (.listPods space selector) (.listPods space selector) fun c =>
    .ok (c.podsOf space selector, c)

/-- Deletes the budgets of a key; false if there are none. -/
def deleteBudget (key : Key) : Pass Bool := do
  match ← issue (.delete key) fun c => (c.delete key).map ((), ·) with
  | .ok () => return true
  | .error f => if f.isNotFound then return false else fail (failureOf (.delete key) f)

/-- Creates an event in a namespace. -/
def createEvent (space : Option String) (event : Event) : Pass Event :=
  request (.createEvent space) (.createEvent space event) fun c => .ok (event, c)

end BudgetReaper.Pass
