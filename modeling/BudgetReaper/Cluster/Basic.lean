import BudgetReaper.Assoc
import BudgetReaper.Event
import BudgetReaper.Fault
import BudgetReaper.Pod

/-!
# Cluster — the server that is called

A cluster holds budgets and, for each namespace and query text, the pods that a listing gives.  A
call is counted by its kind before it acts; the plan then says, for the call and its number among
the calls of its kind, whether it fails and with which fault.  Otherwise listing reads, deleting
removes every budget of the key or finds none, and creating an event changes nothing.  A search for
a namespace or a key reads the metadata of every budget, and fails if one has none.
-/

namespace BudgetReaper

/-- A call to the server. -/
inductive Call where
  | listAll
  | listIn (space : String)
  | listPods (space : Option String) (selector : String)
  | delete (key : Key)
  | createEvent (space : Option String) (event : Event)
  deriving DecidableEq, Repr, Inhabited

/-- The kinds of calls, each counted on its own. -/
inductive CallKind where
  | listAll
  | listIn
  | listPods
  | delete
  | createEvent
  deriving DecidableEq, Repr, Inhabited

/-- The name of a kind of call. -/
def CallKind.name : CallKind → String
  | listAll => "list_pdbs_all"
  | listIn => "list_pdbs"
  | listPods => "list_pods"
  | delete => "delete_pdb"
  | createEvent => "create_event"

namespace Call

/-- The kind of a call. -/
def kind : Call → CallKind
  | listAll => .listAll
  | listIn _ => .listIn
  | listPods .. => .listPods
  | delete _ => .delete
  | createEvent .. => .createEvent

/-- The namespace that a call is about. -/
def space? : Call → Option String
  | listAll => none
  | listIn space => some space
  | listPods space _ => space
  | delete key => key.1
  | createEvent space _ => space

/-- The name that a call is about. -/
def name? : Call → Option String
  | delete key => key.2
  | _ => none

/-- The query text of a call. -/
def selector? : Call → Option String
  | listPods _ selector => some selector
  | _ => none

/-- The reason of the event that a call creates. -/
def reason? : Call → Option String
  | createEvent _ event => some event.reason.text
  | _ => none

/-- The record of a call as an object. -/
def toValue (c : Call) : Value :=
  .object <| ("call", .str c.kind.name) :: match c with
    | listAll => [("watch", .bool false)]
    | listIn space => [("namespace", .str space)]
    | listPods space selector => [("namespace", .ofText? space), ("selector", .str selector)]
    | delete key => [("namespace", .ofText? key.1), ("name", .ofText? key.2)]
    | createEvent space event =>
      [("namespace", .ofText? space), ("reason", .str event.reason.text),
        ("event", event.toValue)]

end Call

/-- Which calls fail: the fault of a call and its number among the calls of its kind. -/
abbrev Plan := Call → Nat → Option Fault

/-- The server, with the kinds of the calls made so far. -/
structure Cluster where
  budgets : List Budget
  listings : List ((Option String × String) × List Pod)
  plan : Plan
  made : List CallKind

namespace Cluster

/-- A cluster at which no call fails. -/
def faultless : Plan :=
  fun _ _ => none

instance : Inhabited Cluster :=
  ⟨⟨[], [], faultless, []⟩⟩

/-- The cluster after a call has been counted, and the fault with which the call fails. -/
def count (c : Cluster) (call : Call) : Cluster × Option Fault :=
  let made := call.kind :: c.made
  ({ c with made }, c.plan call (made.count call.kind))

/-- The budgets of a namespace. -/
def budgetsIn (c : Cluster) (space : String) : List Budget :=
  c.budgets.filter fun b => (b.key?.bind Prod.fst) == some space

/-- The pods of a namespace that a query text gives. -/
def podsOf (c : Cluster) (space : Option String) (selector : String) : List Pod :=
  (Assoc.get? c.listings (space, selector)).getD []

/-- Every budget of the cluster carries metadata. -/
def isNamed (c : Cluster) : Bool :=
  c.budgets.all fun b => b.metadata.isSome

/-- The fault of a search among budgets one of which lacks the metadata that is read. -/
def unnamed : Fault :=
  .absent "namespace"

/-- The cluster without the budgets of a key. -/
def without (c : Cluster) (key : Key) : Cluster :=
  { c with budgets := c.budgets.filter fun b => b.key? != some key }

/-- Whether the cluster holds a budget of the key. -/
def holds (c : Cluster) (key : Key) : Bool :=
  c.budgets.any fun b => b.key? == some key

/-- The fault of a call about something that does not exist. -/
def notFound : Fault :=
  .rejected (some Fault.notFoundStatus) (some "Not Found")

/-- The budgets that a listing of a namespace gives. -/
def listIn (c : Cluster) (space : String) : Except Fault (List Budget) :=
  if c.isNamed then .ok (c.budgetsIn space) else .error unnamed

/-- The cluster after a deletion, or the fault if there is nothing to delete. -/
def delete (c : Cluster) (key : Key) : Except Fault Cluster :=
  if !c.isNamed then .error unnamed
  else if c.holds key then .ok (c.without key)
  else .error notFound

theorem holds_without (c : Cluster) (key : Key) : (c.without key).holds key = false := by
  simp [holds, without]

theorem isNamed_without {c : Cluster} (h : c.isNamed = true) (key : Key) :
    (c.without key).isNamed = true := by
  simp only [isNamed, List.all_eq_true] at h ⊢
  exact fun b hb => h b (List.mem_filter.mp hb).1

/-- A second deletion of a key finds nothing. -/
theorem delete_without {c : Cluster} (h : c.isNamed = true) (key : Key) :
    (c.without key).delete key = .error notFound := by
  simp [delete, holds_without, isNamed_without h]

end Cluster

end BudgetReaper
