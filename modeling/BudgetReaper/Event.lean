import BudgetReaper.Budget
import BudgetReaper.Reason

/-!
# Events — what is published about a budget

An event tells the cluster that a budget has been marked or deleted and why.  `about` builds the
event of a budget from its metadata; `toValue` is the object that is sent.
-/

namespace BudgetReaper

/-- An event about a budget. -/
structure Event where
  generateName : String
  space : Option String
  apiVersion : String
  name : Option String
  uid : Option String
  version : Option String
  reason : Reason
  message : String
  time : Stamp
  deriving DecidableEq, Repr, Inhabited

namespace Event

/-- The kind of the object that every event is about. -/
def involvedKind : String := "PodDisruptionBudget"

/-- The version of a budget that states none. -/
def defaultApiVersion : String := "policy/v1"

/-- Who publishes. -/
def component : String := "pdb-reaper"

/-- The API version of a budget, the default one if it states none. -/
def apiVersionOf (b : Budget) : String :=
  match b.apiVersion with
  | none => defaultApiVersion
  | some v => if v = "" then defaultApiVersion else v

/-- The event about a budget with the given metadata. -/
def about (b : Budget) (m : Metadata) (reason : Reason) (now : Stamp) : Event :=
  { generateName := component ++ "-" ++ Text.orNone m.name
    space := m.space
    apiVersion := apiVersionOf b
    name := m.name
    uid := m.uid
    version := m.version
    reason
    message := reason.message m.key.text
    time := now }

/-- The event as an object, absent fields left out. -/
def toValue (e : Event) : Value :=
  .object [("firstTimestamp", .str e.time.text),
    ("involvedObject", .present [("apiVersion", some (.str e.apiVersion)),
      ("kind", some (.str involvedKind)), ("name", e.name.map .str),
      ("namespace", e.space.map .str), ("resourceVersion", e.version.map .str),
      ("uid", e.uid.map .str)]),
    ("lastTimestamp", .str e.time.text), ("message", .str e.message),
    ("metadata", .present [("generateName", some (.str e.generateName)),
      ("namespace", e.space.map .str)]),
    ("reason", .str e.reason.text), ("source", .object [("component", .str component)]),
    ("type", .str "Normal")]

end Event

end BudgetReaper
