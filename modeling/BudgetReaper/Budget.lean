import BudgetReaper.Selector
import BudgetReaper.Stamp

/-!
# Budgets — disruption budgets as the cluster lists them

A budget names itself in its metadata, states in its spec which pods it protects and how many may
be disrupted, and reports in its status how many disruptions it allows now.  Any of these may be
absent.  `isBlocking` is the condition under which a budget stops every voluntary disruption;
`toValue` is the object that the cluster would be sent to create the budget again, without the
fields that are absent, and `dump` its canonical text.
-/

namespace BudgetReaper

/-- An object that a budget belongs to. -/
structure Owner where
  apiVersion : Option String
  kind : Option String
  name : Option String
  uid : Option String
  isController : Option Bool
  blocksDeletion : Option Bool
  deriving DecidableEq, Repr, Inhabited

/-- Who has set which fields of a budget, and when; absent fields are `null`. -/
structure Manager where
  name : Option String
  operation : Option String
  subresource : Option String
  apiVersion : Option String
  time : Option Stamp
  fieldsType : Option String
  fields : Value
  deriving DecidableEq, Repr, Inhabited

/-- The identity of a budget and what its owner attached to it. -/
structure Metadata where
  name : Option String
  space : Option String
  uid : Option String
  version : Option String
  generation : Option Int
  labels : Option (List (String × String))
  annotations : Option (List (String × String))
  created : Option Stamp
  finalizers : Option (List String)
  generateName : Option String := none
  selfLink : Option String := none
  deleted : Option Stamp := none
  deletionGrace : Option Int := none
  owners : Option (List Owner) := none
  managers : Option (List Manager) := none
  deriving DecidableEq, Repr, Inhabited

/-- What a budget demands; an absent bound is `null`. -/
structure Spec where
  selector : Option Selector
  maxUnavailable : Value
  minAvailable : Value
  evictionPolicy : Option String
  deriving DecidableEq, Repr, Inhabited

/-- What the cluster has found of a budget in one respect. -/
structure BudgetCondition where
  kind : Option String
  status : Option String
  reason : Option String
  message : Option String
  since : Option Stamp
  observedGeneration : Option Int
  deriving DecidableEq, Repr, Inhabited

/-- What the cluster counts for a budget. -/
structure Status where
  disruptionsAllowed : Option Int
  expectedPods : Option Int
  currentHealthy : Option Int
  desiredHealthy : Option Int
  observedGeneration : Option Int
  disruptedPods : Option (List (String × Stamp))
  conditions : Option (List BudgetCondition) := none
  deriving DecidableEq, Repr, Inhabited

/-- A disruption budget. -/
structure Budget where
  apiVersion : Option String
  kind : Option String
  metadata : Option Metadata
  spec : Option Spec
  status : Option Status
  deriving DecidableEq, Repr, Inhabited

/-- The namespace and the name of a budget. -/
abbrev Key := Option String × Option String

/-- A namespace and a name in one text; an absent one is the word for absence. -/
def Key.text (key : Key) : String :=
  Text.orNone key.1 ++ "/" ++ Text.orNone key.2

/-- A value that `null` leaves out of an object. -/
def Value.nonNull? : Value → Option Value
  | .null => none
  | v => some v

/-- An owner as an object. -/
def Owner.toValue (o : Owner) : Value :=
  .present [("apiVersion", o.apiVersion.map .str),
    ("blockOwnerDeletion", o.blocksDeletion.map .bool), ("controller", o.isController.map .bool),
    ("kind", o.kind.map .str), ("name", o.name.map .str), ("uid", o.uid.map .str)]

/-- A manager as an object. -/
def Manager.toValue (m : Manager) : Value :=
  .present [("apiVersion", m.apiVersion.map .str), ("fieldsType", m.fieldsType.map .str),
    ("fieldsV1", m.fields.nonNull?), ("manager", m.name.map .str),
    ("operation", m.operation.map .str), ("subresource", m.subresource.map .str),
    ("time", m.time.map fun t => .str t.text)]

namespace Metadata

/-- The namespace and the name. -/
def key (m : Metadata) : Key :=
  (m.space, m.name)

/-- A map of texts as an object. -/
def mapValue (entries : List (String × String)) : Value :=
  .object (entries.map fun (k, v) => (k, .str v))

/-- The metadata as an object. -/
def toValue (m : Metadata) : Value :=
  .present [("annotations", m.annotations.map mapValue),
    ("creationTimestamp", m.created.map fun t => .str t.text),
    ("deletionGracePeriodSeconds", m.deletionGrace.map .int),
    ("deletionTimestamp", m.deleted.map fun t => .str t.text),
    ("finalizers", m.finalizers.map .texts), ("generateName", m.generateName.map .str),
    ("generation", m.generation.map .int), ("labels", m.labels.map mapValue),
    ("managedFields", m.managers.map fun ms => .list (ms.map Manager.toValue)),
    ("name", m.name.map .str), ("namespace", m.space.map .str),
    ("ownerReferences", m.owners.map fun os => .list (os.map Owner.toValue)),
    ("resourceVersion", m.version.map .str), ("selfLink", m.selfLink.map .str),
    ("uid", m.uid.map .str)]

end Metadata

/-- An expression as an object. -/
def Expression.toRecord (e : Expression) : Value :=
  .present [("key", e.key.map .str), ("operator", e.operator.map .str),
    ("values", e.values.map .texts)]

/-- A selector as an object. -/
def Selector.toRecord (s : Selector) : Value :=
  .present [("matchExpressions", s.expressions.map fun es => .list (es.map Expression.toRecord)),
    ("matchLabels", s.labels.map Metadata.mapValue)]

/-- A spec as an object. -/
def Spec.toValue (s : Spec) : Value :=
  .present [("maxUnavailable", s.maxUnavailable.nonNull?),
    ("minAvailable", s.minAvailable.nonNull?), ("selector", s.selector.map Selector.toRecord),
    ("unhealthyPodEvictionPolicy", s.evictionPolicy.map .str)]

/-- A condition as an object. -/
def BudgetCondition.toValue (c : BudgetCondition) : Value :=
  .present [("lastTransitionTime", c.since.map fun t => .str t.text),
    ("message", c.message.map .str), ("observedGeneration", c.observedGeneration.map .int),
    ("reason", c.reason.map .str), ("status", c.status.map .str), ("type", c.kind.map .str)]

namespace Status

/-- A budget of this status stops every voluntary disruption: it allows none and expects pods. -/
def isBlocking (s : Status) : Bool :=
  s.disruptionsAllowed.getD 0 == 0 && 0 < s.expectedPods.getD 0

/-- A status as an object. -/
def toValue (s : Status) : Value :=
  .present [("conditions", s.conditions.map fun cs => .list (cs.map BudgetCondition.toValue)),
    ("currentHealthy", s.currentHealthy.map .int),
    ("desiredHealthy", s.desiredHealthy.map .int),
    ("disruptedPods", s.disruptedPods.map fun ps =>
      .object (ps.map fun (pod, t) => (pod, .str t.text))),
    ("disruptionsAllowed", s.disruptionsAllowed.map .int),
    ("expectedPods", s.expectedPods.map .int),
    ("observedGeneration", s.observedGeneration.map .int)]

end Status

namespace Budget

/-- The namespace and the name of a budget; none for a budget without metadata. -/
def key? (b : Budget) : Option Key :=
  b.metadata.map Metadata.key

/-- The full name of a budget; one without metadata has none of its own. -/
def fullName (b : Budget) : String :=
  Key.text (b.key?.getD (none, none))

/-- The budget stops every voluntary disruption. -/
def isBlocking (b : Budget) : Bool :=
  match b.status with
  | none => false
  | some s => s.isBlocking

/-- The budget as an object, absent fields left out. -/
def toValue (b : Budget) : Value :=
  .present [("apiVersion", b.apiVersion.map .str), ("kind", b.kind.map .str),
    ("metadata", b.metadata.map Metadata.toValue), ("spec", b.spec.map Spec.toValue),
    ("status", b.status.map Status.toValue)]

/-- The canonical text of a budget, from which it can be restored.  A writer of JSON may refuse an
integer of more than 4300 digits; this one refuses none, since no budget that is listed holds one: the
reader of the listing has the same limit. -/
def dump (b : Budget) : String :=
  b.toValue.canonical

/-- A budget blocks exactly when its status counts no allowed disruption and an expected pod. -/
theorem isBlocking_iff (b : Budget) :
    b.isBlocking = true ↔
      ∃ s, b.status = some s ∧ s.disruptionsAllowed.getD 0 = 0 ∧ 0 < s.expectedPods.getD 0 := by
  cases h : b.status <;> simp [isBlocking, Status.isBlocking, h]

end Budget

end BudgetReaper
