import BudgetReaper.Fault
import BudgetReaper.Gauge.Registry
import BudgetReaper.Log.Fault
import BudgetReaper.Misconfiguration
import BudgetReaper.Pod
import BudgetReaper.Settings

/-!
# Failures — why a step does not give its result

A failure is a cause, with what it happened to.  `isReported` holds of the failures that the
program knows as its own; a run wraps them into an abort that names its stage and phase, and lets
every other failure through.  `message` and `typeName` are the words in which a failure is logged.
-/

namespace BudgetReaper

/-- A call to the cluster, with what it is about. -/
inductive Operation where
  | listBudgets (space : String)
  | listPods (space : Option String) (selector : String)
  | delete (key : Key)
  | createEvent (space : Option String)
  deriving DecidableEq, Repr, Inhabited

namespace Operation

/-- The name of an operation. -/
def name : Operation → String
  | listBudgets _ => "list-pdbs"
  | listPods .. => "list-pods"
  | delete _ => "delete-pdb"
  | createEvent _ => "create-event"

/-- What the operation is about; a listing of the whole cluster is about nothing. -/
def object? : Operation → Option String
  | listBudgets space => if space = "" then none else some space
  | listPods space _ => space
  | delete key => some key.text
  | createEvent space => space

/-- What could not be done. -/
def attempt : Operation → String
  | listBudgets _ => "failed to list PDBs"
  | listPods _ selector => "failed to list pods with selector '" ++ selector ++ "'"
  | delete key => "failed to delete offending PDB " ++ key.text
  | createEvent _ => "failed to publish event"

end Operation

/-- A part of a run. -/
inductive Phase where
  | scan
  | multiple
  | blocking
  | deletion
  deriving DecidableEq, Repr, Inhabited

namespace Phase

/-- The stage that a phase belongs to. -/
def stage : Phase → String
  | scan => "scan"
  | _ => "reap"

/-- What a run says of a phase that failed. -/
def attempt : Phase → String
  | scan => "failed to scan cluster"
  | multiple => "failed to reap PDBs: failed to handle multiple PDBs"
  | blocking => "failed to reap PDBs: failed to handle blocking PDBs"
  | deletion => "failed to reap PDBs: failed to handle reapable PDBs"

end Phase

/-- Why a variable cannot be set. -/
inductive EnvironmentFault where
  | illegalName
  | embeddedNull
  deriving DecidableEq, Repr, Inhabited

/-- The text of a fault of the environment. -/
def EnvironmentFault.message : EnvironmentFault → String
  | illegalName => "illegal environment variable name"
  | embeddedNull => "embedded null byte"

/-- Why a step does not give its result. -/
inductive Failure where
  /-- A call to the cluster failed. -/
  | call (operation : Operation) (fault : Fault)
  /-- No source of credentials could be used. -/
  | noCredentials
  /-- Something else failed outside. -/
  | fault (f : Fault)
  /-- A selector cannot be rendered. -/
  | selector (f : Expression.Fault)
  /-- The selector of a budget cannot be rendered. -/
  | budgetSelector (budget : String) (selector : Option Selector) (f : Expression.Fault)
  /-- A bound cannot be read. -/
  | bound (f : Bound.Fault)
  /-- A bound of a budget cannot be read. -/
  | budgetBound (budget : String) (f : Bound.Fault)
  /-- A sample cannot be recorded. -/
  | sample (name : String) (tags : List (String × Value)) (f : Registry.Fault)
  /-- A value cannot be used as it is. -/
  | value (f : Value.Fault)
  /-- The age of a condition cannot be told. -/
  | clock (f : ClockFault)
  /-- A phase of a run failed. -/
  | aborted (phase : Phase) (cause : Failure)
  /-- The settings are refused. -/
  | settings (f : Settings.Fault)
  /-- A value names no reason. -/
  | unknownReason (v : Value)
  /-- The arguments of a call do not fit. -/
  | arguments (f : Signature.Fault)
  /-- Something else was found where a level was sought. -/
  | level (f : Log.LevelFault)
  /-- A call on the log failed. -/
  | log (f : Log.Fault)
  /-- A variable cannot be set. -/
  | environment (f : EnvironmentFault)
  deriving DecidableEq, Repr, Inhabited

namespace Failure

/-- A part of an object is absent of which `part` was read. -/
def missing (part : String) : Failure :=
  value (.noPart Value.null.kindName part)

/-- The failure to tell whether the budget `name` is misconfigured. -/
def ofBound (name : String) : BoundFailure → Failure
  | .fault f => budgetBound name f
  | .value f => value f

/-- Tags as they stand in a message. -/
def tagsText (tags : List (String × Value)) : String :=
  (Value.object tags).display

/-- The text of a failure. -/
def message : Failure → String
  | call operation f => operation.attempt ++ ": " ++ f.describe
  | noCredentials =>
    "Could not load Kubernetes configuration. " ++
      "Run in-cluster with a service account, or set KUBECONFIG / KUBE_CONFIG_PATH"
  | fault f => f.message
  | selector f => f.message
  | budgetSelector budget s f =>
    "failed to get label selector for PDB " ++ budget ++ " from structured selector " ++
      Selector.optionText s ++ ": " ++ f.message
  | bound f => f.message
  | budgetBound budget f =>
    "failed to determine if PDB " ++ budget ++ " is misconfigured: " ++ f.message
  | sample name tags f =>
    if f.isReported then
      "failed to set metric " ++ name ++ " with tags " ++ tagsText tags ++ ": " ++ f.message
    else f.message
  | value f => f.message
  | clock f => f.message
  | aborted phase cause => phase.attempt ++ ": " ++ cause.message
  | settings f => f.message
  | unknownReason v => v.display ++ " is not a valid ReapReason"
  | arguments f => f.message
  | level f => f.message
  | log f => f.message
  | environment f => f.message

/-- The name of a kind of failure. -/
def typeName : Failure → String
  | call .. | noCredentials => "ClusterError"
  | fault f => f.typeName
  | selector _ | budgetSelector .. => "SelectorError"
  | bound _ | budgetBound .. => "IntOrPercentError"
  | sample _ _ f => if f.isReported then "MetricsError" else f.typeName
  | value f => f.typeName
  | clock _ | arguments _ => "TypeError"
  | aborted .. => "ExecutionError"
  | settings f => f.typeName
  | level f => f.typeName
  | log f => f.typeName
  | unknownReason _ | environment _ => "ValueError"

/-- A failure of a call to the cluster, or one reported as such. -/
def isCluster : Failure → Bool
  | call .. | noCredentials | fault (.cluster _) => true
  | _ => false

/-- A failure to record a sample, or one reported as such. -/
def isMetrics : Failure → Bool
  | sample _ _ f => f.isReported
  | fault (.metrics _) => true
  | _ => false

/-- A failure that the program knows as its own. -/
def isReported : Failure → Bool
  | call .. | noCredentials | selector _ | budgetSelector .. | bound _ | budgetBound ..
  | aborted .. => true
  | settings f => f.isReported
  | sample _ _ f => f.isReported
  | fault (.cluster _) | fault (.metrics _) | fault (.selector _) => true
  | _ => false

/-- The stage that an abort names. -/
def stage? : Failure → Option String
  | aborted phase _ => some phase.stage
  | _ => none

/-- The operation that a failed call names; none for a failure only reported as such. -/
def operation? : Failure → Option String
  | call operation _ => some operation.name
  | noCredentials => some "load-config"
  | _ => none

/-- What the operation of a failed call is about. -/
def object? : Failure → Option String
  | call operation _ => operation.object?
  | _ => none

theorem isReported_of_isCluster {f : Failure} (h : f.isCluster = true) : f.isReported = true := by
  unfold isCluster at h
  split at h <;> first | rfl | cases h

theorem isReported_of_isMetrics {f : Failure} (h : f.isMetrics = true) : f.isReported = true := by
  unfold isMetrics at h
  split at h <;> first | exact h | rfl | cases h

end Failure

end BudgetReaper
