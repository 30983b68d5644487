import BudgetReaper.Budget
import BudgetReaper.Value.Number

/-!
# Pods — which pods are broken

A pod is crash looping if one of its init or regular containers waits for the reason
`CrashLoopBackOff` and has restarted at least a threshold of times.  It is not ready if its
condition `ContainersReady` has been `False` for at least a threshold of seconds; an unknown time
of transition counts as long past.  A list of pods is judged as a whole in one of two modes: every
pod has the defect, or some pod has it (`judge`).

A threshold may be a value of any kind.  One that is no number fails where it is compared first, and
does no harm where nothing is compared.
-/

namespace BudgetReaper

/-- Why a container waits. -/
structure Waiting where
  reason : Option String
  deriving DecidableEq, Repr, Inhabited

/-- The state of a container. -/
structure ContainerState where
  waiting : Option Waiting
  deriving DecidableEq, Repr, Inhabited

/-- What a pod reports of one of its containers. -/
structure ContainerStatus where
  restarts : Option Int
  state : Option ContainerState
  deriving DecidableEq, Repr, Inhabited

/-- A condition of a pod and the time at which it last changed. -/
structure Condition where
  kind : Option String
  status : Option String
  since : Option Stamp
  deriving DecidableEq, Repr, Inhabited

/-- What a pod reports of itself. -/
structure PodStatus where
  init : Option (List ContainerStatus)
  containers : Option (List ContainerStatus)
  conditions : Option (List Condition)
  deriving DecidableEq, Repr, Inhabited

/-- A pod.  Every pod of a cluster carries metadata, so its name and its namespace stand here without
that level; either may be absent. -/
structure Pod where
  name : Option String
  space : Option String
  status : Option PodStatus
  deriving DecidableEq, Repr, Inhabited

/-! ### Judging a list -/

/-- Which pods of a list must have a defect for the list to have it. -/
inductive Mode where
  | every
  | some
  deriving DecidableEq, Repr, Inhabited

/-- The mode of a switch that demands the defect of every pod. -/
def Mode.ofAll (all : Bool) : Mode :=
  if all then .every else .some

/-- Whether a list of `total` pods has a defect that `defective` of them have. -/
def Mode.judge (mode : Mode) (defective total : Nat) : Bool :=
  match mode with
  | .every => defective == total
  | .some => 0 < defective

/-! ### Crash loops -/

/-- The reason for which a container in a crash loop waits. -/
def crashLoopReason : String := "CrashLoopBackOff"

/-- The container waits in a crash loop, and its restarts are not below the threshold. -/
def ContainerStatus.isCrashLooping (c : ContainerStatus) (threshold : Number) : Bool :=
  match c.state.bind ContainerState.waiting with
  | none => false
  | some w => !(Number.whole (c.restarts.getD 0)).lt threshold && w.reason == some crashLoopReason

/-- The container waits, so that its restarts are compared. -/
def ContainerStatus.isWaiting (c : ContainerStatus) : Bool :=
  (c.state.bind ContainerState.waiting).isSome

/-- The init and regular containers of a pod. -/
def PodStatus.allContainers (s : PodStatus) : List ContainerStatus :=
  s.init.getD [] ++ s.containers.getD []

/-- The containers of a pod; none without a status. -/
def Pod.containers (p : Pod) : List ContainerStatus :=
  (p.status.map PodStatus.allContainers).getD []

/-- Some container of the pod is crash looping. -/
def Pod.isCrashLooping (p : Pod) (threshold : Number) : Bool :=
  p.containers.any (·.isCrashLooping threshold)

/-- Some container of the pod waits. -/
def Pod.isWaiting (p : Pod) : Bool :=
  p.containers.any ContainerStatus.isWaiting

/-- The pods are crash looping in the given mode. -/
def areCrashLooping (pods : List Pod) (threshold : Value) (mode : Mode) :
    Except Value.Fault Bool :=
  match threshold.number? with
  | some t => .ok (mode.judge (pods.countP (·.isCrashLooping t)) pods.length)
  | none =>
    if pods.any Pod.isWaiting then
      .error (.unordered "<" (Value.int 0).kindName threshold.kindName)
    else .ok (mode.judge 0 pods.length)

/-- The restarts of a container reach an integer exactly when they are at least that. -/
theorem ContainerStatus.isCrashLooping_whole (c : ContainerStatus) (n : Int) :
    c.isCrashLooping (.whole n) =
      match c.state.bind ContainerState.waiting with
      | none => false
      | some w => decide (n ≤ c.restarts.getD 0) && w.reason == some crashLoopReason := by
  unfold isCrashLooping
  split <;> simp [← decide_not]

/-! ### Readiness -/

/-- Why it cannot be told whether an age is past a threshold. -/
inductive ClockFault where
  /-- The clock has no zone, so that no age can be told. -/
  | noZone
  /-- The threshold is no number. -/
  | threshold (f : Value.Fault)
  deriving DecidableEq, Repr, Inhabited

/-- The text of a fault of the clock. -/
def ClockFault.message : ClockFault → String
  | noZone => "can't subtract offset-naive and offset-aware datetimes"
  | threshold f => f.message

/-- At least `threshold` seconds have passed since the transition; an unknown time is long past. -/
def isPast (since : Option Stamp) (threshold : Value) (now : Stamp) : Except ClockFault Bool :=
  match since with
  | none => .ok true
  | some t =>
    match now.elapsed? t with
    | none => .error .noZone
    | some micros =>
      ((Value.float (Stamp.seconds micros)).isAtLeast threshold).mapError .threshold

/-- The condition says that the containers are not ready. -/
def Condition.isNotReady (c : Condition) : Bool :=
  c.kind == some "ContainersReady" && c.status == some "False"

/-- Some condition of the list has said for at least `threshold` seconds that the containers are
not ready. -/
def anyNotReady (threshold : Value) (now : Stamp) : List Condition → Except ClockFault Bool
  | [] => .ok false
  | c :: rest => do
    if c.isNotReady then
      if ← isPast c.since threshold now then return true
    anyNotReady threshold now rest

/-- The pod has not been ready for at least `threshold` seconds. -/
def Pod.isNotReady (p : Pod) (threshold : Value) (now : Stamp) : Except ClockFault Bool :=
  match p.status with
  | none => .ok false
  | some s => anyNotReady threshold now (s.conditions.getD [])

/-- The number of pods that have not been ready for at least `threshold` seconds. -/
def countNotReady (threshold : Value) (now : Stamp) : List Pod → Except ClockFault Nat
  | [] => .ok 0
  | p :: rest => do
    let here ← p.isNotReady threshold now
    let n ← countNotReady threshold now rest
    return (if here then 1 else 0) + n

/-- The pods are not ready in the given mode. -/
def areNotReady (pods : List Pod) (threshold : Value) (mode : Mode) (now : Stamp) :
    Except ClockFault Bool := do
  let n ← countNotReady threshold now pods
  return mode.judge n pods.length

/-! ### Names -/

/-- The namespace and the name of a pod in one text. -/
def Pod.fullName (p : Pod) : String :=
  Key.text (p.space, p.name)

/-- Some name occurs more than once. -/
def hasDuplicates : List (Option String) → Bool
  | [] => false
  | name :: rest => rest.contains name || hasDuplicates rest

/-- A list has duplicates exactly when its items are not pairwise distinct. -/
theorem hasDuplicates_iff (names : List (Option String)) :
    hasDuplicates names = true ↔ ¬ names.Nodup := by
  induction names with
  | nil => simp [hasDuplicates]
  | cons name rest ih => simp [hasDuplicates, ih, Classical.or_iff_not_imp_left]

end BudgetReaper
