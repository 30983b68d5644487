import BudgetReaper.Action

/-!
# Sessions — what a run works on

A session holds the settings, the cluster, the sink for samples, the answers that the gateway will
give, the clock, and the ledger of what the run has found and done.  A pass is an action on a
session.
-/

namespace BudgetReaper

/-- What a run has found and done: the namespaces with several budgets and the blocking budgets,
in groups by namespace; the budgets marked for deletion, each once; the names of those deleted. -/
structure Ledger where
  multiple : List (Option String × List Budget) := []
  blocking : List (Option String × List Budget) := []
  reapable : List (Key × Budget) := []
  reaped : List String := []
  deriving Repr, Inhabited

/-- Where samples go: nowhere, into a registry that a gateway may be told of, or to one that
refuses the samples of a plan by their number. -/
inductive Sink where
  | absent
  | registry (r : Registry) (address : Option String) (job : String)
  | scripted (refuses : Sample → Nat → Option Fault) (seen : Nat)

/-- What a run works on. -/
structure Session where
  settings : Settings
  cluster : Cluster
  sink : Sink
  answers : List Gateway.Answer
  now : Stamp
  runId : String
  ledger : Ledger

/-- A step of a run. -/
abbrev Pass (α : Type) := Action Session α

namespace Sink

/-- The job under which samples are delivered when no other is named. -/
def defaultJob : String := "pdb_reaper"

/-- An empty registry, with the gateway at an address that may end in slashes. -/
def fresh (url job : Value) : Except Value.Fault Sink :=
  (Gateway.addressOf url).map fun address => registry {} address job.plain

/-- A sink that refuses every sample with one of the reasons, or every sample. -/
def refusing (fault : Fault) (reasons : Option (List String)) : Sink :=
  scripted (fun s _ =>
    match reasons with
    | none => some fault
    | some rs => if rs.contains s.reason.text then some fault else none) 0

/-- The exposition text of a registry; none of another sink. -/
def exposition? : Sink → Option String
  | registry r _ _ => some (Exposition.text r)
  | _ => none

end Sink

namespace Sample

/-- The tags of a sample. -/
def tags (s : Sample) : List (String × Value) :=
  [("namespace", .ofText? s.key.1), ("pdb", .ofText? s.key.2), ("reason", .str s.reason.text)]

end Sample

namespace Sink

/-- The registry after a value has been recorded, and the failure to record it. -/
def set (r : Registry) (name : Value) (tags : List (String × Value)) (v : Value) :
    Registry × Option Failure :=
  let (r, fault) := match Registry.nameOf name with
    | .ok s => r.set s tags v
    | .error f => (r, some f)
  (r, fault.map (.sample name.plain tags))

/-- The sink after a sample, and the failure to record it. -/
def record (sink : Sink) (s : Sample) : Sink × Option Failure :=
  match sink with
  | absent => (absent, none)
  | registry r address job =>
    let (r, failure) := set r (.str Exposition.resultName) s.tags s.value
    (registry r address job, failure)
  | scripted refuses seen =>
    (scripted refuses (seen + 1), (refuses s (seen + 1)).map .fault)

/-- Whether samples go anywhere. -/
def isPresent : Sink → Bool
  | absent => false
  | _ => true

end Sink

namespace Ledger

/-- The ledger with a budget marked under its key, if the key is not marked yet. -/
def mark (l : Ledger) (key : Key) (b : Budget) : Ledger :=
  { l with reapable := Assoc.putNew l.reapable key b }

/-- The ledger with a blocking budget of a namespace. -/
def block (l : Ledger) (space : Option String) (b : Budget) : Ledger :=
  { l with blocking := Assoc.push l.blocking space b }

/-- The ledger with the groups of namespaces that have several budgets. -/
def group (l : Ledger) (groups : List (Option String × List Budget)) : Ledger :=
  { l with multiple := groups.foldl (fun m g => Assoc.put m g.1 g.2) l.multiple }

/-- The ledger with a deleted budget. -/
def reap (l : Ledger) (name : String) : Ledger :=
  { l with reaped := l.reaped ++ [name] }

/-- Marking keeps the keys distinct. -/
theorem nodup_mark {l : Ledger} (h : (Assoc.keys l.reapable).Nodup) (key : Key) (b : Budget) :
    (Assoc.keys (l.mark key b).reapable).Nodup :=
  Assoc.nodup_putNew h key b

end Ledger

/-- The event of a reason about a budget, of whose metadata the name is read first. -/
def eventOf (b : Budget) (reason : Reason) (now : Stamp) : Except Failure Event :=
  match b.metadata with
  | some m => .ok (.about b m reason now)
  | none => .error (.missing "name")

namespace Pass

open BudgetReaper.Action

/-- The settings of the run. -/
def settings : Pass Settings := do
  let s ← state
  return s.settings

/-- A change of the ledger. -/
def post (change : Ledger → Ledger) : Pass Unit :=
  update fun s => { s with ledger := change s.ledger }

/-- The metadata of a budget, of which the namespace is read first. -/
def metadataOf (b : Budget) : Pass Metadata :=
  match b.metadata with
  | some m => done m
  | none => fail (.missing "namespace")

end Pass

end BudgetReaper
