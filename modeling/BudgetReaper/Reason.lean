import BudgetReaper.Value.Basic

/-!
# Reasons — why a budget is reported

Each reason has one text: it is the reason of a published event and the `reason` tag of a sample.
`ofText?` is its inverse (`ofText?_text`, `text_injective`).
-/

namespace BudgetReaper

/-- Why a budget is reported. -/
inductive Reason where
  | deleted
  | blocking
  | multiple
  | crashLoop
  | notReady
  deriving DecidableEq, Repr, Inhabited

namespace Reason

/-- The text of a reason. -/
def text : Reason → String
  | deleted => "PodDisruptionBudgetDeleted"
  | blocking => "BlockingPodDisruptionBudget"
  | multiple => "MultiplePodDisruptionBudgets"
  | crashLoop => "BlockingPodDisruptionBudgetWithCrashLoop"
  | notReady => "BlockingPodDisruptionBudgetWithNotReadyState"

/-- Every reason. -/
def all : List Reason :=
  [deleted, blocking, multiple, crashLoop, notReady]

/-- The reason of a text. -/
def ofText? (s : String) : Option Reason :=
  all.find? fun r => r.text == s

/-- The reason that a value names; only a text names one. -/
def ofValue? : Value → Option Reason
  | .str s => ofText? s
  | _ => none

/-- What has happened to a budget, the end of its event's message. -/
def consequence : Reason → String
  | deleted => "deleted by pdb-reaper due to violation"
  | blocking => "marked for deletion due to misconfiguration/not allowing disruptions"
  | multiple => "marked for deletion due to multiple budgets targeting same pods"
  | crashLoop => "marked for deletion due to pods in CrashLoopBackOff blocking disruptions"
  | notReady => "marked for deletion due to pods in not-ready blocking disruptions"

/-- The message of an event about the budget `name`. -/
def message (r : Reason) (name : String) : String :=
  "The PodDisruptionBudget " ++ name ++ " has been " ++ r.consequence

@[simp] theorem ofText?_text (r : Reason) : ofText? r.text = some r := by
  cases r <;> decide

theorem text_injective {r s : Reason} (h : r.text = s.text) : r = s := by
  have := congrArg ofText? h
  simpa using this

end Reason

end BudgetReaper
