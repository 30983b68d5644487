import BudgetReaper.Cluster.Basic

/-!
# Cluster — plans by rules

A rule makes calls of one kind fail: every call, the call of one number, or the calls with a given
namespace, name, query text or reason.  `Rule.plan` takes the fault of the first rule that
matches.
-/

namespace BudgetReaper

/-- Which calls fail with a fault; an absent condition holds of every call. -/
structure Rule where
  kind : CallKind
  fault : Fault
  nth : Option Int
  space : Option String
  name : Option String
  selector : Option String
  reason : Option String
  deriving DecidableEq, Repr, Inhabited

namespace Rule

/-- An absent condition holds, a present one holds of the value it gives. -/
def meets {α : Type} [DecidableEq α] (condition value : Option α) : Bool :=
  condition.isNone || condition == value

/-- The rule makes the call fail that is the `n`-th of its kind. -/
def isFor (r : Rule) (c : Call) (n : Nat) : Bool :=
  r.kind == c.kind && meets r.nth (some (n : Int)) && meets r.space c.space? &&
    meets r.name c.name? && meets r.selector c.selector? && meets r.reason c.reason?

/-- The plan of a list of rules: the fault of the first that matches. -/
def plan (rules : List Rule) : Plan :=
  fun c n => (rules.find? fun r => r.isFor c n).map Rule.fault

/-- Rules that come first decide first. -/
theorem plan_append (first second : List Rule) (c : Call) (n : Nat) :
    plan (first ++ second) c n = (plan first c n).or (plan second c n) := by
  simp [plan, List.find?_append, Option.map_or]

end Rule

end BudgetReaper
