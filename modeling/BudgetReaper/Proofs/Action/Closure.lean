import BudgetReaper.Action

/-!
# Actions — closed classes

A class of actions is *closed* when it holds what only gives or reads something, what fails on its own,
without a call, and one of its actions after another (`Closed`).  It then holds every choice, every
loop and every gathering of its actions.

A class may look at what its actions leave behind, such as the actions that obey a law, and it may
look at whether they return, and at the call that a failure has begun with.
-/

namespace BudgetReaper

/-- The call that a failure has begun with, as the operation and the fault that it names. -/
def Failure.failed? : Failure → Option (Operation × Fault)
  | call operation f => some (operation, f)
  | aborted _ cause => cause.failed?
  | _ => none

namespace Action

variable {σ α β : Type}

/-- Whatever is built of actions of the class is in the class. -/
structure Closed (C : ∀ α : Type, Action σ α → Prop) : Prop where
  done : ∀ {α : Type} (x : α), C α (done x)
  fail : ∀ {α : Type} {f : Failure}, f.failed? = none → C α (fail f)
  state : C σ state
  bind : ∀ {α β : Type} {a : Action σ α} {next : α → Action σ β}, C α a →
    (∀ x, C β (next x)) → C β (a >>= next)

namespace Closed

variable {C : ∀ α : Type, Action σ α → Prop}

theorem pure (h : Closed C) (x : α) : C α (Pure.pure x) :=
  h.done x

theorem ofExcept (h : Closed C) {ε : Type} {words : ε → Failure}
    (own : ∀ e, (words e).failed? = none) (r : Except ε α) : C α (ofExcept words r) := by
  cases r with
  | error e => exact h.fail (own e)
  | ok x => exact h.done x

theorem ite {p : Prop} [Decidable p] {a b : Action σ α} (ha : C α a) (hb : C α b) :
    C α (if p then a else b) := by
  split
  · exact ha
  · exact hb

theorem forEach (h : Closed C) {act : α → Action σ Unit} {xs : List α}
    (round : ∀ x ∈ xs, C Unit (act x)) : C Unit (forEach act xs) := by
  induction xs with
  | nil => exact h.done ()
  | cons x rest ih =>
      exact h.bind (round x (List.mem_cons_self ..)) fun _ =>
        ih fun y hy => round y (List.mem_cons_of_mem x hy)

theorem gather (h : Closed C) {act : α → Action σ (List β)} {xs : List α}
    (round : ∀ x ∈ xs, C (List β) (act x)) : C (List β) (gather act xs) := by
  induction xs with
  | nil => exact h.done []
  | cons x rest ih =>
      refine h.bind (round x (List.mem_cons_self ..)) fun _ => h.bind (ih fun y hy => ?_) fun _ =>
        h.pure _
      exact round y (List.mem_cons_of_mem x hy)

end Closed

end Action

end BudgetReaper
