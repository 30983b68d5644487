import BudgetReaper.Proofs.Action.Emission

/-!
# Actions — computations in turns

An action runs as a whole.  Where others work on the same state in between, a computation is cut into
*turns*: actions that nobody interrupts, each of which decides on the turns after it (`Turns`).  A
*thread* is such a computation under way; whoever schedules it gives it one turn after the other
(`Thread.next`).

**No interruption** (`Thread.leads_whole`).  A thread that nobody interrupts comes to the outcome of the
action that its turns make as a whole (`Turns.whole`).
-/

namespace BudgetReaper.Action

/-- A computation in turns. -/
inductive Turns (σ : Type) : Type 1
  | ended (result : Except Failure Unit)
  | turn {α : Type} (act : Action σ α) (next : α → Turns σ)

namespace Turns

variable {σ : Type}

/-- The turns, one right after the other. -/
def whole : Turns σ → Action σ Unit
  | ended result => ofExcept id result
  | turn act next => act >>= fun x => (next x).whole

/-- What is left after a turn that has ended with a result. -/
def after {α : Type} (next : α → Turns σ) : Except Failure α → Turns σ
  | .ok x => next x
  | .error f => ended (.error f)

/-- Every turn makes at most one call, from whatever state. -/
def Single : Turns σ → Prop
  | ended _ => True
  | turn act next => (∀ s, (act s).calls.length ≤ 1) ∧ ∀ x, (next x).Single

end Turns

/-- A computation under way: the turns left, the state, and what has been done. -/
structure Thread (σ : Type) : Type 1 where
  left : Turns σ
  state : σ
  trace : List Effect := []

namespace Thread

variable {σ : Type} {t : Thread σ}

/-- The thread after its next turn; one that has ended has none. -/
def next (t : Thread σ) : Thread σ :=
  match t.left with
  | .ended _ => t
  | .turn act rest =>
    let o := act t.state
    { left := .after rest o.result, state := o.state, trace := t.trace ++ o.trace }

theorem next_of_ended {result : Except Failure Unit} (h : t.left = .ended result) : t.next = t := by
  rw [next, h]

theorem next_of_turn {α : Type} {act : Action σ α} {rest : α → Turns σ}
    (h : t.left = .turn act rest) :
    t.next = ⟨.after rest (act t.state).result, (act t.state).state,
      t.trace ++ (act t.state).trace⟩ := by
  rw [next, h]

/-- A thread comes to another one by its own turns. -/
inductive Leads : Thread σ → Thread σ → Prop
  | here (t : Thread σ) : Leads t t
  | turn {t u : Thread σ} (later : Leads t.next u) : Leads t u

/-- A thread that nobody interrupts comes to the outcome of its turns as a whole. -/
theorem leads_whole (left : Turns σ) (s : σ) (trace : List Effect) :
    Leads ⟨left, s, trace⟩
      ⟨.ended (left.whole s).result, (left.whole s).state, trace ++ (left.whole s).trace⟩ := by
  induction left generalizing s trace with
  | ended result =>
      have done : (Turns.ended result).whole s = ⟨result, s, []⟩ := by
        cases result <;> rfl
      rw [done, List.append_nil]
      exact .here _
  | turn act rest ih =>
      refine .turn ?_
      change Leads ⟨.after rest (act s).result, (act s).state, trace ++ (act s).trace⟩ _
      rw [Turns.whole]
      cases hr : (act s).result with
      | error f =>
          rw [bind_of_error hr]
          exact .here _
      | ok x =>
          rw [bind_of_ok hr]
          dsimp only
          rw [← List.append_assoc]
          exact ih x (act s).state (trace ++ (act s).trace)

end Thread

end BudgetReaper.Action
