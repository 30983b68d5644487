import BudgetReaper.Proofs.Action.Emission

/-!
# Actions — what an action that returns has shown

A view of effects shows a part of a trace.  `Shows view a part`: whenever `a` returns, from whatever
state, the view shows `part` of its trace.  Unlike a script, a part may hold notices, and nothing is
said of an action that fails.

What two actions show they show one after the other (`Shows.bind`), and a loop shows what its rounds
show (`Shows.forEach`).
-/

namespace BudgetReaper.Action

variable {σ α β κ : Type}

/-- Whenever the action returns, the view shows `part` of its trace. -/
def Shows (view : Effect → Option κ) (a : Action σ α) (part : List κ) : Prop :=
  ∀ s x, (a s).result = .ok x → (a s).trace.filterMap view = part

namespace Shows

variable {view : Effect → Option κ} {part part' : List κ}

/-- An action that emits nothing in view shows nothing. -/
theorem of_unseen {a : Action σ α} (h : Emits (fun e => view e = none) a) : Shows view a [] :=
  fun s _ _ => List.filterMap_eq_nil_iff.mpr (h s)

theorem done (x : α) : Shows view (done x : Action σ α) [] :=
  fun _ _ _ => rfl

theorem emit (e : Effect) : Shows view (emit e : Action σ Unit) (view e).toList := by
  intro s x _
  change [e].filterMap view = _
  cases he : view e <;> simp [he]

theorem bind {a : Action σ α} {next : α → Action σ β} (h : Shows view a part)
    (h' : ∀ x, Shows view (next x) part') : Shows view (a >>= next) (part ++ part') := by
  intro s y hy
  cases hr : (a s).result with
  | error f =>
      rw [bind_of_error hr] at hy
      cases hy
  | ok x =>
      rw [bind_of_ok hr] at hy ⊢
      rw [List.filterMap_append, h s x hr, h' x _ y hy]

/-- What follows a first action that shows nothing. -/
theorem quiet_bind {a : Action σ α} {next : α → Action σ β}
    (h : Emits (fun e => view e = none) a) (h' : ∀ x, Shows view (next x) part) :
    Shows view (a >>= next) part :=
  bind (of_unseen h) h'

theorem ite {p : Prop} [Decidable p] {a b : Action σ α} (h : p → Shows view a part)
    (h' : ¬ p → Shows view b part) : Shows view (if p then a else b) part := by
  split
  · next hp => exact h hp
  · next hp => exact h' hp

/-- A loop shows what its rounds show. -/
theorem forEach {act : α → Action σ Unit} {shown : α → List κ} {xs : List α}
    (h : ∀ x ∈ xs, Shows view (act x) (shown x)) :
    Shows view (forEach act xs) (xs.flatMap shown) := by
  induction xs with
  | nil => exact done ()
  | cons x rest ih =>
      exact bind (h x List.mem_cons_self) fun _ =>
        ih fun y hy => h y (List.mem_cons_of_mem x hy)

end Shows

end BudgetReaper.Action
