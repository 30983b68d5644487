import BudgetReaper.Proofs.Action.Closure

/-!
# Actions — laws of histories

A *law* relates a state, the effects that follow it and the state that they lead to.  An action
*obeys* a law when the law holds of every outcome of the action, a failed one included
(`Obeys`).  A law that holds of nothing done, and of one history after another
(`Law.Composes`), is obeyed by everything that is built of actions that obey it.

A law may look at the effects alone (`Law.emitting`) or at the state alone (`Law.keeping`), or tie
them together, such as to say that a record kept in the state is the record of the effects.
-/

namespace BudgetReaper

/-- What is asked of a state, the effects from then on and the state in the end. -/
abbrev Law (σ : Type) : Type :=
  σ → List Effect → σ → Prop

/-- The law holds where nothing is done, and of one history after another. -/
class Law.Composes {σ : Type} (P : Law σ) : Prop where
  rest : ∀ s, P s [] s
  append : ∀ {s t u l l'}, P s l t → P t l' u → P s (l ++ l') u

/-- Every effect is allowed. -/
def Law.emitting {σ : Type} (allowed : Effect → Prop) : Law σ :=
  fun _ l _ => ∀ e ∈ l, allowed e

instance {σ : Type} (allowed : Effect → Prop) : (Law.emitting (σ := σ) allowed).Composes where
  rest _ _ h := nomatch h
  append h h' e he := (List.mem_append.mp he).elim (h e) (h' e)

/-- A view of the state is in the end what it was. -/
def Law.keeping {σ κ : Type} (view : σ → κ) : Law σ :=
  fun s _ t => view t = view s

instance {σ κ : Type} (view : σ → κ) : (Law.keeping view).Composes where
  rest _ := rfl
  append h h' := h'.trans h

namespace Action

variable {σ α β : Type} {P : Law σ}

/-- The law holds of every outcome of the action, from whatever state and however it ends. -/
def Obeys (P : Law σ) (a : Action σ α) : Prop :=
  ∀ s, P s (a s).trace (a s).state

namespace Obeys

variable [P.Composes]

theorem done (x : α) : Obeys P (done x) :=
  fun s => Law.Composes.rest s

theorem fail (f : Failure) : Obeys P (fail f : Action σ α) :=
  fun s => Law.Composes.rest s

theorem state : Obeys P state :=
  fun s => Law.Composes.rest s

omit [P.Composes] in
theorem rephrase {a : Action σ α} (h : Obeys P a) (words : Failure → Failure) :
    Obeys P (rephrase a words) :=
  h

theorem bind {a : Action σ α} {next : α → Action σ β} (h : Obeys P a)
    (h' : ∀ x, Obeys P (next x)) : Obeys P (a >>= next) := by
  intro s
  cases hr : (a s).result with
  | error f => rw [bind_of_error hr]; exact h s
  | ok x => rw [bind_of_ok hr]; exact Law.Composes.append (h s) (h' x _)

/-- The actions that obey a law are a closed class. -/
theorem closed : Closed fun α => Obeys (α := α) P where
  done := done
  fail _ := fail _
  state := state
  bind := bind

omit [P.Composes] in
theorem ite {p : Prop} [Decidable p] {a b : Action σ α} (h : Obeys P a) (h' : Obeys P b) :
    Obeys P (if p then a else b) :=
  Closed.ite (C := fun α => Obeys (α := α) P) h h'

theorem forEach {act : α → Action σ Unit} {xs : List α} (h : ∀ x ∈ xs, Obeys P (act x)) :
    Obeys P (forEach act xs) :=
  closed.forEach h

end Obeys

end Action

end BudgetReaper
