import BudgetReaper.Proofs.Action.Emission

/-!
# Actions — what an action can only yield

An action may fail for many reasons, and where it does not, a part of the state says what it gives.
`Yields view a v x w`: from a state of view `v`, the action `a` can return nothing but `x`, and
when it returns it leaves a state of view `w`.  Of an action that fails it says nothing, so that a
step which needs what is not there yields whatever one likes.

A loop each round of which makes a list of changes makes the concatenated changes
(`Yields.forEach`), and a loop that gathers yields the concatenated lists (`Yields.gather`).
-/

namespace BudgetReaper.Action

variable {σ α β κ : Type}

/-- A composite that returns has had both its parts return. -/
theorem ok_of_bind {a : Action σ α} {next : α → Action σ β} {s : σ} {y : β}
    (h : ((a >>= next) s).result = .ok y) :
    ∃ x, (a s).result = .ok x ∧ (next x (a s).state).result = .ok y := by
  cases hr : (a s).result with
  | error f =>
      rw [bind_of_error hr] at h
      cases h
  | ok x =>
      rw [bind_of_ok hr] at h
      exact ⟨x, rfl, h⟩

/-- From a state of view `v` only `x` can be returned, and then in a state of view `w`. -/
def Yields (view : σ → κ) (a : Action σ α) (v : κ) (x : α) (w : κ) : Prop :=
  ∀ s, view s = v → ∀ y, (a s).result = .ok y → y = x ∧ view (a s).state = w

namespace Yields

variable {view : σ → κ} {u v w : κ}

theorem done (x : α) : Yields view (done x) v x v := by
  rintro s rfl y h
  exact ⟨(Except.ok.inj h).symm, rfl⟩

theorem pure (x : α) : Yields view (Pure.pure x) v x v :=
  done x

theorem fail (f : Failure) (x : α) : Yields view (fail f) v x w := by
  rintro s - y h
  cases h

theorem emit (e : Effect) : Yields view (emit e) v () v := by
  rintro s rfl y -
  exact ⟨rfl, rfl⟩

theorem say (n : Notice) : Yields view (say n) v () v :=
  emit (.notice n)

theorem update {change : σ → σ} (h : ∀ s, view s = v → view (change s) = w) :
    Yields view (update change) v () w := by
  rintro s hs y -
  exact ⟨rfl, h s hs⟩

theorem rephrase {a : Action σ α} {x : α} (h : Yields view a v x w) (words : Failure → Failure) :
    Yields view (rephrase a words) v x w := by
  intro s hs y hy
  change ((a s).result.mapError words) = .ok y at hy
  cases hr : (a s).result with
  | error f => rw [hr] at hy; cases hy
  | ok z =>
      rw [hr] at hy
      obtain rfl : z = y := Except.ok.inj hy
      exact h s hs z hr

/-- A computation yields what it gives, if it gives anything. -/
theorem ofExcept {ε : Type} {words : ε → Failure} {r : Except ε α} {x : α}
    (h : ∀ y, r = .ok y → y = x) : Yields view (ofExcept words r) v x v := by
  cases r with
  | error f => exact fail (words f) x
  | ok y => rw [h y rfl]; exact done x

theorem bind {a : Action σ α} {next : α → Action σ β} {x : α} {y : β} (h : Yields view a u x v)
    (h' : Yields view (next x) v y w) : Yields view (a >>= next) u y w := by
  intro s hs z hz
  cases hr : (a s).result with
  | error f => rw [bind_of_error hr] at hz; cases hz
  | ok x' =>
      obtain ⟨rfl, hv⟩ := h s hs x' hr
      rw [bind_of_ok hr] at hz ⊢
      exact h' _ hv z hz

/-- What follows a computation need only be looked at where the computation gives something. -/
theorem ofExcept_bind {ε : Type} {words : ε → Failure} {r : Except ε α} {next : α → Action σ β}
    {y : β} (h : ∀ x, r = .ok x → Yields view (next x) v y w) :
    Yields view (Action.ofExcept words r >>= next) v y w := by
  cases r with
  | error f =>
      rw [ofExcept_error, fail_bind]
      exact fail _ _
  | ok x =>
      rw [ofExcept_ok, LawfulMonad.pure_bind]
      exact h x rfl

/-- An action that reads the state first may use its view. -/
theorem state_bind {next : σ → Action σ β} {y : β}
    (h : ∀ s, view s = v → Yields view (next s) v y w) :
    Yields view (state >>= next) v y w := by
  intro s hs z hz
  rw [bind_of_ok (x := s) rfl] at hz ⊢
  exact h s hs s hs z hz

theorem ite {p : Prop} [Decidable p] {a b : Action σ α} {x : α} (h : p → Yields view a v x w)
    (h' : ¬ p → Yields view b v x w) : Yields view (if p then a else b) v x w := by
  split
  · next hp => exact h hp
  · next hp => exact h' hp

/-- A loop each round of which makes some changes makes them all, one after the other. -/
theorem forEach {ι : Type} {g : ι → κ} {f : ι → β → ι} {c : α → List β}
    {act : α → Action σ Unit} {xs : List α}
    (h : ∀ x ∈ xs, ∀ i, Yields view (act x) (g i) () (g ((c x).foldl f i))) (i : ι) :
    Yields view (forEach act xs) (g i) () (g ((xs.flatMap c).foldl f i)) := by
  induction xs generalizing i with
  | nil => exact done ()
  | cons x rest ih =>
      rw [List.flatMap_cons, List.foldl_append]
      exact bind (h x (List.mem_cons_self ..) i) (ih (fun y hy => h y (List.mem_cons_of_mem x hy)) _)

theorem gather {act : α → Action σ (List β)} {give : α → List β} {xs : List α}
    (h : ∀ x ∈ xs, Yields view (act x) v (give x) v) :
    Yields view (gather act xs) v (xs.flatMap give) v := by
  induction xs with
  | nil => exact done []
  | cons x rest ih =>
      refine bind (h x (List.mem_cons_self ..)) (bind (ih fun y hy => ?_) (pure _))
      exact h y (List.mem_cons_of_mem x hy)

/-- An action that only changes what is not in view. -/
theorem of_keeps {a : Action σ Unit} (h : Keeps view a) : Yields view a v () v := by
  rintro s rfl y -
  exact ⟨rfl, h s⟩

end Yields

end BudgetReaper.Action
