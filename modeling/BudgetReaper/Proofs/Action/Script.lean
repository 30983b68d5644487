import BudgetReaper.Proofs.Action.Yield

/-!
# Actions — scripts

The acts of an action may be laid down before it starts.  `Follows view frame a v script`: from a
state of view `v`, the acts of `a` are the first ones of the script, and all of it if `a` returns.
A failure may cut the script short anywhere; it never adds to it and never leaves anything out in
between.

The frame is a condition on the state that the script depends on and that the action keeps.  What a
later step acts on is what the steps before can only yield (`Yields`), so a script of the whole is
put together from the scripts of the steps (`Follows.bind`, `Follows.forEach`).
-/

namespace BudgetReaper.Action

variable {σ α β κ : Type}

/-- An outcome has followed a script as far as it got. -/
structure Scripted (frame : σ → Prop) (script : List Effect) (o : Outcome σ α) : Prop where
  kept : frame o.state
  acts : o.trace.filter Effect.isAct <+: script
  whole : ∀ x, o.result = .ok x → o.trace.filter Effect.isAct = script

/-- From a state of view `v` in the frame, the action follows the script. -/
def Follows (view : σ → κ) (frame : σ → Prop) (a : Action σ α) (v : κ)
    (script : List Effect) : Prop :=
  ∀ s, view s = v → frame s → Scripted frame script (a s)

namespace Follows

variable {view : σ → κ} {frame : σ → Prop} {v w : κ} {script script' : List Effect}

/-- An action whose acts are the script, however it ends. -/
theorem of_acts {a : Action σ α}
    (h : ∀ s, view s = v → frame s →
      frame (a s).state ∧ (a s).trace.filter Effect.isAct = script) :
    Follows view frame a v script := by
  intro s hs hf
  obtain ⟨kept, acts⟩ := h s hs hf
  exact ⟨kept, acts ▸ List.prefix_rfl, fun _ _ => acts⟩

theorem done (x : α) : Follows view frame (done x) v [] :=
  of_acts fun _ _ hf => ⟨hf, rfl⟩

theorem pure (x : α) : Follows view frame (Pure.pure x) v [] :=
  done x

theorem say (n : Notice) : Follows view frame (say n) v [] :=
  of_acts fun _ _ hf => ⟨hf, rfl⟩

theorem update {change : σ → σ} (h : ∀ s, frame s → frame (change s)) :
    Follows view frame (update change) v [] :=
  of_acts fun s _ hf => ⟨h s hf, rfl⟩

/-- A failure follows any script. -/
theorem fail (f : Failure) (script : List Effect) :
    Follows (α := α) view frame (fail f) v script :=
  fun _ _ hf => ⟨hf, List.nil_prefix, fun _ h => nomatch h⟩

theorem rephrase {a : Action σ α} (h : Follows view frame a v script)
    (words : Failure → Failure) : Follows view frame (rephrase a words) v script := by
  intro s hs hf
  obtain ⟨kept, acts, whole⟩ := h s hs hf
  refine ⟨kept, acts, fun x hx => ?_⟩
  cases hr : (a s).result with
  | error f =>
      rw [rephrase_apply, hr] at hx
      cases hx
  | ok y => exact whole y hr

theorem bind {a : Action σ α} {next : α → Action σ β} {x : α} (h : Follows view frame a v script)
    (yields : Yields view a v x w) (h' : Follows view frame (next x) w script') :
    Follows view frame (a >>= next) v (script ++ script') := by
  intro s hs hf
  obtain ⟨kept, acts, whole⟩ := h s hs hf
  cases hr : (a s).result with
  | error f =>
      rw [bind_of_error hr]
      exact ⟨kept, acts.trans (List.prefix_append ..), fun _ hx => nomatch hx⟩
  | ok y =>
      obtain ⟨rfl, hv⟩ := yields s hs y hr
      obtain ⟨kept', acts', whole'⟩ := h' _ hv kept
      rw [bind_of_ok hr]
      refine ⟨kept', ?_, fun z hz => ?_⟩
      · rw [List.filter_append, whole y hr]
        exact (List.prefix_append_right_inj script).mpr acts'
      · rw [List.filter_append, whole y hr, whole' z hz]

/-- A step without acts adds nothing to the script. -/
theorem quiet_bind {a : Action σ α} {next : α → Action σ β} {x : α}
    (h : Follows view frame a v []) (yields : Yields view a v x w)
    (h' : Follows view frame (next x) w script) : Follows view frame (a >>= next) v script :=
  bind h yields h'

theorem say_bind {n : Notice} {next : Unit → Action σ β}
    (h : Follows view frame (next ()) v script) :
    Follows view frame (Action.say n >>= next) v script :=
  quiet_bind (say n) (.say n) h

/-- What follows a computation need only be looked at where the computation gives something. -/
theorem ofExcept_bind {ε : Type} {words : ε → Failure} {r : Except ε α} {next : α → Action σ β}
    (h : ∀ x, r = .ok x → Follows view frame (next x) v script) :
    Follows view frame (Action.ofExcept words r >>= next) v script := by
  cases r with
  | error f =>
      rw [ofExcept_error, fail_bind]
      exact fail _ _
  | ok x =>
      rw [ofExcept_ok, LawfulMonad.pure_bind]
      exact h x rfl

theorem ofExcept {ε : Type} (words : ε → Failure) (r : Except ε α) :
    Follows view frame (Action.ofExcept words r) v [] := by
  cases r with
  | error f => exact fail _ _
  | ok x => exact done x

/-- An action that reads the state first may use its view. -/
theorem state_bind {next : σ → Action σ β}
    (h : ∀ s, view s = v → Follows view frame (next s) v script) :
    Follows view frame (state >>= next) v script := by
  intro s hs hf
  rw [bind_of_ok (x := s) rfl]
  exact h s hs s hs hf

theorem ite {p : Prop} [Decidable p] {a b : Action σ α} (h : p → Follows view frame a v script)
    (h' : ¬ p → Follows view frame b v script) :
    Follows view frame (if p then a else b) v script := by
  split
  · next hp => exact h hp
  · next hp => exact h' hp

/-- A loop follows the scripts of its rounds, one after the other. -/
theorem forEach {ι : Type} {g : ι → κ} {f : ι → β → ι} {c : α → List β}
    {act : α → Action σ Unit} {part : α → List Effect} {xs : List α}
    (yields : ∀ x ∈ xs, ∀ i, Yields view (act x) (g i) () (g ((c x).foldl f i)))
    (h : ∀ x ∈ xs, ∀ i, Follows view frame (act x) (g i) (part x)) (i : ι) :
    Follows view frame (forEach act xs) (g i) (xs.flatMap part) := by
  induction xs generalizing i with
  | nil => exact done ()
  | cons x rest ih =>
      rw [List.flatMap_cons]
      refine bind (h x (List.mem_cons_self ..) i) (yields x (List.mem_cons_self ..) i) (ih ?_ ?_ _)
      · exact fun y hy => yields y (List.mem_cons_of_mem x hy)
      · exact fun y hy => h y (List.mem_cons_of_mem x hy)

/-- A loop whose rounds leave what is in view as it was. -/
theorem forEach_still {act : α → Action σ Unit} {part : α → List Effect} {xs : List α}
    (yields : ∀ x ∈ xs, Yields view (act x) v () v)
    (h : ∀ x ∈ xs, Follows view frame (act x) v (part x)) :
    Follows view frame (Action.forEach act xs) v (xs.flatMap part) :=
  forEach (g := fun _ : Unit => v) (f := fun i (_ : Unit) => i) (c := fun _ => [])
    (fun x hx _ => yields x hx) (fun x hx _ => h x hx) ()

theorem gather {act : α → Action σ (List β)} {give : α → List β} {part : α → List Effect}
    {xs : List α} (yields : ∀ x ∈ xs, Yields view (act x) v (give x) v)
    (h : ∀ x ∈ xs, Follows view frame (act x) v (part x)) :
    Follows view frame (gather act xs) v (xs.flatMap part) := by
  induction xs with
  | nil => exact done []
  | cons x rest ih =>
      have none_left : rest.flatMap part = rest.flatMap part ++ [] := (List.append_nil _).symm
      rw [List.flatMap_cons, none_left]
      refine bind (h x (List.mem_cons_self ..)) (yields x (List.mem_cons_self ..)) ?_
      refine bind (ih ?_ ?_) (.gather fun y hy => yields y (List.mem_cons_of_mem x hy)) (pure _)
      · exact fun y hy => yields y (List.mem_cons_of_mem x hy)
      · exact fun y hy => h y (List.mem_cons_of_mem x hy)

end Follows

end BudgetReaper.Action
