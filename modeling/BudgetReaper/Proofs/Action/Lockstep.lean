import BudgetReaper.Proofs.Action.Emission

/-!
# Actions — two runs in lockstep

Two outcomes *match* along a relation on states and a choice of the effects that are seen: they end
with the same result, in related states, and the effects seen are the same in the same order.
Two actions run in *lockstep* when related states lead to matching outcomes.

`Lockstep` is kept by everything an action is built with, a failure included: a step that fails in
one run fails in the other for the same reason, so neither goes on.  An action that reads the state
first (`Lockstep.state_bind`) goes on with two states, of which only the relation is known.
-/

namespace BudgetReaper

variable {σ τ α β : Type}

/-- Two outcomes end with the same result and in related states, and the same effects are seen. -/
structure Outcome.Match (R : σ → τ → Prop) (seen : Effect → Bool) (o : Outcome σ α)
    (o' : Outcome τ α) : Prop where
  result : o.result = o'.result
  state : R o.state o'.state
  trace : o.trace.filter seen = o'.trace.filter seen

namespace Outcome.Match

variable {R : σ → τ → Prop} {seen : Effect → Bool} {o : Outcome σ α} {o' : Outcome τ α}

/-- A view of the trace that reads only effects that are seen is the same. -/
theorem filterMap_eq (h : Match R seen o o') {view : Effect → Option β}
    (hv : ∀ e, (view e).isSome → seen e) :
    o.trace.filterMap view = o'.trace.filterMap view := by
  have through (t : List Effect) : (t.filter seen).filterMap view = t.filterMap view := by
    rw [List.filterMap_filter]
    refine congrArg (List.filterMap · t) (funext fun e => ?_)
    cases he : view e with
    | none => simp
    | some y => simp [hv e (by simp [he])]
  rw [← through, h.trace, through]

theorem calls_eq (h : Match R seen o o') (hv : ∀ c, seen (.call c)) : o.calls = o'.calls :=
  h.filterMap_eq fun e he => by cases e <;> first | exact hv _ | cases he

theorem samples_eq (h : Match R seen o o') (hv : ∀ s, seen (.sample s)) :
    o.samples = o'.samples :=
  h.filterMap_eq fun e he => by cases e <;> first | exact hv _ | cases he

/-- What goes on from matching outcomes to matching outcomes matches as a whole. -/
theorem bind {a : Action σ α} {b : Action τ α} {next : α → Action σ β} {next' : α → Action τ β}
    {s : σ} {t : τ} (h : Match R seen (a s) (b t))
    (h' : ∀ x, (a s).result = .ok x →
      Match R seen (next x (a s).state) (next' x (b t).state)) :
    Match R seen ((a >>= next) s) ((b >>= next') t) := by
  cases hr : (a s).result with
  | error f =>
      rw [Action.bind_of_error hr, Action.bind_of_error (h.result ▸ hr)]
      exact ⟨rfl, h.state, h.trace⟩
  | ok x =>
      have later := h' x hr
      rw [Action.bind_of_ok hr, Action.bind_of_ok (h.result ▸ hr)]
      refine ⟨later.result, later.state, ?_⟩
      rw [List.filter_append, List.filter_append, h.trace, later.trace]

end Outcome.Match

namespace Action

/-- Related states lead to matching outcomes. -/
def Lockstep (R : σ → τ → Prop) (seen : Effect → Bool) (a : Action σ α) (b : Action τ α) : Prop :=
  ∀ s t, R s t → Outcome.Match R seen (a s) (b t)

namespace Lockstep

variable {R : σ → τ → Prop} {seen : Effect → Bool}

theorem done (x : α) : Lockstep R seen (done x) (done x) :=
  fun _ _ h => ⟨rfl, h, rfl⟩

theorem pure (x : α) : Lockstep R seen (Pure.pure x) (Pure.pure x) :=
  done x

theorem fail (f : Failure) : Lockstep (α := α) R seen (fail f) (fail f) :=
  fun _ _ h => ⟨rfl, h, rfl⟩

theorem emit (e : Effect) : Lockstep R seen (emit e) (emit e) :=
  fun _ _ h => ⟨rfl, h, rfl⟩

theorem say (n : Notice) : Lockstep R seen (say n) (say n) :=
  emit (.notice n)

/-- Two notices that are not seen need not be the same. -/
theorem say_unseen {n n' : Notice} (h : seen (.notice n) = false)
    (h' : seen (.notice n') = false) : Lockstep R seen (Action.say n) (Action.say n') := by
  intro s t hR
  refine ⟨rfl, hR, ?_⟩
  change [Effect.notice n].filter seen = [Effect.notice n'].filter seen
  simp [h, h']

theorem update {change : σ → σ} {change' : τ → τ}
    (h : ∀ s t, R s t → R (change s) (change' t)) :
    Lockstep R seen (update change) (update change') :=
  fun s t hR => ⟨rfl, h s t hR, rfl⟩

theorem rephrase {a : Action σ α} {b : Action τ α} (h : Lockstep R seen a b)
    (words : Failure → Failure) : Lockstep R seen (rephrase a words) (rephrase b words) :=
  fun s t hR =>
    ⟨congrArg (Except.mapError words) (h s t hR).result, (h s t hR).state, (h s t hR).trace⟩

theorem ofExcept {ε : Type} (words : ε → Failure) (r : Except ε α) :
    Lockstep R seen (ofExcept words r) (ofExcept words r) := by
  cases r with
  | error f => exact fail (words f)
  | ok x => exact done x

theorem bind {a : Action σ α} {b : Action τ α} {next : α → Action σ β} {next' : α → Action τ β}
    (h : Lockstep R seen a b) (h' : ∀ x, Lockstep R seen (next x) (next' x)) :
    Lockstep R seen (a >>= next) (b >>= next') :=
  fun s t hR => (h s t hR).bind fun x _ => h' x _ _ (h s t hR).state

/-- Two actions that read the state first go on with two related states. -/
theorem state_bind {next : σ → Action σ β} {next' : τ → Action τ β}
    (h : ∀ s t, R s t → Lockstep R seen (next s) (next' t)) :
    Lockstep R seen (state >>= next) (state >>= next') := by
  intro s t hR
  rw [bind_of_ok (x := s) rfl, bind_of_ok (x := t) rfl]
  exact h s t hR s t hR

theorem ite {p : Prop} [Decidable p] {a a' : Action σ α} {b b' : Action τ α}
    (h : Lockstep R seen a b) (h' : Lockstep R seen a' b') :
    Lockstep R seen (if p then a else a') (if p then b else b') := by
  split
  · exact h
  · exact h'

theorem forEach {act : α → Action σ Unit} {act' : α → Action τ Unit} {xs : List α}
    (h : ∀ x ∈ xs, Lockstep R seen (act x) (act' x)) :
    Lockstep R seen (forEach act xs) (forEach act' xs) := by
  induction xs with
  | nil => exact done ()
  | cons x rest ih =>
      exact bind (h x (List.mem_cons_self ..)) fun _ =>
        ih fun y hy => h y (List.mem_cons_of_mem x hy)

theorem gather {act : α → Action σ (List β)} {act' : α → Action τ (List β)} {xs : List α}
    (h : ∀ x ∈ xs, Lockstep R seen (act x) (act' x)) :
    Lockstep R seen (gather act xs) (gather act' xs) := by
  induction xs with
  | nil => exact done []
  | cons x rest ih =>
      refine bind (h x (List.mem_cons_self ..)) fun _ => bind (ih fun y hy => ?_) fun _ => pure _
      exact h y (List.mem_cons_of_mem x hy)

end Lockstep

end Action

end BudgetReaper
