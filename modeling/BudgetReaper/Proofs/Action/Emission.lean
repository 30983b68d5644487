import BudgetReaper.Proofs.Action.History

/-!
# Actions — what an action emits and what it keeps

The trace of an outcome is read through three views: its calls, its samples and its deletions.

* `Emits allowed a`: every effect of `a`, from whatever state and however `a` ends, is allowed.
* `Keeps view a`: `a` leaves the view of the state as it was, however it ends.
* `Fails allowed a`: every failure of `a` is allowed.

All hold of an action as soon as they hold of its steps, a step that fails included: nothing
emitted before a failure is taken back.  The first two are laws of histories, and their rules those
of every such law.
-/

namespace BudgetReaper

namespace Effect

/-- The call that an effect is. -/
def call? : Effect → Option Call
  | call c => some c
  | _ => none

/-- The sample that an effect is. -/
def sample? : Effect → Option Sample
  | sample s => some s
  | _ => none

/-- The key that an effect asks to delete. -/
def deleted? : Effect → Option Key
  | call (.delete key) => some key
  | _ => none

/-- An effect is an act, and not only told of. -/
def isAct : Effect → Bool
  | notice _ => false
  | _ => true

theorem call?_eq_some_iff {e : Effect} {c : Call} : e.call? = some c ↔ e = .call c := by
  cases e <;> simp [call?]

theorem sample?_eq_some_iff {e : Effect} {s : Sample} : e.sample? = some s ↔ e = .sample s := by
  cases e <;> simp [sample?]

theorem deleted?_eq_some_iff {e : Effect} {key : Key} :
    e.deleted? = some key ↔ e = .call (.delete key) := by
  cases e with
  | call c => cases c <;> simp [deleted?]
  | _ => simp [deleted?]

/-- A view that notices do not show in is a view of the acts. -/
theorem filterMap_acts {β : Type} (view : Effect → Option β)
    (hidden : ∀ n, view (.notice n) = none) (t : List Effect) :
    (t.filter isAct).filterMap view = t.filterMap view := by
  rw [List.filterMap_filter]
  refine congrArg (List.filterMap · t) (funext fun e => ?_)
  cases e with
  | notice n => simp [isAct, hidden]
  | _ => rfl

/-- A view that notices do not show in shows nothing of a trace of notices. -/
theorem filterMap_notices {β : Type} {view : Effect → Option β}
    (hidden : ∀ n, view (.notice n) = none) {t : List Effect} (told : ∀ e ∈ t, ∃ n, e = .notice n) :
    t.filterMap view = [] := by
  refine List.filterMap_eq_nil_iff.mpr fun e he => ?_
  obtain ⟨n, rfl⟩ := told e he
  exact hidden n

/-- A trace of notices holds no act. -/
theorem filter_acts_notices {t : List Effect} (told : ∀ e ∈ t, ∃ n, e = .notice n) :
    t.filter isAct = [] := by
  refine List.filter_eq_nil_iff.mpr fun e he => ?_
  obtain ⟨n, rfl⟩ := told e he
  exact Bool.false_ne_true

end Effect

namespace Outcome

variable {σ α : Type}

/-- The calls of an outcome, in order. -/
def calls (o : Outcome σ α) : List Call :=
  o.trace.filterMap Effect.call?

/-- The samples of an outcome, in order. -/
def samples (o : Outcome σ α) : List Sample :=
  o.trace.filterMap Effect.sample?

/-- The keys that an outcome asked to delete, in order. -/
def deletions (o : Outcome σ α) : List Key :=
  o.trace.filterMap Effect.deleted?

theorem mem_calls {o : Outcome σ α} {c : Call} : c ∈ o.calls ↔ .call c ∈ o.trace := by
  simp [calls, List.mem_filterMap, Effect.call?_eq_some_iff]

theorem mem_samples {o : Outcome σ α} {s : Sample} : s ∈ o.samples ↔ .sample s ∈ o.trace := by
  simp [samples, List.mem_filterMap, Effect.sample?_eq_some_iff]

theorem mem_deletions {o : Outcome σ α} {key : Key} :
    key ∈ o.deletions ↔ .call (.delete key) ∈ o.trace := by
  simp [deletions, List.mem_filterMap, Effect.deleted?_eq_some_iff]

/-- The keys asked to be deleted are those of the calls that delete. -/
theorem deletions_eq_calls (o : Outcome σ α) :
    o.deletions = o.calls.filterMap fun call => (Effect.call call).deleted? := by
  rw [calls, deletions, List.filterMap_filterMap]
  refine congrArg (List.filterMap · o.trace) (funext fun e => ?_)
  cases e <;> rfl

/-- No key is asked to be deleted exactly when no call of the trace deletes. -/
theorem deletions_eq_nil_iff {o : Outcome σ α} :
    o.deletions = [] ↔ ∀ key, .call (.delete key) ∉ o.trace := by
  simp only [List.eq_nil_iff_forall_not_mem, mem_deletions]

end Outcome

namespace Action

variable {σ α β κ : Type}

/-! ### What is emitted -/

/-- Every effect of the action is allowed, from whatever state and however it ends. -/
def Emits (allowed : Effect → Prop) (a : Action σ α) : Prop :=
  ∀ s, ∀ e ∈ (a s).trace, allowed e

namespace Emits

variable {allowed : Effect → Prop}

theorem pure (x : α) : Emits allowed (Pure.pure x : Action σ α) :=
  fun _ _ h => nomatch h

theorem state : Emits allowed (state : Action σ σ) :=
  fun _ _ h => nomatch h

theorem update (change : σ → σ) : Emits allowed (update change) :=
  fun _ _ h => nomatch h

theorem emit {e : Effect} (h : allowed e) : Emits allowed (emit e : Action σ Unit) :=
  fun _ _ he => List.mem_singleton.mp he ▸ h

theorem say {n : Notice} (h : allowed (.notice n)) : Emits allowed (say n : Action σ Unit) :=
  emit h

theorem rephrase {a : Action σ α} (h : Emits allowed a) (words : Failure → Failure) :
    Emits allowed (rephrase a words) :=
  h

theorem bind {a : Action σ α} {next : α → Action σ β} (h : Emits allowed a)
    (h' : ∀ x, Emits allowed (next x)) : Emits allowed (a >>= next) :=
  Obeys.bind (P := Law.emitting allowed) h h'

theorem ite {p : Prop} [Decidable p] {a b : Action σ α} (h : Emits allowed a)
    (h' : Emits allowed b) : Emits allowed (if p then a else b) :=
  Obeys.ite (P := Law.emitting allowed) h h'

theorem forEach {act : α → Action σ Unit} {xs : List α} (h : ∀ x ∈ xs, Emits allowed (act x)) :
    Emits allowed (forEach act xs) :=
  Obeys.forEach (P := Law.emitting allowed) h

/-- What follows the trace of a first action is allowed if the second emits nothing else. -/
theorem trace_bind {a : Action σ α} {next : α → Action σ β} (h : ∀ x, Emits allowed (next x))
    (s : σ) : ∃ later, ((a >>= next) s).trace = (a s).trace ++ later ∧ ∀ e ∈ later, allowed e := by
  cases hr : (a s).result with
  | error f =>
      exact ⟨[], by rw [bind_of_error hr, List.append_nil], fun _ he => absurd he List.not_mem_nil⟩
  | ok x => exact ⟨_, by rw [bind_of_ok hr], h x _⟩

/-- A view shows what the first action emits, if it shows nothing of the second. -/
theorem filterMap_bind {a : Action σ α} {next : α → Action σ β} {view : Effect → Option κ}
    (h : ∀ x, Emits (fun e => view e = none) (next x)) (s : σ) :
    ((a >>= next) s).trace.filterMap view = (a s).trace.filterMap view := by
  obtain ⟨later, ht, unseen⟩ := trace_bind h s
  rw [ht, List.filterMap_append, List.filterMap_eq_nil_iff.mpr unseen, List.append_nil]

end Emits

/-! ### What is kept -/

/-- The action leaves the view of the state as it was, however it ends. -/
def Keeps (view : σ → κ) (a : Action σ α) : Prop :=
  ∀ s, view (a s).state = view s

namespace Keeps

variable {view : σ → κ}

theorem bind {a : Action σ α} {next : α → Action σ β} (h : Keeps view a)
    (h' : ∀ x, Keeps view (next x)) : Keeps view (a >>= next) :=
  Obeys.bind (P := Law.keeping view) h h'

theorem ite {p : Prop} [Decidable p] {a b : Action σ α} (h : Keeps view a)
    (h' : Keeps view b) : Keeps view (if p then a else b) :=
  Obeys.ite (P := Law.keeping view) h h'

theorem forEach {act : α → Action σ Unit} (h : ∀ x, Keeps view (act x)) (xs : List α) :
    Keeps view (forEach act xs) :=
  Obeys.forEach (P := Law.keeping view) fun x _ => h x

end Keeps

/-! ### How an action fails -/

/-- Every failure of the action is allowed. -/
def Fails (allowed : Failure → Prop) (a : Action σ α) : Prop :=
  ∀ s f, (a s).result = .error f → allowed f

namespace Fails

variable {allowed : Failure → Prop}

theorem state : Fails allowed (state : Action σ σ) :=
  fun _ _ h => nomatch h

theorem say (n : Notice) : Fails allowed (say n : Action σ Unit) :=
  fun _ _ h => nomatch h

theorem bind {a : Action σ α} {next : α → Action σ β} (h : Fails allowed a)
    (h' : ∀ x, Fails allowed (next x)) : Fails allowed (a >>= next) := by
  intro s f hf
  cases hr : (a s).result with
  | error g =>
      rw [bind_of_error hr] at hf
      obtain rfl : g = f := Except.error.inj hf
      exact h s g hr
  | ok x =>
      rw [bind_of_ok hr] at hf
      exact h' x _ f hf

end Fails

end Action

end BudgetReaper
