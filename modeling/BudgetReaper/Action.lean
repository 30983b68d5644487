import BudgetReaper.Cluster.Basic
import BudgetReaper.Failure
import BudgetReaper.Gateway
import BudgetReaper.Log.Notice

/-!
# Actions — steps with a state, a trace and a failure

An action takes a state to an outcome: a result or a failure, the state reached, and the trace of
effects in order.  The state and the trace are kept when an action fails, so what a failed run has
done can be told.  Running one action after another concatenates their traces (`trace_bind`).
-/

namespace BudgetReaper

/-- A sample that a run records. -/
structure Sample where
  key : Key
  reason : Reason
  value : Value
  deriving DecidableEq, Repr, Inhabited

/-- An attempt to use a source of credentials. -/
inductive Load where
  | account
  | file (path : Option String)
  deriving DecidableEq, Repr, Inhabited

/-- What an action does that others can see. -/
inductive Effect where
  | call (c : Call)
  | notice (n : Notice)
  | sample (s : Sample)
  | push (p : Push)
  | load (l : Load)
  | setup (level format : Value)
  | complaint (text : String)
  deriving DecidableEq, Repr, Inhabited

/-- What an action leads to: a result or a failure, the state reached, and the effects. -/
structure Outcome (σ α : Type) where
  result : Except Failure α
  state : σ
  trace : List Effect

/-- A step with a state, effects and a possible failure. -/
def Action (σ α : Type) : Type :=
  σ → Outcome σ α

namespace Action

variable {σ τ α β : Type}

/-- The outcome of an action from a state. -/
def run (a : Action σ α) (s : σ) : Outcome σ α :=
  a s

/-- An action with a result and no effect. -/
def done (x : α) : Action σ α :=
  fun s => ⟨.ok x, s, []⟩

/-- An action that fails. -/
def fail (f : Failure) : Action σ α :=
  fun s => ⟨.error f, s, []⟩

/-- One action, then another if the first does not fail. -/
def andThen (a : Action σ α) (next : α → Action σ β) : Action σ β := fun s =>
  let first := a s
  match first.result with
  | .error f => ⟨.error f, first.state, first.trace⟩
  | .ok x =>
    let second := next x first.state
    ⟨second.result, second.state, first.trace ++ second.trace⟩

instance : Monad (Action σ) where
  pure := done
  bind := andThen

/-- The state. -/
def state : Action σ σ :=
  fun s => ⟨.ok s, s, []⟩

/-- A change of the state. -/
def update (change : σ → σ) : Action σ Unit :=
  fun s => ⟨.ok (), change s, []⟩

/-- One effect. -/
def emit (e : Effect) : Action σ Unit :=
  fun s => ⟨.ok (), s, [e]⟩

/-- A notice. -/
def say (n : Notice) : Action σ Unit :=
  emit (.notice n)

/-- An action whose failure is a result. -/
def attempt (a : Action σ α) : Action σ (Except Failure α) := fun s =>
  let o := a s
  ⟨.ok o.result, o.state, o.trace⟩

/-- An action with its failure put into other words. -/
def rephrase (a : Action σ α) (words : Failure → Failure) : Action σ α := fun s =>
  let o := a s
  ⟨o.result.mapError words, o.state, o.trace⟩

/-- The result of a computation that may fail. -/
def ofExcept {ε : Type} (words : ε → Failure) : Except ε α → Action σ α
  | .ok x => done x
  | .error e => fail (words e)

/-- An action for each item in order, up to the first failure. -/
def forEach (act : α → Action σ Unit) : List α → Action σ Unit
  | [] => done ()
  | x :: rest => do
    act x
    forEach act rest

/-- The concatenated results of an action for each item in order. -/
def gather (act : α → Action σ (List β)) : List α → Action σ (List β)
  | [] => done []
  | x :: rest => do
    let here ← act x
    let later ← gather act rest
    return here ++ later

/-- An action on a part of a state. -/
def focus (get : τ → σ) (set : τ → σ → τ) (a : Action σ α) : Action τ α := fun t =>
  let o := a (get t)
  ⟨o.result, set t o.state, o.trace⟩

/-! ### Traces and results -/

@[simp] theorem pure_apply (x : α) (s : σ) : (pure x : Action σ α) s = ⟨.ok x, s, []⟩ := rfl

@[simp] theorem fail_apply (f : Failure) (s : σ) : (fail f : Action σ α) s = ⟨.error f, s, []⟩ := rfl

@[simp] theorem say_apply (n : Notice) (s : σ) : say n s = ⟨.ok (), s, [.notice n]⟩ := rfl

@[simp] theorem attempt_apply (a : Action σ α) (s : σ) :
    attempt a s = ⟨.ok (a s).result, (a s).state, (a s).trace⟩ := rfl

theorem rephrase_apply (a : Action σ α) (words : Failure → Failure) (s : σ) :
    rephrase a words s = ⟨(a s).result.mapError words, (a s).state, (a s).trace⟩ := rfl

theorem bind_apply (a : Action σ α) (next : α → Action σ β) (s : σ) :
    (a >>= next) s = andThen a next s := rfl

@[simp] theorem state_bind (next : σ → Action σ β) (s : σ) : (state >>= next) s = next s s := rfl

@[simp] theorem update_bind (change : σ → σ) (next : Unit → Action σ β) (s : σ) :
    (update change >>= next) s = next () (change s) := rfl

@[simp] theorem done_bind (x : α) (next : α → Action σ β) : done x >>= next = next x := rfl

@[simp] theorem fail_bind (f : Failure) (next : α → Action σ β) : fail f >>= next = fail f := rfl

@[simp] theorem ofExcept_ok {ε : Type} (words : ε → Failure) (x : α) :
    (ofExcept words (.ok x) : Action σ α) = pure x := rfl

@[simp] theorem ofExcept_error {ε : Type} (words : ε → Failure) (e : ε) :
    (ofExcept words (.error e) : Action σ α) = fail (words e) := rfl

@[simp] theorem emit_bind (e : Effect) (next : Unit → Action σ β) (s : σ) :
    (emit e >>= next) s = ⟨(next () s).result, (next () s).state, e :: (next () s).trace⟩ := rfl

@[simp] theorem say_bind (n : Notice) (next : Unit → Action σ β) (s : σ) :
    (say n >>= next) s =
      ⟨(next () s).result, (next () s).state, .notice n :: (next () s).trace⟩ := rfl

/-- After a failure nothing happens. -/
theorem bind_of_error {a : Action σ α} {s : σ} {f : Failure} (h : (a s).result = .error f)
    (next : α → Action σ β) : (a >>= next) s = ⟨.error f, (a s).state, (a s).trace⟩ := by
  simp [bind_apply, andThen, h]

/-- After a result the next action goes on from the state reached. -/
theorem bind_of_ok {a : Action σ α} {s : σ} {x : α} (h : (a s).result = .ok x)
    (next : α → Action σ β) :
    (a >>= next) s =
      ⟨(next x (a s).state).result, (next x (a s).state).state,
        (a s).trace ++ (next x (a s).state).trace⟩ := by
  simp [bind_apply, andThen, h]

/-- The trace of two actions begins with the trace of the first. -/
theorem trace_bind (a : Action σ α) (next : α → Action σ β) (s : σ) :
    ∃ later, ((a >>= next) s).trace = (a s).trace ++ later := by
  cases h : (a s).result with
  | error f => exact ⟨[], by rw [bind_of_error h]; simp⟩
  | ok x => exact ⟨_, by rw [bind_of_ok h]⟩

theorem id_map (a : Action σ α) : id <$> a = a := by
  funext s
  change andThen a (fun x => done x) s = a s
  simp only [andThen, done]
  rcases a s with ⟨_ | _, _, _⟩ <;> simp

theorem pure_bind (x : α) (next : α → Action σ β) : pure x >>= next = next x := by
  funext s
  change andThen (done x) next s = next x s
  simp [andThen, done]

theorem bind_assoc {γ : Type} (a : Action σ α) (f : α → Action σ β) (g : β → Action σ γ) :
    a >>= f >>= g = a >>= fun x => f x >>= g := by
  funext s
  change andThen (andThen a f) g s = andThen a (fun x => andThen (f x) g) s
  cases h : (a s).result with
  | error e => simp [andThen, h]
  | ok x =>
    cases h' : (f x (a s).state).result <;> simp [andThen, h, h']

instance : LawfulMonad (Action σ) :=
  LawfulMonad.mk' (Action σ) id_map pure_bind bind_assoc

@[simp] theorem bind_done (a : Action σ Unit) : (a >>= fun _ => done ()) = a :=
  bind_pure_unit

end Action

end BudgetReaper
