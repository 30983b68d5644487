import BudgetReaper.Proofs.Reaping.Replay

/-!
# Reaping — the call that a failure began with

Some calls are *fatal* when they fail: a listing always, a deletion unless it finds nothing, an event
never (`Fatal`).  An action *heeds* its calls when it goes on only as long as none of them is fatal:
if it returns, no call has been fatal, and if it fails, a fatal call is the last of all, and it is
the one that the failure has begun with (`Heeds`).

**Culprits** (`heeds_execute`).  A whole run heeds its calls, from whatever state and whatever fails
in it.  So the first fatal call of a run is its last call, and it is found in the failure itself.
-/

namespace BudgetReaper

/-- The operation that a call is for. -/
def Call.operation : Call → Operation
  | listAll => .listBudgets ""
  | listIn space => .listBudgets space
  | listPods space selector => .listPods space selector
  | delete key => .delete key
  | createEvent space _ => .createEvent space

/-- An answered call has failed, and in such a way that a run cannot go on. -/
def Fatal : Call × Option Fault → Prop
  | (_, none) | (.createEvent .., _) => False
  | (.delete _, some f) => f.isNotFound = false
  | (_, some _) => True

/-- No answered call is fatal. -/
def Harmless (account : List (Call × Option Fault)) : Prop :=
  ∀ answered ∈ account, ¬ Fatal answered

namespace Harmless

variable {a a' : List (Call × Option Fault)}

theorem nil : Harmless [] :=
  fun _ h => nomatch h

theorem append (h : Harmless a) (h' : Harmless a') : Harmless (a ++ a') :=
  fun x hx => (List.mem_append.mp hx).elim (h x) (h' x)

theorem singleton {answered : Call × Option Fault} (h : ¬ Fatal answered) : Harmless [answered] := by
  intro x hx
  rwa [List.mem_singleton.mp hx]

end Harmless

/-- How a failure comes about: a fatal call is the last of all and what the failure began with, or no
call is fatal and the failure began with none. -/
inductive Culprit (f : Failure) : List (Call × Option Fault) → Prop
  | call {clean : List (Call × Option Fault)} {call : Call} {fault : Fault}
      (harmless : Harmless clean) (fatal : Fatal (call, some fault))
      (told : f.failed? = (Pass.failureOf call.operation fault).failed?) :
      Culprit f (clean ++ [(call, some fault)])
  | own {account : List (Call × Option Fault)} (harmless : Harmless account)
      (own : f.failed? = none) :
      Culprit f account

namespace Culprit

variable {f : Failure} {a a' : List (Call × Option Fault)}

/-- What has been called before does not change the culprit. -/
theorem append (harmless : Harmless a) (h : Culprit f a') : Culprit f (a ++ a') := by
  cases h with
  | call clean fatal told =>
      rw [← List.append_assoc]
      exact .call (harmless.append clean) fatal told
  | own clean own => exact .own (harmless.append clean) own

/-- A fatal call with nothing before it is the culprit. -/
theorem first {call : Call} {fault : Fault} (fatal : Fatal (call, some fault))
    (told : f.failed? = (Pass.failureOf call.operation fault).failed?) :
    Culprit f [(call, some fault)] :=
  .call .nil fatal told

/-- A phase that a failure aborts does not change the culprit. -/
theorem aborted_iff {phase : Phase} : Culprit (.aborted phase f) a ↔ Culprit f a := by
  constructor <;> intro h
  · cases h with
    | call clean fatal told => exact .call clean fatal told
    | own clean own => exact .own clean own
  · cases h with
    | call clean fatal told => exact .call clean fatal told
    | own clean own => exact .own clean own

/-- A fatal call is the last one, and the failure names it. -/
theorem last (h : Culprit f a) {call : Call} {fault : Fault} (mem : (call, some fault) ∈ a)
    (fatal : Fatal (call, some fault)) :
    (∃ clean, a = clean ++ [(call, some fault)] ∧ Harmless clean) ∧
      f.failed? = (Pass.failureOf call.operation fault).failed? := by
  cases h with
  | own harmless _ => exact absurd fatal (harmless _ mem)
  | @call clean _ _ harmless _ told =>
      rcases List.mem_append.mp mem with hx | hx
      · exact absurd fatal (harmless _ hx)
      · obtain ⟨rfl, ⟨⟩⟩ := Prod.mk.inj (List.mem_singleton.mp hx)
        exact ⟨⟨clean, rfl, harmless⟩, told⟩

/-- A failure that names a call has that call for its culprit. -/
theorem of_failed (h : Culprit f a) {operation : Operation} {fault : Fault}
    (failed : f.failed? = some (operation, fault)) :
    ∃ clean call, call.operation = operation ∧ a = clean ++ [(call, some fault)] ∧
      Harmless clean ∧ Fatal (call, some fault) := by
  cases h with
  | own _ own =>
      rw [own] at failed
      cases failed
  | @call clean call fault' harmless fatal told =>
      rw [failed, Pass.failureOf] at told
      split at told
      · obtain ⟨rfl, rfl⟩ := Prod.mk.inj (Option.some.inj told)
        exact ⟨clean, call, rfl, rfl, harmless, fatal⟩
      · cases told

end Culprit

namespace Pass

open BudgetReaper.Action

/-- The action goes on only as long as no call is fatal. -/
structure Heeds {α : Type} (a : Pass α) : Prop where
  replayed : Obeys Replayed a
  returned : ∀ s x, (a s).result = .ok x → Harmless (s.cluster.account (a s).calls)
  stopped : ∀ s f, (a s).result = .error f → Culprit f (s.cluster.account (a s).calls)

namespace Heeds

variable {α β : Type}

/-- What makes no fatal call and fails on its own. -/
theorem of_own {a : Pass α} (replayed : Obeys Replayed a)
    (harmless : ∀ s : Session, Harmless (s.cluster.account (a s).calls))
    (own : Fails (fun f => f.failed? = none) a) : Heeds a where
  replayed := replayed
  returned s _ _ := harmless s
  stopped s f hf := .own (harmless s) (own s f hf)

/-- What calls nothing and fails on its own. -/
theorem of_silent {a : Pass α} (replayed : Obeys Replayed a) (silent : ∀ s, (a s).calls = [])
    (own : Fails (fun f => f.failed? = none) a) : Heeds a := by
  refine of_own replayed (fun s => ?_) own
  rw [silent s]
  exact .nil

theorem bind {a : Pass α} {next : α → Pass β} (h : Heeds a) (h' : ∀ x, Heeds (next x)) :
    Heeds (a >>= next) := by
  have whole {s : Session} {x : α} (hx : (a s).result = .ok x) :
      s.cluster.account ((a >>= next) s).calls =
        s.cluster.account (a s).calls ++
          (a s).state.cluster.account (next x (a s).state).calls := by
    rw [Outcome.calls, bind_of_ok hx, List.filterMap_append, Cluster.account_append,
      (h.replayed s).cluster]
    rfl
  refine ⟨.bind h.replayed fun x => (h' x).replayed, fun s y hy => ?_, fun s f hf => ?_⟩
  · obtain ⟨x, hx, hy⟩ := ok_of_bind hy
    rw [whole hx]
    exact (h.returned s x hx).append ((h' x).returned _ y hy)
  · cases hx : (a s).result with
    | error g =>
        rw [bind_of_error hx] at hf
        obtain rfl : g = f := Except.error.inj hf
        rw [Outcome.calls, bind_of_error hx]
        exact h.stopped s g hx
    | ok x =>
        rw [whole hx]
        rw [bind_of_ok hx] at hf
        exact .append (h.returned s x hx) ((h' x).stopped _ f hf)

/-- The actions that heed their calls are a closed class. -/
theorem closed : Closed fun α => Heeds (α := α) where
  done x := of_silent (.done x) (fun _ => rfl) fun _ _ h => nomatch h
  fail own := of_silent (.fail _) (fun _ => rfl) fun _ _ h => Except.error.inj h ▸ own
  state := of_silent .state (fun _ => rfl) fun _ _ h => nomatch h
  bind := bind

theorem inPhase (phase : Phase) {a : Pass Unit} (h : Heeds a) : Heeds (inPhase phase a) := by
  refine ⟨.rephrase h.replayed _, fun s x hx => ?_, fun s f hf => ?_⟩
  · rw [Pass.inPhase, rephrase_apply] at hx
    cases hr : (a s).result with
    | error g =>
        rw [hr] at hx
        cases hx
    | ok x => exact h.returned s x hr
  · rw [Pass.inPhase, rephrase_apply] at hf
    cases hr : (a s).result with
    | ok x =>
        rw [hr] at hf
        cases hf
    | error g =>
        rw [hr] at hf
        obtain rfl := Except.error.inj hf
        have culprit := h.stopped s g hr
        dsimp only
        split
        · exact Culprit.aborted_iff.mpr culprit
        · exact culprit

end Heeds

/-! ### Steps -/

theorem heeds_say (n : Notice) : Heeds (say n) :=
  .of_silent (replayed_say n) (fun _ => rfl) fun _ _ h => nomatch h

theorem heeds_post (change : Ledger → Ledger) : Heeds (post change) :=
  .of_silent (replayed_post change) (fun _ => rfl) fun _ _ h => nomatch h

/-- A request that only reads heeds its one call, if that is fatal whenever it fails. -/
theorem heeds_request {α : Type} (call : Call)
    (reads : ∀ c : Cluster, (c.serve call).2 = c.planned call) (fatal : ∀ f, Fatal (call, some f)) (read : Cluster → α)
    (replayed : Obeys Replayed (request call.operation call fun c => .ok (read c, c))) :
    Heeds (request call.operation call fun c => .ok (read c, c)) := by
  have called (s : Session) : s.cluster.account
      (request call.operation call (fun c => .ok (read c, c)) s).calls =
        [(call, s.cluster.planned call)] := by
    rw [request_apply, ← reads]
    rfl
  refine ⟨replayed, fun s x hx => ?_, fun s f hf => ?_⟩
  · rw [called]
    rw [request_apply] at hx
    cases hp : s.cluster.planned call with
    | none => exact .singleton id
    | some f =>
        rw [hp] at hx
        cases hx
  · rw [called]
    rw [request_apply] at hf
    cases hp : s.cluster.planned call with
    | none =>
        rw [hp] at hf
        cases hf
    | some fault =>
        rw [hp] at hf
        obtain rfl := Except.error.inj hf
        exact .first (fatal fault) rfl

theorem heeds_listBudgets : Heeds (listBudgets "") :=
  heeds_request .listAll
    (fun c => by rw [Cluster.serve]; cases c.planned .listAll <;> rfl) (fun _ => trivial)
    Cluster.budgets replayed_listBudgets

theorem heeds_listPods (space : Option String) (selector : String) :
    Heeds (listPods space selector) :=
  heeds_request (.listPods space selector)
    (fun c => by rw [Cluster.serve]; cases c.planned (.listPods space selector) <;> rfl)
    (fun _ => trivial) (·.podsOf space selector) (replayed_listPods space selector)

theorem heeds_deleteBudget (key : Key) : Heeds (deleteBudget key) := by
  refine ⟨replayed_deleteBudget key, fun s x hx => ?_, fun s f hf => ?_⟩
  · have served := s.cluster.serve_delete key
    rw [Outcome.calls, trace_deleteBudget]
    change Harmless [(.delete key, (s.cluster.serve (.delete key)).2)]
    rw [deleteBudget_apply] at hx
    cases ha : s.cluster.answerToDelete key with
    | ok without =>
        rw [served, ha]
        exact .singleton id
    | error f =>
        rw [served, ha]
        refine .singleton fun missed : f.isNotFound = false => ?_
        simp only [ha, missed] at hx
        cases hx
  · have served := s.cluster.serve_delete key
    rw [Outcome.calls, trace_deleteBudget]
    change Culprit f [(.delete key, (s.cluster.serve (.delete key)).2)]
    rw [deleteBudget_apply] at hf
    cases ha : s.cluster.answerToDelete key with
    | ok without =>
        rw [ha] at hf
        cases hf
    | error fault =>
        rw [served, ha]
        rw [ha] at hf
        dsimp only at hf
        split at hf
        · cases hf
        · next missed =>
            obtain rfl := Except.error.inj hf
            exact .first (eq_false_of_ne_true missed) rfl

/-- A request that fails otherwise than as a call to the cluster names no call. -/
theorem failed?_of_answer {α : Type} {operation : Operation} {planned : Option Fault} {x : α}
    {f : Failure} (h : answer operation planned x = .error f) (raised : ¬ f.isCluster = true) :
    f.failed? = none := by
  cases planned with
  | none => cases h
  | some fault =>
      obtain rfl := Except.error.inj h
      unfold failureOf at raised ⊢
      split at raised
      · exact absurd rfl raised
      · next foreign => rw [if_neg foreign]; rfl

/-- An event is never fatal, and what goes wrong with it otherwise is no call. -/
theorem heeds_announce (b : Budget) (reason : Reason) : Heeds (announce b reason) := by
  refine .of_own (replayed_announce b reason) (fun s => ?_) fun s f hf => ?_
  · cases hm : b.metadata with
    | none =>
        rw [announce_unnamed hm]
        exact .nil
    | some m =>
        have called : (announce b reason s).calls = [publication (.about b m reason s.now)] := by
          rw [Outcome.calls, ← Effect.filterMap_acts _ (fun _ => rfl), (acts_announce hm reason s).2]
          rfl
        rw [called]
        refine .singleton fun fatal => ?_
        cases hs : (s.cluster.serve (publication (.about b m reason s.now))).2 with
        | none =>
            rw [hs] at fatal
            exact fatal
        | some f =>
            rw [hs] at fatal
            exact fatal
  · cases hm : b.metadata with
    | none =>
        rw [announce_unnamed hm] at hf
        obtain rfl := Except.error.inj hf
        rfl
    | some m =>
        rw [announce_apply, eventOf, hm] at hf
        dsimp only at hf
        split at hf
        · cases hf
        · next g hg =>
            split at hf
            · cases hf
            · next raised =>
                obtain rfl := Except.error.inj hf
                exact failed?_of_answer hg raised

/-- What a sink refuses, it refuses without a call. -/
theorem failed?_of_record {k : Sink} {sample : Sample} {f : Failure}
    (h : (k.record sample).2 = some f) : f.failed? = none := by
  cases k with
  | absent => cases h
  | registry r address job =>
      obtain ⟨fault, -, rfl⟩ := Option.map_eq_some_iff.mp h
      rfl
  | scripted refuses seen =>
      obtain ⟨fault, -, rfl⟩ := Option.map_eq_some_iff.mp h
      rfl

theorem heeds_tally (b : Budget) (reason : Reason) (value : Value) :
    Heeds (tally b reason value) := by
  refine .of_silent (replayed_tally b reason value) (fun s => ?_) fun s f hf => ?_
  · refine List.filterMap_eq_nil_iff.mpr fun e he => ?_
    have silent : Emits (fun e => e.call? = none) (tally b reason value) :=
      emits_tally (fun _ => rfl) fun _ _ => rfl
    exact silent s e he
  · rw [tally_apply] at hf
    split at hf
    · split at hf
      · obtain rfl := Except.error.inj hf
        rfl
      · split at hf
        · cases hf
        · next refused =>
            split at hf
            · cases hf
            · obtain rfl := Except.error.inj hf
              exact failed?_of_record refused
    · cases hf

theorem heeds_settle (entry : Key × Budget) (gone : Bool) : Heeds (settle entry gone) := by
  refine Closed.ite (C := fun α => Heeds (α := α)) (.bind (heeds_say _) fun _ => ?_) (heeds_say _)
  refine .bind (heeds_announce _ _) fun _ => .bind (heeds_post _) fun _ => ?_
  exact heeds_tally _ _ _

/-! ### The whole run -/

theorem probes_heeds : Probes fun α => Heeds (α := α) where
  toClosed := Heeds.closed
  inPhase phase _ h := h.inPhase phase
  say := heeds_say
  post change _ := heeds_post change
  listBudgets := heeds_listBudgets
  listPods := heeds_listPods
  flag b reason _ := .bind (heeds_announce b reason) fun _ => heeds_tally b reason _
  lower b reason := heeds_tally b reason _

theorem heeds_remove (entry : Key × Budget) : Heeds (remove entry) :=
  closed_remove Heeds.closed heeds_say
    (.bind (heeds_deleteBudget entry.1) fun gone => heeds_settle entry gone)

/-- A whole run heeds its calls. -/
theorem heeds_execute : Heeds execute := by
  rw [execute_eq]
  refine .bind probes_heeds.detect fun _ => .bind (.inPhase .deletion ?_) fun _ => ?_
  · exact .bind Heeds.closed.state fun s => Heeds.closed.forEach fun entry _ => heeds_remove entry
  · exact .bind Heeds.closed.state fun s => heeds_say _

end Pass

end BudgetReaper
