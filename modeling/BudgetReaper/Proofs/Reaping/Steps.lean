import BudgetReaper.Proofs.Action.Emission
import BudgetReaper.Reaping.Deletion
import BudgetReaper.Reaping.Overlap
import BudgetReaper.Reaping.Check

/-!
# Reaping — what one step does

One equation for each request and each signal of a run: its result, the state it leaves and its
trace.  A request is one call, counted whatever becomes of it (`Session.counted`); a fault planned
for it (`Cluster.planned`) comes before it acts.  A signal that is refused leaves a warning.

Requests and signals are unfolded in this module only.
-/

namespace BudgetReaper

/-- The fault with which a call would fail next. -/
def Cluster.planned (c : Cluster) (call : Call) : Option Fault :=
  (c.count call).2

/-- What a deletion comes to: the cluster it leaves, or the fault with which it fails. -/
def Cluster.answerToDelete (c : Cluster) (key : Key) : Except Fault Cluster :=
  match c.planned (.delete key) with
  | some f => .error f
  | none => (c.count (.delete key)).1.delete key

/-- A deletion that succeeds takes the budgets of its key away. -/
theorem Cluster.answerToDelete_eq_ok {c without : Cluster} {key : Key}
    (h : c.answerToDelete key = .ok without) :
    without = (c.count (.delete key)).1.without key := by
  unfold answerToDelete delete at h
  split at h
  · cases h
  · split at h
    · cases h
    · split at h
      · exact (Except.ok.inj h).symm
      · cases h

/-- A deletion in a named cluster fails as planned, or because there is nothing to delete. -/
theorem Cluster.answerToDelete_eq_error {c : Cluster} (named : c.isNamed = true) {key : Key}
    {f : Fault} (h : c.answerToDelete key = .error f) :
    c.planned (.delete key) = some f ∨ f = notFound := by
  unfold answerToDelete delete at h
  split at h
  · next planned =>
      obtain rfl := Except.error.inj h
      exact Or.inl planned
  · rw [show (c.count (.delete key)).1.isNamed = true from named] at h
    split at h
    · next unnamed => cases unnamed
    · split at h
      · cases h
      · exact Or.inr (Except.error.inj h).symm

/-- The session after a call has been counted. -/
def Session.counted (s : Session) (call : Call) : Session :=
  { s with cluster := (s.cluster.count call).1 }

/-- A sample makes no sink come or go. -/
theorem Sink.isPresent_record (k : Sink) (s : Sample) : (k.record s).1.isPresent = k.isPresent := by
  cases k <;> rfl

/-- The session after a sample has been offered to its sink. -/
def Session.sampled (s : Session) (sample : Sample) : Session :=
  { s with sink := (s.sink.record sample).1 }

namespace Pass

open BudgetReaper.Action

/-! ### Requests -/

/-- The result of a request that only reads, if `planned` is what is planned for its call. -/
def answer {α : Type} (operation : Operation) (planned : Option Fault) (x : α) :
    Except Failure α :=
  match planned with
  | some f => .error (failureOf operation f)
  | none => .ok x

theorem answer_eq_ok {α : Type} {operation : Operation} {planned : Option Fault} {x y : α}
    (h : answer operation planned x = .ok y) : y = x := by
  cases planned with
  | some f => cases h
  | none => exact (Except.ok.inj h).symm

theorem issue_apply {α : Type} (call : Call) (act : Cluster → Except Fault (α × Cluster))
    (s : Session) :
    issue call act s =
      match s.cluster.planned call with
      | some f => ⟨.ok (.error f), s.counted call, [.call call]⟩
      | none =>
        match act (s.counted call).cluster with
        | .error f => ⟨.ok (.error f), s.counted call, [.call call]⟩
        | .ok (x, c) => ⟨.ok (.ok x), { s with cluster := c }, [.call call]⟩ := by
  simp only [issue, emit_bind, state_bind, Cluster.planned, Session.counted]
  cases (s.cluster.count call).2 with
  | some f => rfl
  | none => cases act (s.cluster.count call).1 <;> rfl

theorem request_apply {α : Type} (operation : Operation) (call : Call) (read : Cluster → α)
    (s : Session) :
    request operation call (fun c => .ok (read c, c)) s =
      ⟨answer operation (s.cluster.planned call) (read (s.counted call).cluster),
        s.counted call, [.call call]⟩ := by
  rw [request, bind_apply, andThen, issue_apply]
  cases s.cluster.planned call <;> rfl

theorem listBudgets_apply (s : Session) :
    listBudgets "" s =
      ⟨answer (.listBudgets "") (s.cluster.planned .listAll) s.cluster.budgets,
        s.counted .listAll, [.call .listAll]⟩ :=
  request_apply (.listBudgets "") .listAll Cluster.budgets s

theorem listPods_apply (space : Option String) (selector : String) (s : Session) :
    listPods space selector s =
      ⟨answer (.listPods space selector) (s.cluster.planned (.listPods space selector))
          (s.cluster.podsOf space selector),
        s.counted (.listPods space selector), [.call (.listPods space selector)]⟩ :=
  request_apply (.listPods space selector) (.listPods space selector) (·.podsOf space selector) s

theorem createEvent_apply (space : Option String) (event : Event) (s : Session) :
    createEvent space event s =
      ⟨answer (.createEvent space) (s.cluster.planned (.createEvent space event)) event,
        s.counted (.createEvent space event), [.call (.createEvent space event)]⟩ :=
  request_apply (.createEvent space) (.createEvent space event) (fun _ => event) s

/-- A deletion succeeds, finds nothing to delete, or fails; only the first changes the budgets. -/
theorem deleteBudget_apply (key : Key) (s : Session) :
    deleteBudget key s =
      match s.cluster.answerToDelete key with
      | .ok c => ⟨.ok true, { s with cluster := c }, [.call (.delete key)]⟩
      | .error f =>
        ⟨if f.isNotFound then .ok false else .error (failureOf (.delete key) f),
          s.counted (.delete key), [.call (.delete key)]⟩ := by
  rw [deleteBudget, bind_apply, andThen, issue_apply, Cluster.answerToDelete]
  cases s.cluster.planned (.delete key) with
  | some f => cases h : f.isNotFound <;> simp [h]
  | none =>
      change _ = (match (s.counted (.delete key)).cluster.delete key with
        | .ok c => _
        | .error f => _)
      cases (s.counted (.delete key)).cluster.delete key with
      | ok c => rfl
      | error f => cases h : f.isNotFound <;> simp [Except.map, h]

theorem deleteBudget_of_ok {key : Key} {s : Session} {c : Cluster}
    (h : s.cluster.answerToDelete key = .ok c) :
    deleteBudget key s = ⟨.ok true, { s with cluster := c }, [.call (.delete key)]⟩ := by
  rw [deleteBudget_apply, h]

theorem deleteBudget_of_error {key : Key} {s : Session} {f : Fault}
    (h : s.cluster.answerToDelete key = .error f) :
    deleteBudget key s =
      ⟨if f.isNotFound then .ok false else .error (failureOf (.delete key) f),
        s.counted (.delete key), [.call (.delete key)]⟩ := by
  rw [deleteBudget_apply, h]

/-! ### Signals -/

/-- The warning that an event was not taken. -/
def unpublished (b : Budget) (reason : Reason) (f : Failure) : Notice :=
  .warning "Failed to publish event"
    [("pdb", .str b.fullName), ("reason", .str reason.text), ("error", .str f.message)]

/-- The call that publishes an event. -/
def publication (event : Event) : Call :=
  .createEvent event.space event

/-- An announcement is one call; the failures of the cluster that it meets become a warning. -/
theorem announce_apply (b : Budget) (reason : Reason) (s : Session) :
    announce b reason s =
      match eventOf b reason s.now with
      | .error f => ⟨.error f, s, []⟩
      | .ok event =>
        match answer (.createEvent event.space) (s.cluster.planned (publication event)) () with
        | .ok () => ⟨.ok (), s.counted (publication event), [.call (publication event)]⟩
        | .error f =>
          if f.isCluster then
            ⟨.ok (), s.counted (publication event),
              [.call (publication event), .notice (unpublished b reason f)]⟩
          else ⟨.error f, s.counted (publication event), [.call (publication event)]⟩ := by
  rw [announce, bind_apply, andThen, publish, state_bind]
  cases eventOf b reason s.now with
  | error f => rfl
  | ok event =>
      rw [ofExcept_ok, LawfulMonad.pure_bind, bind_apply, andThen, attempt_apply,
        createEvent_apply]
      dsimp only [publication]
      cases s.cluster.planned (.createEvent event.space event) with
      | none => rfl
      | some f =>
          dsimp only [answer]
          cases (failureOf (.createEvent event.space) f).isCluster <;> rfl

/-- The announcement of a budget without metadata fails before it calls. -/
theorem announce_unnamed {b : Budget} (hm : b.metadata = none) (reason : Reason) (s : Session) :
    announce b reason s = ⟨.error (.missing "name"), s, []⟩ := by
  rw [announce_apply, eventOf, hm]

/-- The one act of an announcement is its call, whatever becomes of it. -/
theorem acts_announce {b : Budget} {m : Metadata} (hm : b.metadata = some m) (reason : Reason)
    (s : Session) :
    (announce b reason s).state = s.counted (publication (.about b m reason s.now)) ∧
      (announce b reason s).trace.filter Effect.isAct =
        [.call (publication (.about b m reason s.now))] := by
  rw [announce_apply, eventOf, hm]
  dsimp only
  split
  · exact ⟨rfl, rfl⟩
  · split
    · exact ⟨rfl, rfl⟩
    · exact ⟨rfl, rfl⟩

/-- The sample of a value for a budget and a reason. -/
def sampleOf (m : Metadata) (reason : Reason) (value : Value) : Sample :=
  { key := m.key, reason, value }

/-- A value is recorded, whether or not the sink takes it. -/
def tally (b : Budget) (reason : Reason) (value : Value) : Pass Unit := do
  let _ ← expose b reason value
  return ()

/-- The notice that a sample was taken. -/
def recorded (sample : Sample) : Notice :=
  .sampled Exposition.resultName sample.value sample.tags

/-- The warning that a sample was not taken. -/
def unrecorded (sample : Sample) (f : Failure) : Notice :=
  .warning "Pushing metric error" (("error", .str f.message) :: sample.tags)

theorem recordSample_apply (sample : Sample) (s : Session) :
    recordSample sample s =
      ⟨(s.sink.record sample).2.elim (.ok ()) .error, s.sampled sample, [.sample sample]⟩ := by
  rw [recordSample, emit_bind, state_bind]
  cases h : (s.sink.record sample).2 <;> simp [h, Session.sampled]

/-- A value is one sample, if there is a sink; a refusal to record it becomes a warning. -/
theorem tally_apply (b : Budget) (reason : Reason) (value : Value) (s : Session) :
    tally b reason value s =
      if s.sink.isPresent then
        match b.metadata with
        | none => ⟨.error (.missing "namespace"), s, []⟩
        | some m =>
          match (s.sink.record (sampleOf m reason value)).2 with
          | none =>
            ⟨.ok (), s.sampled (sampleOf m reason value),
              [.sample (sampleOf m reason value), .notice (recorded (sampleOf m reason value))]⟩
          | some f =>
            if f.isMetrics then
              ⟨.ok (), s.sampled (sampleOf m reason value),
                [.sample (sampleOf m reason value),
                  .notice (unrecorded (sampleOf m reason value) f)]⟩
            else
              ⟨.error f, s.sampled (sampleOf m reason value), [.sample (sampleOf m reason value)]⟩
      else ⟨.ok (), s, []⟩ := by
  rw [tally, bind_apply, andThen, expose, state_bind]
  cases hs : s.sink.isPresent with
  | false => rfl
  | true =>
      rw [metadataOf]
      cases b.metadata with
      | none => rfl
      | some m =>
          dsimp only
          rw [if_pos rfl, if_pos rfl, done_bind, bind_apply, andThen, attempt_apply,
            recordSample_apply]
          unfold sampleOf
          cases (s.sink.record { key := m.key, reason, value }).2 with
          | none => rfl
          | some f =>
              dsimp only [Option.elim]
              cases f.isMetrics <;> rfl

/-- Without a sink no value is recorded. -/
theorem tally_absent {s : Session} (hp : s.sink.isPresent = false) (b : Budget) (reason : Reason)
    (value : Value) : tally b reason value s = ⟨.ok (), s, []⟩ := by
  rw [tally_apply, hp]
  rfl

/-- A value for a budget without metadata fails before it is recorded. -/
theorem tally_unnamed {s : Session} (hp : s.sink.isPresent = true) {b : Budget}
    (hm : b.metadata = none) (reason : Reason) (value : Value) :
    tally b reason value s = ⟨.error (.missing "namespace"), s, []⟩ := by
  rw [tally_apply, if_pos hp, hm]

/-- The one act of a value is its sample, whatever becomes of it. -/
theorem acts_tally {s : Session} (hp : s.sink.isPresent = true) {b : Budget} {m : Metadata}
    (hm : b.metadata = some m) (reason : Reason) (value : Value) :
    (tally b reason value s).state = s.sampled (sampleOf m reason value) ∧
      (tally b reason value s).trace.filter Effect.isAct =
        [.sample (sampleOf m reason value)] := by
  rw [tally_apply, if_pos hp, hm]
  dsimp only
  split
  · exact ⟨rfl, rfl⟩
  · split
    · exact ⟨rfl, rfl⟩
    · exact ⟨rfl, rfl⟩

/-! ### Checks -/

/-- The reasons for which a blocking budget is checked, in order. -/
def checks : List Reason :=
  [.blocking, .crashLoop, .notReady]

/-- The verdict of one check of a budget that selects `pods`; false of a check switched off. -/
def verdictOf (s : Session) (b : Budget) (pods : List Pod) : Reason → Pass Bool
  | .blocking => if s.settings.reapMisconfigured.holds then misconfigured b pods else done false
  | .crashLoop =>
    if s.settings.reapCrashLoop.holds then
      ofExcept .value (areCrashLooping pods s.settings.crashLoopThreshold
        (.ofAll s.settings.allCrashLoop.holds))
    else done false
  | .notReady =>
    if s.settings.reapNotReady.holds then
      ofExcept .clock (areNotReady pods s.settings.notReadySeconds
        (.ofAll s.settings.allNotReady.holds) s.now)
    else done false
  | _ => done false

/-- The pods that the report of a check names. -/
def namedPods (pods : List Pod) : Reason → List Pod
  | .blocking => []
  | _ => pods

/-- One check of a budget that selects `pods`, with its report. -/
def examine (s : Session) (b : Budget) (pods : List Pod) (reason : Reason) : Pass Unit := do
  let verdict ← verdictOf s b pods reason
  report b reason verdict (namedPods pods reason)

/-- A blocking budget is checked for one reason after the other, on the same pods. -/
theorem check_eq (space : Option String) (b : Budget) :
    check space b = (do
      let s ← state
      say (.evaluated b.fullName "blocking")
      let pods ← selectedPods space b
      forEach (examine s b pods) checks) := by
  rw [check]
  refine bind_congr fun s => bind_congr fun _ => bind_congr fun pods => ?_
  -- the switches of the three checks, each with a continuation of its own
  have close : forEach (examine s b pods) checks =
      verdictOf s b pods .blocking >>= fun bad => report b .blocking bad [] >>= fun _ =>
      verdictOf s b pods .crashLoop >>= fun looping => report b .crashLoop looping pods >>= fun _ =>
      verdictOf s b pods .notReady >>= fun unready => report b .notReady unready pods := by
    simp only [checks, forEach, examine, namedPods, Action.bind_assoc, bind_done]
  rw [close]
  simp only [verdictOf]
  split <;> split <;> split <;> rfl

end Pass

end BudgetReaper
