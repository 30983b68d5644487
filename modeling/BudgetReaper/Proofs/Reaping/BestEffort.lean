import BudgetReaper.Proofs.Reaping.Alike
import BudgetReaper.Proofs.Reaping.Replay

/-!
# Reaping — events and samples decide nothing

An event may be refused by a rejection or a break of the transport, and a sample by a failure to
record it.  Two runs that differ in such refusals only, each with a pattern of its own, stay in
lockstep to the end (`execute_withRefusals`): the same calls and the same samples in the same order,
the same ledger, the same result.

A result is one of three things (`ends_execute`): the run completes; it is aborted in a phase; or a
failure that the program does not know as its own passes through as it is.
-/

namespace BudgetReaper

/-- Two plans differ in events only, which both refuse by a rejection or a break of the transport. -/
def Plan.DifferInEvents (p p' : Plan) : Prop :=
  ∀ call n, p call n = p' call n ∨
    call.kind = .createEvent ∧ (∀ f ∈ p call n, f.isRemote = true) ∧
      ∀ f ∈ p' call n, f.isRemote = true

namespace Sink

/-- Two sinks differ in refusals only, which both give as failures to record.  They are compared on
the samples of a run, which are zeros and ones, after any samples that both have been offered. -/
structure DifferInRefusals (k k' : Sink) : Prop where
  present : k.isPresent = k'.isPresent
  refusal : ∀ offered sample, sample.value = .int 0 ∨ sample.value = .int 1 →
    ((k.after offered).record sample).2 = ((k'.after offered).record sample).2 ∨
      (∀ f ∈ ((k.after offered).record sample).2, f.isMetrics = true) ∧
        ∀ f ∈ ((k'.after offered).record sample).2, f.isMetrics = true

/-- Sinks that differ in refusals still do so after a sample. -/
theorem DifferInRefusals.record {k k' : Sink} (h : DifferInRefusals k k') (s : Sample) :
    DifferInRefusals (k.record s).1 (k'.record s).1 where
  present := by rw [isPresent_record, isPresent_record, h.present]
  refusal offered := h.refusal (s :: offered)

/-! ### Sinks that differ in refusals -/

theorem after_scripted (refuses : Sample → Nat → Option Fault) (seen : Nat)
    (offered : List Sample) :
    (scripted refuses seen).after offered = scripted refuses (seen + offered.length) := by
  induction offered generalizing seen with
  | nil => rfl
  | cons s rest ih =>
      have first := ih (seen + 1)
      rw [Nat.add_assoc, Nat.add_comm 1] at first
      exact first

/-- A registry never refuses a sample of a run. -/
theorem record_registry (r : Registry) (address : Option String) (job : String) {s : Sample}
    (h : s.value = .int 0 ∨ s.value = .int 1) : ((registry r address job).record s).2 = none := by
  obtain ⟨key, reason, value⟩ := s
  rcases h with rfl | rfl <;> rfl

theorem isMetrics_of_mem_map {o : Option Fault}
    (h : ∀ f ∈ o, (Failure.fault f).isMetrics = true) :
    ∀ f ∈ o.map Failure.fault, f.isMetrics = true := by
  intro f hf
  obtain ⟨g, hg, rfl⟩ := Option.map_eq_some_iff.mp hf
  exact h g hg

/-- A sink that refuses some samples as failures to record differs from a registry in refusals. -/
theorem differInRefusals_registry (r : Registry) (address : Option String) (job : String)
    {refuses : Sample → Nat → Option Fault} (seen : Nat)
    (h : ∀ s n, ∀ f ∈ refuses s n, (Failure.fault f).isMetrics = true) :
    DifferInRefusals (registry r address job) (scripted refuses seen) where
  present := rfl
  refusal offered s hs := by
    rw [after_registry, record_registry _ address job hs, after_scripted]
    exact Or.inr ⟨by simp, isMetrics_of_mem_map (h s _)⟩

/-- Sinks that refuse by a plan differ in refusals if their plans do. -/
theorem differInRefusals_scripted {refuses refuses' : Sample → Nat → Option Fault} (seen : Nat)
    (h : ∀ s n, refuses s n = refuses' s n ∨
      (∀ f ∈ refuses s n, (Failure.fault f).isMetrics = true) ∧
        ∀ f ∈ refuses' s n, (Failure.fault f).isMetrics = true) :
    DifferInRefusals (scripted refuses seen) (scripted refuses' seen) where
  present := rfl
  refusal offered s _ := by
    rw [after_scripted, after_scripted]
    rcases h s (seen + offered.length + 1) with same | ⟨mild, mild'⟩
    · exact Or.inl (congrArg (Option.map Failure.fault) same)
    · exact Or.inr ⟨isMetrics_of_mem_map mild, isMetrics_of_mem_map mild'⟩

end Sink

/-- The session with another plan of failures and another sink. -/
def Session.withRefusals (s : Session) (p : Plan) (k : Sink) : Session :=
  { s with cluster := { s.cluster with plan := p }, sink := k }

namespace Pass

open BudgetReaper.Action

/-- Two sessions differ in the refusals of events and samples only. -/
def SignalTwins (s t : Session) : Prop :=
  ∃ p k, t = s.withRefusals p k ∧ Plan.DifferInEvents s.cluster.plan p ∧
    Sink.DifferInRefusals s.sink k

/-! ### Signals -/

theorem planned_cases {s : Session} {p : Plan} (k : Sink)
    (hp : Plan.DifferInEvents s.cluster.plan p) (call : Call) :
    s.cluster.planned call = (s.withRefusals p k).cluster.planned call ∨
      call.kind = .createEvent ∧ (∀ f ∈ s.cluster.planned call, f.isRemote = true) ∧
        ∀ f ∈ (s.withRefusals p k).cluster.planned call, f.isRemote = true :=
  hp call _

theorem planned_withRefusals {s : Session} {p : Plan} (k : Sink)
    (hp : Plan.DifferInEvents s.cluster.plan p) {call : Call} (h : call.kind ≠ .createEvent) :
    (s.withRefusals p k).cluster.planned call = s.cluster.planned call :=
  ((planned_cases k hp call).resolve_right fun ⟨event, _⟩ => h event).symm

/-- An announcement that the cluster may refuse goes through, whether or not it is refused. -/
theorem announce_of_refusable {b : Budget} {m : Metadata} (hm : b.metadata = some m)
    {reason : Reason} {s : Session}
    (h : ∀ f ∈ s.cluster.planned (publication (.about b m reason s.now)), f.isRemote = true) :
    (announce b reason s).result = .ok () := by
  rw [announce_apply, eventOf, hm]
  dsimp only
  cases hf : s.cluster.planned (publication (.about b m reason s.now)) with
  | none => rfl
  | some f =>
      have swallowed (operation : Operation) : (failureOf operation f).isCluster = true := by
        rw [failureOf, if_pos (h f hf)]
        rfl
      dsimp only [answer]
      rw [if_pos (swallowed _)]

/-- A value that the sink may refuse goes through, whether or not it is refused. -/
theorem tally_of_refusable {b : Budget} {m : Metadata} (hm : b.metadata = some m)
    {reason : Reason} {value : Value} {s : Session} (hp : s.sink.isPresent = true)
    (h : ∀ f ∈ (s.sink.record (sampleOf m reason value)).2, f.isMetrics = true) :
    (tally b reason value s).result = .ok () := by
  rw [tally_apply, if_pos hp, hm]
  dsimp only
  cases hf : (s.sink.record (sampleOf m reason value)).2 with
  | none => rfl
  | some f =>
      dsimp only
      rw [if_pos (h f hf)]

theorem SignalTwins.lockstep_announce (b : Budget) (reason : Reason) :
    Lockstep SignalTwins Effect.isAct (announce b reason) (announce b reason) := by
  rintro s _ ⟨p, k, rfl, hp, hk⟩
  cases hm : b.metadata with
  | none =>
      rw [announce_unnamed hm, announce_unnamed hm]
      exact ⟨rfl, ⟨p, k, rfl, hp, hk⟩, rfl⟩
  | some m =>
      obtain ⟨reached, acts⟩ := acts_announce hm reason s
      obtain ⟨reached', acts'⟩ := acts_announce hm reason (s.withRefusals p k)
      refine ⟨?_, ?_, acts.trans acts'.symm⟩
      · -- where the plans differ, each run swallows what it is refused
        rcases planned_cases k hp (publication (.about b m reason s.now)) with same | ⟨-, mild, mild'⟩
        · have clock : (s.withRefusals p k).now = s.now := rfl
          rw [announce_apply, announce_apply, eventOf, eventOf, hm, clock]
          dsimp only
          rw [same]
          split
          · rfl
          · split <;> rfl
        · have published := announce_of_refusable hm mild
          exact published.trans (announce_of_refusable (s := s.withRefusals p k) hm mild').symm
      · rw [reached, reached']
        exact ⟨p, k, rfl, hp, hk⟩

theorem SignalTwins.lockstep_tally (b : Budget) (reason : Reason) {value : Value}
    (hv : value = .int 0 ∨ value = .int 1) :
    Lockstep SignalTwins Effect.isAct (tally b reason value) (tally b reason value) := by
  rintro s _ ⟨p, k, rfl, hp, hk⟩
  cases present : s.sink.isPresent with
  | false =>
      have absent : (s.withRefusals p k).sink.isPresent = false := hk.present ▸ present
      rw [tally_absent present, tally_absent absent]
      exact ⟨rfl, ⟨p, k, rfl, hp, hk⟩, rfl⟩
  | true =>
      have present' : (s.withRefusals p k).sink.isPresent = true := hk.present ▸ present
      cases hm : b.metadata with
      | none =>
          rw [tally_unnamed present hm, tally_unnamed present' hm]
          exact ⟨rfl, ⟨p, k, rfl, hp, hk⟩, rfl⟩
      | some m =>
          obtain ⟨reached, acts⟩ := acts_tally present hm reason value
          obtain ⟨reached', acts'⟩ := acts_tally present' hm reason value
          refine ⟨?_, ?_, acts.trans acts'.symm⟩
          · rcases hk.refusal [] (sampleOf m reason value) hv with same | ⟨mild, mild'⟩
            · have same' : ((s.withRefusals p k).sink.record (sampleOf m reason value)).2 =
                (s.sink.record (sampleOf m reason value)).2 := same.symm
              rw [tally_apply, tally_apply, if_pos present, if_pos present', hm]
              dsimp only
              rw [same']
              split
              · rfl
              · split <;> rfl
            · have recorded := tally_of_refusable hm present mild
              exact recorded.trans (tally_of_refusable (s := s.withRefusals p k) hm present' mild').symm
          · rw [reached, reached']
            exact ⟨p, (k.record _).1, rfl, hp, hk.record _⟩

/-- Refusals of events and samples make no difference to detection. -/
theorem alike_withRefusals : Alike SignalTwins Effect.isAct where
  settings := by
    rintro s _ ⟨p, k, rfl, -, -⟩
    exact ⟨s.settings.dryRun, rfl⟩
  now := by
    rintro s _ ⟨p, k, rfl, -, -⟩
    rfl
  ledger := by
    rintro s _ ⟨p, k, rfl, -, -⟩
    rfl
  post := by
    rintro change s _ ⟨p, k, rfl, hp, hk⟩
    exact ⟨p, k, rfl, hp, hk⟩
  listPods := by
    rintro space selector s _ ⟨p, k, rfl, hp, hk⟩
    have listing : (Call.listPods space selector).kind ≠ .createEvent := nofun
    rw [listPods_apply, listPods_apply, planned_withRefusals k hp listing]
    exact ⟨rfl, ⟨p, k, rfl, hp, hk⟩, rfl⟩
  announce := SignalTwins.lockstep_announce
  raise b reason := SignalTwins.lockstep_tally b reason (Or.inr rfl)
  lower b reason := SignalTwins.lockstep_tally b reason (Or.inl rfl)

theorem SignalTwins.lockstep_listBudgets :
    Lockstep SignalTwins Effect.isAct (listBudgets "") (listBudgets "") := by
  rintro s _ ⟨p, k, rfl, hp, hk⟩
  rw [listBudgets_apply, listBudgets_apply, planned_withRefusals k hp (by decide)]
  exact ⟨rfl, ⟨p, k, rfl, hp, hk⟩, rfl⟩

/-! ### Deletion -/

theorem delete_withPlan (c : Cluster) (p : Plan) (key : Key) :
    ({ c with plan := p } : Cluster).delete key =
      (c.delete key).map fun c => { c with plan := p } := by
  unfold Cluster.delete
  change (if !c.isNamed then _ else if c.holds key then _ else _) = _
  split
  · rfl
  · split
    · rfl
    · rfl

theorem plan_of_answerToDelete {c c' : Cluster} {key : Key} (h : c.answerToDelete key = .ok c') :
    c'.plan = c.plan := by
  rw [Cluster.answerToDelete_eq_ok h]
  rfl

theorem answerToDelete_withRefusals {s : Session} {p : Plan} (k : Sink)
    (hp : Plan.DifferInEvents s.cluster.plan p) (key : Key) :
    (s.withRefusals p k).cluster.answerToDelete key =
      (s.cluster.answerToDelete key).map fun c => { c with plan := p } := by
  have deletion : (Call.delete key).kind ≠ .createEvent := nofun
  rw [Cluster.answerToDelete, Cluster.answerToDelete, planned_withRefusals k hp deletion]
  cases s.cluster.planned (.delete key) with
  | some f => rfl
  | none => exact delete_withPlan (s.cluster.count (.delete key)).1 p key

theorem SignalTwins.lockstep_deleteBudget (key : Key) :
    Lockstep SignalTwins Effect.isAct (deleteBudget key) (deleteBudget key) := by
  rintro s _ ⟨p, k, rfl, hp, hk⟩
  rw [deleteBudget_apply, deleteBudget_apply, answerToDelete_withRefusals k hp]
  cases hc : s.cluster.answerToDelete key with
  | error f => exact ⟨rfl, ⟨p, k, rfl, hp, hk⟩, rfl⟩
  | ok c =>
      -- the cluster that a deletion leaves carries its plan along
      have plan : c.plan = s.cluster.plan := plan_of_answerToDelete hc
      exact ⟨rfl, ⟨p, k, rfl, plan.symm ▸ hp, hk⟩, rfl⟩

theorem SignalTwins.lockstep_settings : Lockstep SignalTwins Effect.isAct settings settings := by
  rintro s _ ⟨p, k, rfl, hp, hk⟩
  exact ⟨rfl, ⟨p, k, rfl, hp, hk⟩, rfl⟩

/-- Whole runs stay in lockstep. -/
theorem lockstep_execute : Lockstep SignalTwins Effect.isAct execute execute := by
  have detected : Lockstep SignalTwins Effect.isAct detect detect :=
    alike_withRefusals.detect (fun _ => .say_unseen rfl rfl)
      (alike_withRefusals.scan SignalTwins.lockstep_listBudgets)
  have summarized : Lockstep SignalTwins Effect.isAct summarize summarize :=
    .state_bind fun _ _ _ => .say_unseen rfl rfl
  rw [execute_eq]
  refine .bind detected fun _ s t hR => ?_
  exact alike_withRefusals.conclude SignalTwins.lockstep_settings summarized hR fun entry _ =>
    SignalTwins.lockstep_deleteBudget entry.1

/-! ### How a run ends -/

/-- A failure of a phase is its abort, or one that the program does not know as its own. -/
theorem fails_inPhase (phase : Phase) (a : Pass Unit) :
    Fails (fun f => (∃ phase cause, f = .aborted phase cause) ∨ f.isReported = false)
      (inPhase phase a) := by
  intro s f hf
  rw [inPhase, rephrase_apply] at hf
  cases hr : (a s).result with
  | ok _ =>
      rw [hr] at hf
      cases hf
  | error g =>
      rw [hr] at hf
      obtain rfl : (if g.isReported then .aborted phase g else g) = f := Except.error.inj hf
      split
      · exact Or.inl ⟨phase, g, rfl⟩
      · next foreign => exact Or.inr (eq_false_of_ne_true foreign)

/-- A run completes, is aborted in a phase, or fails with something that is not its own. -/
theorem ends_execute (s : Session) :
    (execute s).result = .ok () ∨
      (∃ phase cause, (execute s).result = .error (.aborted phase cause)) ∨
      ∃ f, (execute s).result = .error f ∧ f.isReported = false := by
  have fails : Fails (fun f => (∃ phase cause, f = .aborted phase cause) ∨ f.isReported = false)
      execute := by
    refine .bind .state fun _ => .bind (.say _) fun _ => .bind (fails_inPhase .scan scan) fun _ => ?_
    refine .bind ?_ fun _ => .bind .state fun _ => .say _
    refine .bind (fails_inPhase .multiple _) fun _ => ?_
    exact .bind (fails_inPhase .blocking _) fun _ => fails_inPhase .deletion _
  cases h : (execute s).result with
  | ok _ => exact Or.inl rfl
  | error f =>
      rcases fails s f h with ⟨phase, cause, rfl⟩ | foreign
      · exact Or.inr (Or.inl ⟨phase, cause, rfl⟩)
      · exact Or.inr (Or.inr ⟨f, rfl, foreign⟩)

/-! ### Signals decide nothing -/

/-- Two runs that differ in refusals of events and samples end alike, find and delete the same and
make the same calls. -/
theorem execute_withRefusals {s : Session} {p : Plan} {k : Sink}
    (hp : Plan.DifferInEvents s.cluster.plan p) (hk : Sink.DifferInRefusals s.sink k) :
    (execute (s.withRefusals p k)).result = (execute s).result ∧
      ((execute s).result = .ok () ∨
        (∃ phase cause, (execute s).result = .error (.aborted phase cause)) ∨
        ∃ f, (execute s).result = .error f ∧ f.isReported = false) ∧
      (execute (s.withRefusals p k)).state.ledger = (execute s).state.ledger ∧
      (execute (s.withRefusals p k)).calls = (execute s).calls ∧
      (execute (s.withRefusals p k)).samples = (execute s).samples := by
  have twins := lockstep_execute s (s.withRefusals p k) ⟨p, k, rfl, hp, hk⟩
  refine ⟨twins.result.symm, ends_execute s, alike_withRefusals.ledger twins.state, ?_, ?_⟩
  · exact (twins.calls_eq fun _ => rfl).symm
  · exact (twins.samples_eq fun _ => rfl).symm

/-- The plan that also rejects every event. -/
def rejectingEvents (p : Plan) : Plan := fun call n =>
  if call.kind = .createEvent then some (.rejected (some 403) (some "Forbidden")) else p call n

theorem differInEvents_rejectingEvents {p : Plan}
    (h : ∀ call n, call.kind = .createEvent → p call n = none) :
    Plan.DifferInEvents p (rejectingEvents p) := by
  intro call n
  by_cases event : call.kind = .createEvent
  · refine Or.inr ⟨event, by simp [h call n event], ?_⟩
    simp [rejectingEvents, event, Fault.isRemote]
  · exact Or.inl (by simp [rejectingEvents, event])

/-- A registry that no gateway is told of. -/
def emptyRegistry : Sink :=
  .registry {} none Sink.defaultJob

/-- A sink that refuses every sample. -/
def refusingSamples : Sink :=
  .scripted (fun _ _ => some (.metrics "full")) 0

theorem differInRefusals_refusingSamples :
    Sink.DifferInRefusals emptyRegistry refusingSamples := by
  refine Sink.differInRefusals_registry {} none Sink.defaultJob 0 fun s n f hf => ?_
  cases hf
  rfl

/-- In the shop every event is rejected and every sample refused, and both budgets are deleted. -/
theorem execute_withRefusals_shop :
    Plan.DifferInEvents (shop Cluster.faultless emptyRegistry).cluster.plan
        (rejectingEvents Cluster.faultless) ∧
      Sink.DifferInRefusals (shop Cluster.faultless emptyRegistry).sink refusingSamples ∧
      (execute (shop Cluster.faultless emptyRegistry)).state.ledger.reaped =
        ["shop/web", "shop/api"] ∧
      (execute ((shop Cluster.faultless emptyRegistry).withRefusals
          (rejectingEvents Cluster.faultless) refusingSamples)).state.ledger =
        (execute (shop Cluster.faultless emptyRegistry)).state.ledger := by
  have events := differInEvents_rejectingEvents (p := Cluster.faultless) fun _ _ _ => rfl
  have same := execute_withRefusals (s := shop Cluster.faultless emptyRegistry) events
    differInRefusals_refusingSamples
  exact ⟨events, differInRefusals_refusingSamples, by rfl, same.2.2.1⟩

/-- A plan under which the operating system cuts off the third listing of pods. -/
def cutListing : Plan := fun call n =>
  if call.kind = .listPods ∧ n = 3 then some (.system "cut off") else none

/-- Runs that end alike need neither complete nor be aborted: in the shop a listing that is cut off
passes through both, after events that one of them has rejected. -/
theorem not_always_completed_or_aborted :
    ¬ ∀ (s : Session) (p : Plan) (k : Sink),
      Plan.DifferInEvents s.cluster.plan p → Sink.DifferInRefusals s.sink k →
        (execute s).result = .ok () ∧ (execute (s.withRefusals p k)).result = .ok () ∨
          ∃ phase cause, (execute s).result = .error (.aborted phase cause) ∧
            (execute (s.withRefusals p k)).result = .error (.aborted phase cause) := by
  intro claimed
  have events : Plan.DifferInEvents cutListing (rejectingEvents cutListing) := by
    refine differInEvents_rejectingEvents fun call n event => ?_
    simp [cutListing, event]
  have cut : (execute (shop cutListing emptyRegistry)).result =
      .error (.fault (.system "cut off")) := by rfl
  rcases claimed (shop cutListing emptyRegistry) (rejectingEvents cutListing) refusingSamples events
    differInRefusals_refusingSamples with ⟨completed, -⟩ | ⟨phase, cause, aborted, -⟩
  · rw [cut] at completed
    cases completed
  · rw [cut] at aborted
    cases aborted

end Pass

end BudgetReaper
