import BudgetReaper.Proofs.Reaping.BestEffort

/-!
# Reaping — events and samples in pairs

A session is *mild* when nothing fails in it but what a run expects to fail: calls by a rejection
or a break of the transport, samples by a failure to record them (`Session.Mild`).  A run stays in
mild sessions, since its plan is that of the beginning and its sink has only been offered samples
(`Replayed.mild`).

In a mild session a signal, an event with the sample of value one that belongs to it, goes through
as a whole (`signal_of_mild`), so a history never ends between the two.

**Pairs** (`announced_execute`).  The budgets and reasons that a run creates events for are those
that it gives samples of value one for, in the same order, whether it completes or not.
-/

namespace BudgetReaper

/-! ### What is announced and what is raised -/

namespace Effect

/-- The budget and the reason that an event is created for. -/
def announced? : Effect → Option (Key × Reason)
  | call (.createEvent space event) => some ((space, event.name), event.reason)
  | _ => none

/-- The budget and the reason that a sample of value one is given for. -/
def raised? : Effect → Option (Key × Reason)
  | sample s => if s.value = .int 1 then some (s.key, s.reason) else none
  | _ => none

end Effect

namespace Outcome

variable {σ α : Type}

/-- The budgets and reasons of the events that an outcome has attempted, in order. -/
def announced (o : Outcome σ α) : List (Key × Reason) :=
  o.trace.filterMap Effect.announced?

/-- The budgets and reasons of the samples of value one of an outcome, in order. -/
def raised (o : Outcome σ α) : List (Key × Reason) :=
  o.trace.filterMap Effect.raised?

end Outcome

/-! ### Mild sessions -/

/-- The sink is there, and what it refuses of zeros and ones it refuses as a failure to record. -/
structure Sink.Mild (k : Sink) : Prop where
  present : k.isPresent = true
  refusal : ∀ offered sample, sample.value = .int 0 ∨ sample.value = .int 1 →
    ∀ f ∈ ((k.after offered).record sample).2, f.isMetrics = true

/-- Calls fail by a rejection or a break of the transport only, and the sink is mild. -/
structure Session.Mild (s : Session) : Prop where
  remote : ∀ call n, ∀ f ∈ s.cluster.plan call n, f.isRemote = true
  sink : s.sink.Mild

theorem Sink.isPresent_after (k : Sink) (offered : List Sample) :
    (k.after offered).isPresent = k.isPresent := by
  induction offered generalizing k with
  | nil => rfl
  | cons s rest ih => exact (ih (k.record s).1).trans (k.isPresent_record s)

theorem Sink.Mild.after {k : Sink} (h : k.Mild) (offered : List Sample) :
    (k.after offered).Mild where
  present := (k.isPresent_after offered).trans h.present
  refusal later := by
    rw [← Sink.after_append]
    exact h.refusal (offered ++ later)

/-- A registry is mild. -/
theorem Sink.mild_registry (r : Registry) (address : Option String) (job : String) :
    (registry r address job).Mild where
  present := rfl
  refusal offered s hs f hf := by
    rw [after_registry, record_registry _ address job hs] at hf
    cases hf

theorem Cluster.plan_serve (c : Cluster) (call : Call) : (c.serve call).1.plan = c.plan := by
  by_cases h : call.kind = .delete
  · cases call with
    | delete key =>
        rw [serve_delete]
        cases ha : c.answerToDelete key with
        | ok without => exact Pass.plan_of_answerToDelete ha
        | error f => rfl
    | listAll | listIn _ | listPods _ _ | createEvent _ _ => cases h
  · rw [serve_of_ne_delete c h]
    rfl

theorem Cluster.plan_after (c : Cluster) (calls : List Call) : (c.after calls).plan = c.plan := by
  induction calls generalizing c with
  | nil => rfl
  | cons call rest ih => exact (ih (c.serve call).1).trans (c.plan_serve call)

/-- A mild session stays mild. -/
theorem Replayed.mild {s t : Session} {l : List Effect} (h : Replayed s l t) (mild : s.Mild) :
    t.Mild where
  remote := by
    rw [h.cluster, Cluster.plan_after]
    exact mild.remote
  sink := by
    rw [h.sink]
    exact mild.sink.after _

namespace Pass

open BudgetReaper.Action

/-! ### Signals -/

/-- An event about a budget, and after a change of the ledger the sample that belongs to it. -/
def signal (b : Budget) (reason : Reason) (change : Ledger → Ledger) : Pass Unit := do
  announce b reason
  post change
  raise b reason

/-- A deletion that has been granted is told, and signalled with its entry in the books. -/
theorem settle_granted (entry : Key × Budget) :
    settle entry true = (do
      say (.removed entry.1.text)
      signal entry.2 .deleted (·.reap entry.1.text)) :=
  rfl

/-- A signal that gets past its event has the event and its sample for its acts. -/
theorem acts_signal {s : Session} (hp : s.sink.isPresent = true) {b : Budget} {m : Metadata}
    (hm : b.metadata = some m) {reason : Reason} (change : Ledger → Ledger)
    (published : (announce b reason s).result = .ok ()) :
    (signal b reason change s).state.ledger = change s.ledger ∧
      (signal b reason change s).trace.filter Effect.isAct =
        [.call (publication (.about b m reason s.now)), .sample (sampleOf m reason (.int 1))] := by
  obtain ⟨counted, call⟩ := acts_announce hm reason s
  obtain ⟨reached, sample⟩ :=
    acts_tally (s := { (announce b reason s).state with
        ledger := change (announce b reason s).state.ledger })
      (by rw [counted]; exact hp) hm reason (.int 1)
  rw [signal, bind_of_ok published, post, update_bind]
  refine ⟨?_, ?_⟩
  · change (tally b reason (.int 1) _).state.ledger = _
    rw [reached, counted]
    rfl
  · change ((announce b reason s).trace ++ (tally b reason (.int 1) _).trace).filter _ = _
    rw [List.filter_append, call, sample]
    rfl

/-- In a mild session a signal goes through as a whole. -/
theorem signal_of_mild {s : Session} (mild : s.Mild) {b : Budget} {m : Metadata}
    (hm : b.metadata = some m) (reason : Reason) (change : Ledger → Ledger) :
    (announce b reason s).result = .ok () ∧ (signal b reason change s).result = .ok () := by
  have published : (announce b reason s).result = .ok () :=
    announce_of_refusable hm (mild.remote (publication (.about b m reason s.now)) _)
  have counted := (acts_announce hm reason s).1
  have recorded : (tally b reason (.int 1) { (announce b reason s).state with
      ledger := change (announce b reason s).state.ledger }).result = .ok () := by
    rw [counted]
    exact tally_of_refusable hm mild.sink.present
      (mild.sink.refusal [] (sampleOf m reason (.int 1)) (Or.inr rfl))
  refine ⟨published, ?_⟩
  rw [signal, bind_of_ok published, post, update_bind]
  exact recorded

/-- A signal about a budget without metadata fails before it has any effect. -/
theorem signal_unnamed {b : Budget} (hm : b.metadata = none) (reason : Reason)
    (change : Ledger → Ledger) (s : Session) :
    signal b reason change s = ⟨.error (.missing "name"), s, []⟩ := by
  have failed : (announce b reason s).result = .error (.missing "name") := by
    rw [announce_unnamed hm]
  rw [signal, bind_of_error failed, announce_unnamed hm]

/-! ### Pairs -/

/-- From a mild session on, each event is followed by the sample that belongs to it. -/
structure Paired (s : Session) (l : List Effect) (t : Session) : Prop where
  replayed : Replayed s l t
  paired : s.Mild → l.filterMap Effect.announced? = l.filterMap Effect.raised?

instance : Law.Composes Paired where
  rest s := ⟨Law.Composes.rest s, fun _ => rfl⟩
  append h h' := by
    refine ⟨Law.Composes.append h.replayed h'.replayed, fun mild => ?_⟩
    rw [List.filterMap_append, List.filterMap_append, h.paired mild,
      h'.paired (h.replayed.mild mild)]

/-- A step that neither announces nor raises. -/
theorem paired_of_silent {α : Type} {a : Action Session α} (replayed : Obeys Replayed a)
    (silent : Emits (fun e => e.announced? = none ∧ e.raised? = none) a) : Obeys Paired a := by
  refine fun s => ⟨replayed s, fun _ => ?_⟩
  rw [List.filterMap_eq_nil_iff.mpr fun e he => (silent s e he).1,
    List.filterMap_eq_nil_iff.mpr fun e he => (silent s e he).2]

theorem paired_say (n : Notice) : Obeys Paired (say n) :=
  paired_of_silent (replayed_say n) (.say ⟨rfl, rfl⟩)

theorem paired_signal (b : Budget) (reason : Reason) (change : Ledger → Ledger) :
    Obeys Paired (signal b reason change) := by
  intro s
  refine ⟨?_, fun mild => ?_⟩
  · exact Obeys.bind (replayed_announce b reason)
      (fun _ => .bind (replayed_post change) fun _ => replayed_tally b reason _) s
  · cases hm : b.metadata with
    | none =>
        rw [signal_unnamed hm]
        rfl
    | some m =>
        have published := (signal_of_mild mild hm reason change).1
        obtain ⟨-, acts⟩ := acts_signal mild.sink.present hm change published
        rw [← Effect.filterMap_acts _ (fun _ => rfl), ← Effect.filterMap_acts Effect.raised? (fun _ => rfl), acts]
        rfl

theorem paired_lower (b : Budget) (reason : Reason) : Obeys Paired (lower b reason) :=
  paired_of_silent (replayed_tally b reason _) (emits_tally (fun _ => ⟨rfl, rfl⟩) fun _ _ => ⟨rfl, rfl⟩)

theorem paired_settle (entry : Key × Budget) (gone : Bool) :
    Obeys Paired (settle entry gone) :=
  .ite (.bind (paired_say _) fun _ => paired_signal entry.2 .deleted (·.reap entry.1.text))
    (paired_say _)

theorem paired_deleteBudget (key : Key) : Obeys Paired (deleteBudget key) :=
  paired_of_silent (replayed_deleteBudget key) (emits_deleteBudget ⟨rfl, rfl⟩)

theorem paired_execute : Obeys Paired execute := by
  have probing : Probing Paired := by
    refine ⟨paired_say, fun change _ => ?_, ?_, fun space selector => ?_, fun b reason _ => ?_,
      paired_lower⟩
    · exact paired_of_silent (replayed_post change) (.update _)
    · exact paired_of_silent replayed_listBudgets (emits_listBudgets ⟨rfl, rfl⟩)
    · exact paired_of_silent (replayed_listPods space selector) (emits_listPods ⟨rfl, rfl⟩)
    · exact paired_signal b reason id
  rw [execute_eq]
  refine .bind probing.detect fun _ => fun s => ?_
  exact obeys_conclude paired_say fun entry _ =>
    .bind (paired_deleteBudget entry.1) (paired_settle entry)

/-- From a mild session a run creates events and gives samples of value one for the same budgets and
reasons, in the same order. -/
theorem announced_execute {s : Session} (mild : s.Mild) :
    (execute s).announced = (execute s).raised :=
  (paired_execute s).paired mild

end Pass

end BudgetReaper
