import BudgetReaper.Proofs.Reaping.FailSafe
import BudgetReaper.Proofs.Registry

/-!
# Reaping — the cluster's own account

The record of a run's calls, played again to the cluster that the run began with, tells how each of
them was answered (`Cluster.account`): which deletions were granted, and which calls failed and
with which fault.  Nothing of the run is needed for that but its calls.

**Replay** (`replayed_execute`).  The cluster that a run leaves is the one that its calls lead to,
and the sink is the one that its samples lead to, whatever failed in between.  So the account is
the true one: a call of the run met the very cluster that the replay shows to it.
-/

namespace BudgetReaper

/-! ### Calls played to a cluster -/

namespace Cluster

/-- The cluster after a call, and the fault with which the call has failed. -/
def serve (c : Cluster) (call : Call) : Cluster × Option Fault :=
  let counted := (c.count call).1
  match c.planned call with
  | some f => (counted, some f)
  | none =>
    match call with
    | .delete key =>
      match counted.delete key with
      | .ok without => (without, none)
      | .error f => (counted, some f)
    | .listIn space =>
      match counted.listIn space with
      | .ok _ => (counted, none)
      | .error f => (counted, some f)
    | .listAll | .listPods .. | .createEvent .. => (counted, none)

/-- The cluster after calls. -/
def after (c : Cluster) (calls : List Call) : Cluster :=
  calls.foldl (fun c call => (c.serve call).1) c

/-- Calls in order, each with the fault with which it has failed. -/
def account (c : Cluster) : List Call → List (Call × Option Fault)
  | [] => []
  | call :: rest => (call, (c.serve call).2) :: (c.serve call).1.account rest

/-- The key that an answered call has deleted. -/
def granted? : Call × Option Fault → Option Key
  | (.delete key, none) => some key
  | _ => none

/-- The keys whose deletion is granted among calls, in order. -/
def granted (c : Cluster) (calls : List Call) : List Key :=
  (c.account calls).filterMap granted?

theorem after_append (c : Cluster) (calls calls' : List Call) :
    c.after (calls ++ calls') = (c.after calls).after calls' :=
  List.foldl_append

theorem account_append (c : Cluster) (calls calls' : List Call) :
    c.account (calls ++ calls') = c.account calls ++ (c.after calls).account calls' := by
  induction calls generalizing c with
  | nil => rfl
  | cons call rest ih => exact congrArg (_ :: ·) (ih (c.serve call).1)

theorem granted_append (c : Cluster) (calls calls' : List Call) :
    c.granted (calls ++ calls') = c.granted calls ++ (c.after calls).granted calls' := by
  rw [granted, account_append, List.filterMap_append]
  rfl

/-- The account tells of the calls, and of no other. -/
theorem map_fst_account (c : Cluster) (calls : List Call) :
    (c.account calls).map Prod.fst = calls := by
  induction calls generalizing c with
  | nil => rfl
  | cons call rest ih => exact congrArg (call :: ·) (ih (c.serve call).1)

/-- A call that deletes nothing is counted, and nothing else changes. -/
theorem serve_of_ne_delete (c : Cluster) {call : Call} (h : call.kind ≠ .delete) :
    (c.serve call).1 = (c.count call).1 := by
  unfold serve
  cases c.planned call with
  | some f => rfl
  | none =>
      cases call with
      | delete key => exact absurd rfl h
      | listIn space => dsimp only; split <;> rfl
      | listAll | listPods _ _ | createEvent _ _ => rfl

/-- Where no call deletes, no deletion is granted. -/
theorem granted_of_ne_delete (c : Cluster) {calls : List Call}
    (h : ∀ call ∈ calls, call.kind ≠ .delete) : c.granted calls = [] := by
  refine List.filterMap_eq_nil_iff.mpr fun answered ha => ?_
  obtain ⟨call, fault⟩ := answered
  have called : call ∈ calls := map_fst_account c calls ▸ List.mem_map_of_mem ha
  cases call with
  | delete key => exact absurd rfl (h _ called)
  | listAll | listIn _ | listPods _ _ | createEvent _ _ => rfl

/-- The answer to a deletion, as the cluster tells of it. -/
theorem serve_delete (c : Cluster) (key : Key) :
    c.serve (.delete key) =
      match c.answerToDelete key with
      | .ok without => (without, none)
      | .error f => ((c.count (.delete key)).1, some f) := by
  unfold serve answerToDelete
  cases c.planned (.delete key) with
  | some f => rfl
  | none => rfl

end Cluster

/-! ### Samples offered to a sink -/

namespace Sink

/-- The sink after samples have been offered to it. -/
def after (k : Sink) (offered : List Sample) : Sink :=
  offered.foldl (fun k s => (k.record s).1) k

theorem after_append (k : Sink) (offered offered' : List Sample) :
    k.after (offered ++ offered') = (k.after offered).after offered' :=
  List.foldl_append

theorem after_registry (r : Registry) (address : Option String) (job : String)
    (offered : List Sample) :
    (registry r address job).after offered = registry (r.collect offered) address job := by
  induction offered generalizing r with
  | nil => rfl
  | cons s rest ih => exact ih (set r (.str Exposition.resultName) s.tags s.value).1

end Sink

/-! ### Replay -/

/-- The cluster and the sink in the end are those that the calls and the samples lead to. -/
structure Replayed (s : Session) (l : List Effect) (t : Session) : Prop where
  cluster : t.cluster = s.cluster.after (l.filterMap Effect.call?)
  sink : t.sink = s.sink.after (l.filterMap Effect.sample?)

instance : Law.Composes Replayed where
  rest _ := ⟨rfl, rfl⟩
  append h h' := by
    refine ⟨?_, ?_⟩
    · rw [List.filterMap_append, Cluster.after_append, ← h.cluster, h'.cluster]
    · rw [List.filterMap_append, Sink.after_append, ← h.sink, h'.sink]

namespace Pass

open BudgetReaper.Action

/-- A history whose only act is a call that deletes nothing. -/
theorem replayed_call {s : Session} {l : List Effect} {call : Call} (h : call.kind ≠ .delete)
    (acts : l.filter Effect.isAct = [.call call]) : Replayed s l (s.counted call) where
  cluster := by
    rw [← Effect.filterMap_acts _ (fun _ => rfl), acts]
    exact (s.cluster.serve_of_ne_delete h).symm
  sink := by
    rw [← Effect.filterMap_acts _ (fun _ => rfl), acts]
    rfl

theorem replayed_say (n : Notice) : Obeys Replayed (say n) :=
  fun _ => ⟨rfl, rfl⟩

theorem replayed_post (change : Ledger → Ledger) : Obeys Replayed (post change) :=
  fun _ => ⟨rfl, rfl⟩

theorem replayed_announce (b : Budget) (reason : Reason) : Obeys Replayed (announce b reason) := by
  intro s
  cases hm : b.metadata with
  | none =>
      rw [announce_unnamed hm]
      exact Law.Composes.rest s
  | some m =>
      obtain ⟨reached, acts⟩ := acts_announce hm reason s
      rw [reached]
      exact replayed_call nofun acts

theorem replayed_tally (b : Budget) (reason : Reason) (value : Value) :
    Obeys Replayed (tally b reason value) := by
  intro s
  cases hp : s.sink.isPresent with
  | false =>
      rw [tally_absent hp]
      exact Law.Composes.rest s
  | true =>
      cases hm : b.metadata with
      | none =>
          rw [tally_unnamed hp hm]
          exact Law.Composes.rest s
      | some m =>
          obtain ⟨reached, acts⟩ := acts_tally hp hm reason value
          rw [reached]
          refine ⟨?_, ?_⟩
          · rw [← Effect.filterMap_acts _ (fun _ => rfl), acts]
            rfl
          · rw [← Effect.filterMap_acts _ (fun _ => rfl), acts]
            rfl

theorem replayed_deleteBudget (key : Key) : Obeys Replayed (deleteBudget key) := by
  intro s
  have served := s.cluster.serve_delete key
  rw [deleteBudget_apply]
  cases h : s.cluster.answerToDelete key with
  | ok without =>
      rw [h] at served
      exact ⟨(congrArg Prod.fst served).symm, rfl⟩
  | error f =>
      rw [h] at served
      exact ⟨(congrArg Prod.fst served).symm, rfl⟩

theorem replayed_settle (entry : Key × Budget) (gone : Bool) :
    Obeys Replayed (settle entry gone) := by
  refine .ite (.bind (replayed_say _) fun _ => ?_) (replayed_say _)
  refine .bind (replayed_announce _ _) fun _ => .bind (replayed_post _) fun _ => ?_
  exact replayed_tally _ _ _

theorem replayed_listBudgets : Obeys Replayed (listBudgets "") := by
  intro s
  rw [listBudgets_apply]
  exact replayed_call nofun rfl

theorem replayed_listPods (space : Option String) (selector : String) :
    Obeys Replayed (listPods space selector) := by
  intro s
  rw [listPods_apply]
  exact replayed_call nofun rfl

theorem probing_replayed : Probing Replayed := by
  refine ⟨replayed_say, fun change _ => replayed_post change, replayed_listBudgets,
    replayed_listPods, fun b reason _ => ?_, fun b reason => replayed_tally b reason _⟩
  exact .bind (replayed_announce b reason) fun _ => replayed_tally b reason _

theorem replayed_detect : Obeys Replayed detect :=
  probing_replayed.detect

theorem replayed_remove (entry : Key × Budget) : Obeys Replayed (remove entry) :=
  obeys_remove replayed_say (.bind (replayed_deleteBudget entry.1) (replayed_settle entry))

theorem replayed_conclude : Obeys Replayed conclude :=
  fun _ => obeys_conclude replayed_say fun entry _ =>
    .bind (replayed_deleteBudget entry.1) (replayed_settle entry)

/-- The cluster and the sink that a run leaves are those that its calls and its samples lead to. -/
theorem replayed_execute : Obeys Replayed execute := by
  rw [execute_eq]
  exact .bind replayed_detect fun _ => replayed_conclude

/-- A run leaves the registry that has collected its samples, with the same gateway. -/
theorem registry_execute {s : Session} {r : Registry} {address : Option String} {job : String}
    (start : s.sink = .registry r address job) :
    (execute s).state.sink = .registry (r.collect (execute s).samples) address job := by
  rw [(replayed_execute s).sink, start]
  exact Sink.after_registry r address job _

end Pass

end BudgetReaper
