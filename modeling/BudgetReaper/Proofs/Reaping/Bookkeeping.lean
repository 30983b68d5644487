import BudgetReaper.Proofs.Reaping.Admission
import BudgetReaper.Proofs.Reaping.Pairing

/-!
# Reaping — the books of the deletion

A run keeps four records of what it deletes: its calls, the names in its ledger, its events and its
samples.  What has been deleted is told by the cluster's own account of the calls
(`Cluster.granted`), and the other three are compared with it.

The disposal of one marked budget has three outcomes (`Disposal`): the deletion is granted, finds
nothing, or fails otherwise.  Only the first enters anything into the books, and then into all of
them (`Booked`); only the last ends the phase (`Answered`).

**Exact books** (`exactDeletion`).  In every run of a mild session that is not dry, completed or
not, the names in the ledger, the events of deletions and their samples are those of the deletions
granted, in order.
-/

namespace BudgetReaper

/-! ### Deletions in an account -/

namespace Cluster

variable {c : Cluster} {key : Key}

theorem isNamed_serve (h : c.isNamed = true) (call : Call) :
    (c.serve call).1.isNamed = true := by
  by_cases deletion : call.kind = .delete
  · cases call with
    | delete key =>
        rw [serve_delete]
        cases ha : c.answerToDelete key with
        | error f => exact h
        | ok without =>
            rw [answerToDelete_eq_ok ha]
            exact isNamed_without (c := (c.count (.delete key)).1) h key
    | listAll | listIn _ | listPods _ _ | createEvent _ _ => cases deletion
  · rw [serve_of_ne_delete c deletion]
    exact h

theorem isNamed_after (h : c.isNamed = true) (calls : List Call) :
    (c.after calls).isNamed = true := by
  induction calls generalizing c with
  | nil => exact h
  | cons call rest ih => exact ih (isNamed_serve h call)

/-- The keys granted among calls that begin with a deletion. -/
theorem granted_delete (c : Cluster) (key : Key) (calls : List Call) :
    c.granted (.delete key :: calls) =
      (if (c.serve (.delete key)).2 = none then [key] else []) ++
        (c.serve (.delete key)).1.granted calls := by
  rw [granted, account, List.filterMap_cons]
  cases (c.serve (.delete key)).2 with
  | none => rfl
  | some f => rfl

/-- What is granted has been asked for, in the same order. -/
theorem sublist_granted (c : Cluster) (calls : List Call) :
    (c.granted calls).Sublist (calls.filterMap fun call => (Effect.call call).deleted?) := by
  induction calls generalizing c with
  | nil => exact List.nil_sublist _
  | cons call rest ih =>
      cases call with
      | delete key =>
          rw [granted_delete]
          split
          · exact (ih _).cons_cons key
          · exact (ih _).cons key
      | listAll | listIn _ | listPods _ _ | createEvent _ _ => exact ih _

end Cluster

namespace Pass

open BudgetReaper.Action

/-! ### One budget -/

/-- What the disposal of a marked budget with metadata `m` comes to: its deletion is granted and
goes into the books, or it finds nothing, or it fails otherwise. -/
inductive Disposal (entry : Key × Budget) (m : Metadata) (s : Session)
    (o : Outcome Session Unit) : Prop
  | granted (answer : (s.cluster.serve (.delete entry.1)).2 = none) (result : o.result = .ok ())
      (ledger : o.state.ledger = s.ledger.reap entry.1.text)
      (acts : o.trace.filter Effect.isAct =
        [.call (.delete entry.1), .call (publication (.about entry.2 m .deleted s.now)),
          .sample (sampleOf m .deleted (.int 1))])
  | gone (f : Fault) (answer : (s.cluster.serve (.delete entry.1)).2 = some f)
      (missing : f.isNotFound = true) (result : o.result = .ok ())
      (ledger : o.state.ledger = s.ledger)
      (acts : o.trace.filter Effect.isAct = [.call (.delete entry.1)])
  | failed (f : Fault) (answer : (s.cluster.serve (.delete entry.1)).2 = some f)
      (missing : f.isNotFound = false)
      (result : o.result = .error (failureOf (.delete entry.1) f))
      (ledger : o.state.ledger = s.ledger)
      (acts : o.trace.filter Effect.isAct = [.call (.delete entry.1)])

/-- Where signals go through, or have gone through, the disposal of a budget is one of the three. -/
theorem disposal {entry : Key × Budget} {m : Metadata} {s : Session}
    (hm : entry.2.metadata = some m) (present : s.sink.isPresent = true)
    (goes : s.Mild ∨ ((deleteBudget entry.1 >>= settle entry) s).result = .ok ()) :
    Disposal entry m s ((deleteBudget entry.1 >>= settle entry) s) := by
  have served := s.cluster.serve_delete entry.1
  cases ha : s.cluster.answerToDelete entry.1 with
  | ok without =>
      rw [ha] at served
      have deleted := deleteBudget_of_ok ha
      have mild (h : s.Mild) : Session.Mild { s with cluster := without } := by
        have replayed := replayed_deleteBudget entry.1 s
        rw [deleted] at replayed
        exact replayed.mild h
      rw [bind_of_ok (x := true) (by rw [deleted]), deleted, settle_granted, say_bind] at goes ⊢
      obtain ⟨published, done⟩ :
          (announce entry.2 .deleted { s with cluster := without }).result = .ok () ∧
            (signal entry.2 .deleted (·.reap entry.1.text)
              { s with cluster := without }).result = .ok () := by
        rcases goes with h | done
        · exact signal_of_mild (mild h) hm .deleted _
        · obtain ⟨_, published, -⟩ := ok_of_bind done
          exact ⟨published, done⟩
      obtain ⟨ledger, acts⟩ := acts_signal (s := { s with cluster := without }) present hm
        (·.reap entry.1.text) published
      refine .granted (congrArg Prod.snd served) done ledger ?_
      exact congrArg (Effect.call (.delete entry.1) :: ·) acts
  | error f =>
      rw [ha] at served
      have answer : (s.cluster.serve (.delete entry.1)).2 = some f := congrArg Prod.snd served
      have refused := deleteBudget_of_error ha
      cases hf : f.isNotFound with
      | true =>
          rw [hf, if_pos rfl] at refused
          rw [bind_of_ok (x := false) (by rw [refused]), refused]
          exact .gone f answer hf rfl rfl rfl
      | false =>
          rw [hf, if_neg Bool.false_ne_true] at refused
          rw [bind_of_error (by rw [refused]), refused]
          exact .failed f answer hf rfl rfl rfl

/-- Outside of a dry run, a removal is its disposal and what is said before. -/
theorem removal {entry : Key × Budget} {m : Metadata} {s : Session}
    (hm : entry.2.metadata = some m) (wet : s.settings.dryRun.holds = false)
    (present : s.sink.isPresent = true) (goes : s.Mild ∨ (remove entry s).result = .ok ()) :
    Disposal entry m s (remove entry s) := by
  rw [remove_of_wet wet] at goes ⊢
  cases disposal hm present goes with
  | granted answer result ledger acts => exact .granted answer result ledger acts
  | gone f answer missing result ledger acts => exact .gone f answer missing result ledger acts
  | failed f answer missing result ledger acts => exact .failed f answer missing result ledger acts

/-- The sample of a budget that has been deleted. -/
def deletionOf (key : Key) : Sample :=
  ⟨key, .deleted, .int 1⟩

namespace Disposal

variable {entry : Key × Budget} {m : Metadata} {s : Session} {o : Outcome Session Unit}

/-- What a disposal is granted goes into all the books, and nothing else does. -/
theorem entered (h : Disposal entry m s o) (named : m.key = entry.1) :
    o.state.ledger.reaped = s.ledger.reaped ++ (s.cluster.granted o.calls).map Key.text ∧
      o.announced.filter (·.2 = .deleted) = (s.cluster.granted o.calls).map (·, .deleted) ∧
        o.samples = (s.cluster.granted o.calls).map deletionOf := by
  rw [Outcome.calls, Outcome.announced, Outcome.samples,
    ← Effect.filterMap_acts Effect.call? fun _ => rfl,
    ← Effect.filterMap_acts Effect.announced? fun _ => rfl,
    ← Effect.filterMap_acts Effect.sample? fun _ => rfl]
  cases h with
  | granted answer result ledger acts =>
      rw [ledger, acts]
      have granted : s.cluster.granted [.delete entry.1,
          publication (.about entry.2 m .deleted s.now)] = [entry.1] := by
        rw [Cluster.granted_delete, if_pos answer]
        rfl
      change _ = _ ++ (s.cluster.granted [.delete entry.1, publication _]).map _ ∧
        _ = (s.cluster.granted [.delete entry.1, publication _]).map _ ∧
          _ = (s.cluster.granted [.delete entry.1, publication _]).map _
      rw [granted, ← named]
      exact ⟨rfl, rfl, rfl⟩
  | gone f answer missing result ledger acts | failed f answer missing result ledger acts =>
      rw [ledger, acts]
      have granted : s.cluster.granted [.delete entry.1] = [] := by
        rw [Cluster.granted_delete, answer]
        rfl
      change _ = _ ++ (s.cluster.granted [.delete entry.1]).map _ ∧
        _ = (s.cluster.granted [.delete entry.1]).map _ ∧
          _ = (s.cluster.granted [.delete entry.1]).map _
      rw [granted]
      exact ⟨(List.append_nil _).symm, rfl, rfl⟩

end Disposal

/-! ### The books -/

/-- From a mild session on, the names in the ledger and the events of deletions are those of the
deletions granted. -/
structure Booked (s : Session) (l : List Effect) (t : Session) : Prop where
  replayed : Replayed s l t
  reaped : s.Mild → t.ledger.reaped =
    s.ledger.reaped ++ (s.cluster.granted (l.filterMap Effect.call?)).map Key.text
  announced : s.Mild → (l.filterMap Effect.announced?).filter (·.2 = .deleted) =
    (s.cluster.granted (l.filterMap Effect.call?)).map (·, .deleted)

instance : Law.Composes Booked where
  rest s := ⟨Law.Composes.rest s, fun _ => (List.append_nil _).symm, fun _ => rfl⟩
  append h h' := by
    refine ⟨Law.Composes.append h.replayed h'.replayed, fun mild => ?_, fun mild => ?_⟩
    · rw [h'.reaped (h.replayed.mild mild), h.reaped mild, List.filterMap_append,
        Cluster.granted_append, ← h.replayed.cluster, List.map_append, List.append_assoc]
    · rw [List.filterMap_append, List.filter_append, h.announced mild,
        h'.announced (h.replayed.mild mild), List.filterMap_append, Cluster.granted_append,
        ← h.replayed.cluster, List.map_append]

/-- No probe is granted a deletion. -/
theorem granted_of_probes (c : Cluster) {l : List Effect} (probes : ∀ e ∈ l, e.IsProbe) :
    c.granted (l.filterMap Effect.call?) = [] := by
  refine c.granted_of_ne_delete fun call hc deletion => ?_
  obtain ⟨e, he, ec⟩ := List.mem_filterMap.mp hc
  rw [Effect.call?_eq_some_iff.mp ec] at he
  cases call with
  | delete key => exact probes _ he
  | listAll | listIn _ | listPods _ _ | createEvent _ _ => cases deletion

/-- What only probes leaves the books alone. -/
theorem booked_of_probes {s t : Session} {l : List Effect} (replayed : Replayed s l t)
    (kept : t.ledger.reaped = s.ledger.reaped) (probes : ∀ e ∈ l, e.IsProbe) : Booked s l t := by
  have none_granted := granted_of_probes s.cluster probes
  refine ⟨replayed, fun _ => ?_, fun _ => ?_⟩
  · rw [none_granted, kept]
    exact (List.append_nil _).symm
  · rw [none_granted]
    refine List.filter_eq_nil_iff.mpr fun told ht => ?_
    obtain ⟨e, he, ee⟩ := List.mem_filterMap.mp ht
    have probe := probes e he
    unfold Effect.announced? at ee
    split at ee
    · obtain rfl := Option.some.inj ee
      exact fun deleted => probe (of_decide_eq_true deleted)
    · cases ee

theorem booked_detect : Obeys Booked detect := by
  have kept : Keeps (fun s : Session => s.ledger.reaped) detect :=
    keeps_detect (fun _ _ => rfl) (fun _ _ => rfl) fun s _ unbooked => unbooked s.ledger
  exact fun s => booked_of_probes (replayed_detect s) (kept s) (emits_detect s)

/-- The disposal of a marked budget books its deletion, if that is granted. -/
theorem booked_disposal {entry : Key × Budget} (own : entry.2.key? = some entry.1) :
    Obeys Booked (deleteBudget entry.1 >>= settle entry) := by
  obtain ⟨m, hm, named⟩ := Option.map_eq_some_iff.mp own
  intro s
  have replayed : Obeys Replayed (deleteBudget entry.1 >>= settle entry) :=
    .bind (replayed_deleteBudget entry.1) (replayed_settle entry)
  have entered (mild : s.Mild) := (disposal hm mild.sink.present (Or.inl mild)).entered named
  exact ⟨replayed s, fun mild => (entered mild).1, fun mild => (entered mild).2.1⟩

/-- A run from an empty ledger keeps the books, whether it completes or not. -/
theorem booked_execute {s : Session} (fresh : s.ledger = {}) :
    Booked s (execute s).trace (execute s).state := by
  cases hd : (detect s).result with
  | error f =>
      rw [execute_of_error hd]
      exact booked_detect s
  | ok _ =>
      rw [execute_of_ok hd]
      refine Law.Composes.append (booked_detect s) (obeys_conclude (fun n t => ?_) fun entry he => ?_)
      · exact booked_of_probes (replayed_say n t) rfl (Emits.say trivial t)
      · exact booked_disposal (offends_of_mem_detect fresh hd he).1

/-! ### Deletions that fail -/

/-- How the account of a run and its result go on after a deletion that has failed. -/
structure Answered (account : List (Call × Option Fault)) (result : Except Failure Unit) :
    Prop where
  /-- One that found nothing is the last of all, or the next deletion follows. -/
  gone : ∀ before key f after, account = before ++ (.delete key, some f) :: after →
    f.isNotFound = true → (after = [] ∧ result = .ok ()) ∨
      ∃ next answer rest, after = (.delete next, answer) :: rest
  /-- Any other one is the last call, and its failure aborts the phase. -/
  stopped : ∀ before key f after, account = before ++ (.delete key, some f) :: after →
    f.isNotFound = false →
      after = [] ∧ result = .error (.aborted .deletion (.call (.delete key) f))

namespace Answered

variable {a a' : List (Call × Option Fault)} {r : Except Failure Unit}

/-- A part of an account before which no deletion has failed. -/
theorem append (granted : ∀ key f, (Call.delete key, some f) ∉ a) (h : Answered a' r) :
    Answered (a ++ a') r := by
  have later {before after : List (Call × Option Fault)} {key : Key} {f : Fault}
      (ha : a ++ a' = before ++ (.delete key, some f) :: after) :
      ∃ mid, a' = mid ++ (.delete key, some f) :: after := by
    rcases List.append_eq_append_iff.mp ha with ⟨mid, rfl, rest⟩ | ⟨mid, rfl, rest⟩
    · exact ⟨mid, rest⟩
    · cases mid with
      | nil => exact ⟨[], rest.symm⟩
      | cons answered mid =>
          obtain ⟨rfl, -⟩ := List.cons.inj rest
          exact absurd (List.mem_append_right _ (List.mem_cons_self ..)) (granted key f)
  refine ⟨fun before key f after ha => ?_, fun before key f after ha => ?_⟩
  · obtain ⟨mid, rest⟩ := later ha
    exact h.gone mid key f after rest
  · obtain ⟨mid, rest⟩ := later ha
    exact h.stopped mid key f after rest

theorem of_granted (granted : ∀ key f, (Call.delete key, some f) ∉ a) : Answered a r := by
  refine ⟨fun before key f after ha => ?_, fun before key f after ha => ?_⟩ <;>
    exact absurd (ha ▸ List.mem_append_right _ (List.mem_cons_self ..)) (granted key f)

/-- A deletion that has failed is followed by an account of which nothing else is to be said. -/
theorem cons {key : Key} {f : Fault} (h : Answered a r)
    (gone : f.isNotFound = true → (a = [] ∧ r = .ok ()) ∨
      ∃ next answer rest, a = (.delete next, answer) :: rest)
    (stopped : f.isNotFound = false →
      a = [] ∧ r = .error (.aborted .deletion (.call (.delete key) f))) :
    Answered ((.delete key, some f) :: a) r := by
  refine ⟨fun before key f after ha => ?_, fun before key f after ha => ?_⟩
  · cases before with
    | nil =>
        obtain ⟨⟨⟩, rfl⟩ := List.cons.inj ha
        exact gone
    | cons _ before => exact h.gone before key f after (List.cons.inj ha).2
  · cases before with
    | nil =>
        obtain ⟨⟨⟩, rfl⟩ := List.cons.inj ha
        exact stopped
    | cons _ before => exact h.stopped before key f after (List.cons.inj ha).2

end Answered

/-- A session in which a run can be at its deletions: mild, not dry, and with metadata for every
budget of the cluster. -/
structure Deleting (s : Session) : Prop where
  mild : s.Mild
  named : s.cluster.isNamed = true
  wet : s.settings.dryRun.holds = false

namespace Deleting

variable {s : Session}

/-- A removal leaves a session in which the next deletion can be made. -/
theorem remove (h : Deleting s) (entry : Key × Budget) : Deleting (remove entry s).state where
  mild := (replayed_remove entry s).mild h.mild
  named := (replayed_remove entry s).cluster ▸ Cluster.isNamed_after h.named _
  wet := by
    have kept : (Pass.remove entry s).state.settings = s.settings :=
      keeps_remove (fun _ _ => rfl) (fun _ _ => rfl) (fun _ _ => rfl) entry s
    rw [kept]
    exact h.wet

/-- The fault of a deletion is remote. -/
theorem isRemote (h : Deleting s) {key : Key} {f : Fault}
    (answer : (s.cluster.serve (.delete key)).2 = some f) : f.isRemote = true := by
  rw [Cluster.serve_delete] at answer
  cases ha : s.cluster.answerToDelete key with
  | ok without =>
      rw [ha] at answer
      cases answer
  | error g =>
      rw [ha] at answer
      obtain rfl : g = f := Option.some.inj answer
      rcases Cluster.answerToDelete_eq_error h.named ha with planned | rfl
      · exact h.mild.remote _ _ g planned
      · rfl

end Deleting

/-- The removal of a budget that is past, and then those of the rest, in the account. -/
theorem account_forEach_of_ok {entry : Key × Budget} {s : Session}
    (past : (remove entry s).result = .ok ()) (rest : List (Key × Budget)) :
    s.cluster.account (forEach remove (entry :: rest) s).calls =
      s.cluster.account (remove entry s).calls ++
        (remove entry s).state.cluster.account
          (forEach remove rest (remove entry s).state).calls := by
  rw [forEach, Outcome.calls, bind_of_ok past, List.filterMap_append, Cluster.account_append,
    (replayed_remove entry s).cluster]
  rfl

/-- The account of a removal whose only act is a deletion that is refused. -/
theorem account_of_refused {entry : Key × Budget} {s : Session} {f : Fault}
    (answer : (s.cluster.serve (.delete entry.1)).2 = some f)
    (acts : (remove entry s).trace.filter Effect.isAct = [.call (.delete entry.1)]) :
    s.cluster.account (remove entry s).calls = [(.delete entry.1, some f)] := by
  rw [Outcome.calls, ← Effect.filterMap_acts Effect.call? fun _ => rfl, acts, ← answer]
  rfl

/-- How the removals of marked budgets go on after a deletion that has failed. -/
theorem answered_forEach {entries : List (Key × Budget)} {s : Session} (deleting : Deleting s)
    (own : ∀ entry ∈ entries, entry.2.key? = some entry.1) :
    Answered (s.cluster.account (forEach remove entries s).calls)
      (inPhase .deletion (forEach remove entries) s).result := by
  induction entries generalizing s with
  | nil => exact .of_granted fun _ _ h => absurd h List.not_mem_nil
  | cons entry rest ih =>
      obtain ⟨m, hm, -⟩ := Option.map_eq_some_iff.mp (own entry (List.mem_cons_self ..))
      have next := deleting.remove entry
      have later := ih next fun entry he => own entry (List.mem_cons_of_mem _ he)
      have ends (past : (remove entry s).result = .ok ()) :
          (inPhase .deletion (forEach remove (entry :: rest)) s).result =
            (inPhase .deletion (forEach remove rest) (remove entry s).state).result := by
        rw [inPhase, inPhase, rephrase_apply, rephrase_apply, forEach, bind_of_ok past]
      cases removal hm deleting.wet deleting.mild.sink.present (Or.inl deleting.mild) with
      | granted answer past ledger acts =>
          have first : (remove entry s).calls =
              [.delete entry.1, publication (.about entry.2 m .deleted s.now)] := by
            rw [Outcome.calls, ← Effect.filterMap_acts Effect.call? fun _ => rfl, acts]
            rfl
          rw [account_forEach_of_ok past, ends past, first]
          refine .append (fun key f h => ?_) later
          rcases List.mem_cons.mp h with h | h
          · rw [answer] at h
            cases h
          · cases List.mem_singleton.mp h
      | gone f answer missing past ledger acts =>
          rw [account_forEach_of_ok past, ends past, account_of_refused answer acts]
          refine .cons later (fun _ => ?_) fun h => absurd (missing.symm.trans h) (by decide)
          cases rest with
          | nil => exact Or.inl ⟨rfl, rfl⟩
          | cons entry' rest =>
              obtain ⟨more, asked⟩ := calls_forEach_cons next.wet entry' rest
              rw [asked]
              exact Or.inr ⟨entry'.1, _, _, rfl⟩
      | failed f answer missing failed ledger acts =>
          have aborted : (inPhase .deletion (forEach remove (entry :: rest)) s).result =
              .error (.aborted .deletion (.call (.delete entry.1) f)) := by
            rw [inPhase, rephrase_apply, forEach, bind_of_error failed, failureOf,
              if_pos (deleting.isRemote answer)]
            rfl
          have only : (forEach remove (entry :: rest) s).calls = (remove entry s).calls := by
            rw [forEach, Outcome.calls, bind_of_error failed]
            rfl
          rw [only, account_of_refused answer acts, aborted]
          refine .cons (.of_granted fun _ _ h => absurd h List.not_mem_nil) (fun h => ?_)
            fun _ => ⟨rfl, rfl⟩
          exact absurd (missing.symm.trans h) (by decide)

/-- How a run that is not dry goes on after a deletion that has failed. -/
theorem answered_execute {s : Session} (fresh : s.ledger = {})
    (wet : s.settings.dryRun.holds = false) (mild : s.Mild) :
    Answered (s.cluster.account (execute s).calls) (execute s).result := by
  have probed (key : Key) (f : Fault) :
      (Call.delete key, some f) ∉ s.cluster.account (detect s).calls := by
    intro h
    have called : .delete key ∈ (s.cluster.account (detect s).calls).map Prod.fst :=
      List.mem_map.mpr ⟨_, h, rfl⟩
    rw [Cluster.map_fst_account] at called
    exact emits_detect s _ (Outcome.mem_calls.mp called)
  cases hd : (detect s).result with
  | error f =>
      rw [execute_of_error hd]
      exact .of_granted probed
  | ok _ =>
      have replayed := replayed_detect s
      obtain ⟨same, -⟩ := ledger_detect fresh hd
      have kept : (detect s).state.settings = s.settings := congrArg Evidence.settings same
      have deleting : Deleting (detect s).state :=
        ⟨replayed.mild mild, replayed.cluster ▸ Cluster.isNamed_after (isNamed_of_detected hd) _,
          kept ▸ wet⟩
      have account : s.cluster.account (execute s).calls =
          s.cluster.account (detect s).calls ++
            (detect s).state.cluster.account (conclude (detect s).state).calls := by
        rw [Outcome.calls, execute_of_ok hd, List.filterMap_append, Cluster.account_append,
          replayed.cluster]
        rfl
      rw [account, execute_of_ok hd]
      refine .append probed ?_
      rw [calls_conclude_eq]
      dsimp only
      rw [result_conclude]
      exact answered_forEach deleting fun entry he =>
        (offends_of_mem_detect fresh hd he).1

/-! ### Exact books -/

/-- What a run that is not dry does about the budgets it has marked, and what it records of it. -/
structure ExactDeletion (s : Session) : Prop where
  /-- The keys asked to be deleted are the first of those marked. -/
  asked : (execute s).deletions <+: Assoc.keys (execute s).state.ledger.reapable
  /-- A run that completes has asked for all of them. -/
  all : (execute s).result = .ok () →
    (execute s).deletions = Assoc.keys (execute s).state.ledger.reapable
  /-- The names in the ledger are those of the deletions granted. -/
  reaped : (execute s).state.ledger.reaped =
    (s.cluster.granted (execute s).calls).map Key.text
  /-- The events of deletions are those of the deletions granted. -/
  announced : (execute s).announced.filter (·.2 = .deleted) =
    (s.cluster.granted (execute s).calls).map (·, .deleted)
  /-- The samples of value one of deletions are those of the deletions granted. -/
  raised : (execute s).raised.filter (·.2 = .deleted) =
    (s.cluster.granted (execute s).calls).map (·, .deleted)
  /-- A deletion that finds nothing enters nothing, and the phase goes on: with the next deletion,
  or to the end of the run. -/
  gone : ∀ before key f after,
    s.cluster.account (execute s).calls = before ++ (.delete key, some f) :: after →
      f.isNotFound = true → key ∉ s.cluster.granted (execute s).calls ∧
        ((after = [] ∧ (execute s).result = .ok ()) ∨
          ∃ next answer rest, after = (.delete next, answer) :: rest)
  /-- Any other deletion that fails is the last call, and aborts the run in its second stage. -/
  stopped : ∀ before key f after,
    s.cluster.account (execute s).calls = before ++ (.delete key, some f) :: after →
      f.isNotFound = false → after = [] ∧
        ∃ cause, (execute s).result = .error cause ∧ cause.stage? = some "reap" ∧
          cause = .aborted .deletion (.call (.delete key) f)

/-- A key that is deleted once, and in vain, is not granted. -/
theorem not_granted_of_refused {s : Session} {calls : List Call} {key : Key} {f : Fault}
    {before after : List (Call × Option Fault)}
    (h : s.cluster.account calls = before ++ (.delete key, some f) :: after)
    (once : (calls.filterMap fun call => (Effect.call call).deleted?).Nodup) :
    key ∉ s.cluster.granted calls := by
  intro granted
  obtain ⟨⟨call, answer⟩, answered, hk⟩ := List.mem_filterMap.mp granted
  obtain ⟨rfl, rfl⟩ : call = .delete key ∧ answer = none := by
    unfold Cluster.granted? at hk
    split at hk
    · next own =>
        obtain ⟨rfl, rfl⟩ := Prod.mk.inj own
        exact ⟨congrArg Call.delete (Option.some.inj hk), rfl⟩
    · cases hk
  -- the deletion that is granted stands before or after the one that is not
  have elsewhere : (.delete key, none) ∈ before ++ after := by
    rw [h] at answered
    rcases List.mem_append.mp answered with he | he
    · exact List.mem_append_left _ he
    · rcases List.mem_cons.mp he with he | he
      · cases he
      · exact List.mem_append_right _ he
  have twice : key ∈ ((before ++ after).map Prod.fst).filterMap fun call =>
      (Effect.call call).deleted? :=
    List.mem_filterMap.mpr ⟨.delete key, List.mem_map.mpr ⟨_, elsewhere, rfl⟩, rfl⟩
  rw [← Cluster.map_fst_account s.cluster calls, h, List.map_append, List.filterMap_append] at once
  have apart := List.perm_middle.nodup_iff.mp once
  rw [← List.filterMap_append, ← List.map_append] at apart
  exact (List.nodup_cons.mp apart).1 twice

/-- A run that completes outside of a dry run has asked to delete every marked key. -/
theorem deletions_of_completed {s : Session} (fresh : s.ledger = {})
    (wet : s.settings.dryRun.holds = false) (completed : (execute s).result = .ok ()) :
    (execute s).deletions = Assoc.keys (execute s).state.ledger.reapable := by
  obtain ⟨detected, concluded⟩ := parts_of_completed completed
  have kept : (detect s).state.settings = s.settings :=
    congrArg Evidence.settings (ledger_detect fresh detected).1
  have removed := removed_of_concluded concluded
  rw [deletions_execute, closing_of_ok detected, reapable_execute]
  change (conclude (detect s).state).deletions = _
  rw [Outcome.deletions_eq_calls, calls_conclude_eq, ← Outcome.deletions_eq_calls]
  exact deletions_forEach_of_ok (kept ▸ wet) removed

/-- In a mild session the books of a run that is not dry are exact. -/
theorem exactDeletion {s : Session} (fresh : s.ledger = {})
    (wet : s.settings.dryRun.holds = false) (mild : s.Mild) : ExactDeletion s where
  asked := by
    have asked := deletions_isPrefix fresh
    rw [wet] at asked
    exact asked
  all := deletions_of_completed fresh wet
  reaped := by
    have reaped := (booked_execute fresh).reaped mild
    rw [fresh] at reaped
    exact reaped
  announced := (booked_execute fresh).announced mild
  raised := by
    rw [← announced_execute mild]
    exact (booked_execute fresh).announced mild
  gone before key f after h missing := by
    refine ⟨not_granted_of_refused h ?_, ?_⟩
    · rw [← Outcome.deletions_eq_calls]
      exact nodup_deletions fresh
    · exact (answered_execute fresh wet mild).gone before key f after h missing
  stopped before key f after h present := by
    obtain ⟨last, aborted⟩ := (answered_execute fresh wet mild).stopped before key f after h present
    exact ⟨last, _, aborted, rfl, rfl⟩

/-- A plan under which events are rejected and one deletion, told by its number, fails. -/
def failingDeletion (nth : Nat) (fault : Fault) : Plan := fun call n =>
  match call.kind with
  | .delete => if n = nth then some fault else none
  | .createEvent => some (.rejected (some 403) (some "Forbidden"))
  | _ => none

theorem mild_failingDeletion (nth : Nat) {fault : Fault} (remote : fault.isRemote = true) :
    (shop (failingDeletion nth fault) emptyRegistry).Mild where
  remote call n f hf := by
    change f ∈ failingDeletion nth fault call n at hf
    unfold failingDeletion at hf
    split at hf
    · split at hf
      · obtain rfl := Option.some.inj hf
        exact remote
      · cases hf
    · cases hf
      rfl
    · cases hf
  sink := Sink.mild_registry {} none Sink.defaultJob

/-- A plan under which the first deletion finds nothing and events are rejected. -/
def deletedMeanwhile : Plan :=
  failingDeletion 1 Cluster.notFound

/-- In the shop both budgets are asked to be deleted; the first is gone, and only the second is
booked, although its events are rejected. -/
theorem exactDeletion_shop :
    (shop deletedMeanwhile emptyRegistry).ledger = {} ∧
      (shop deletedMeanwhile emptyRegistry).settings.dryRun.holds = false ∧
      (shop deletedMeanwhile emptyRegistry).Mild ∧
      (execute (shop deletedMeanwhile emptyRegistry)).deletions =
        [(some "shop", some "web"), (some "shop", some "api")] ∧
      (execute (shop deletedMeanwhile emptyRegistry)).state.ledger.reaped = ["shop/api"] ∧
      ExactDeletion (shop deletedMeanwhile emptyRegistry) :=
  ⟨rfl, rfl, mild_failingDeletion 1 rfl, by rfl, by rfl,
    exactDeletion rfl rfl (mild_failingDeletion 1 rfl)⟩

end Pass

end BudgetReaper
