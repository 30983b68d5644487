import BudgetReaper.Proofs.Reaping.Replay

/-!
# Reaping — delivery after a run

A run leaves the answers of the gateway to its delivery (`answers_execute`) and pushes nothing itself
(`pushes_execute`).  The delivery makes one push, of all that the registry holds, if there is a gateway.
It leaves everything but the answers as it is, and does not fail, whatever the status of the answer and
wherever the request has broken on its way (`handed_deliver`).

**Delivery** (`delivered`).  A run and its delivery leave the ledger and the cluster that the run leaves
on its own, after the same calls and samples.  They end as the run does, a failed run included, unless
the gateway's answer is a fault of another kind (`Session.rupture?_eq_some_iff`): that fault escapes, and
takes the place of what the run has ended with (`not_always_harmless`).
-/

namespace BudgetReaper

namespace Effect

/-- The push that an effect is. -/
def push? : Effect → Option Push
  | push p => some p
  | _ => none

/-- Neither a detection nor a conclusion pushes. -/
theorem push?_of_probe_or_removal {e : Effect} (h : e.IsProbe ∨ e.IsRemoval) : e.push? = none := by
  cases e with
  | push p => rcases h with h | h <;> cases h
  | _ => rfl

end Effect

/-- The pushes of an outcome, in order. -/
def Outcome.pushes {σ α : Type} (o : Outcome σ α) : List Push :=
  o.trace.filterMap Effect.push?

/-! ### Answers -/

namespace Gateway

/-- The fault that an answer is, if it is not a failure of delivery. -/
def Answer.fault? : Answer → Option Fault
  | raised f => some f
  | _ => none

/-- What a delivery gives: whether the samples have been taken, or the fault that escapes. -/
def Delivery.result : Delivery → Except Failure Bool
  | done => .ok true
  | refused _ => .ok false
  | raised f => .error (.fault f)

/-- What is told of a delivery. -/
def Delivery.notices (url : String) : Delivery → List Effect
  | done => [.notice (.delivered url)]
  | refused error => [.notice (.undelivered url error)]
  | raised _ => []

theorem Delivery.told_notices {url : String} {d : Delivery} :
    ∀ e ∈ d.notices url, ∃ n, e = .notice n := by
  cases d <;> simp [notices]

/-- Only a fault makes a delivery fail. -/
theorem result_outcome (url : String) (a : Answer) :
    (∃ taken, a.fault? = none ∧ (outcome url a).result = .ok taken) ∨
      ∃ f, a.fault? = some f ∧ (outcome url a).result = .error (.fault f) := by
  cases a with
  | broken text => exact .inl ⟨false, rfl, rfl⟩
  | raised f => exact .inr ⟨f, rfl, rfl⟩
  | response status reason =>
      rw [outcome]
      split
      · exact .inl ⟨true, rfl, rfl⟩
      · exact .inl ⟨false, rfl, rfl⟩

end Gateway

/-- The push of what a registry holds, if there is a gateway. -/
def Registry.parcel? (r : Registry) (address : Option String) (job : String) : Option Push :=
  address.map fun address => { url := Gateway.target address job, body := Exposition.text r }

namespace Session

/-- How the gateway answers next: as the script has it, and when nothing is left, by accepting. -/
def answer (s : Session) : Gateway.Answer :=
  s.answers.headD Gateway.accepted

/-- What a delivery pushes. -/
def parcel? (s : Session) : Option Push :=
  match s.sink with
  | .registry r address job => r.parcel? address job
  | _ => none

/-- The fault that escapes from a delivery: the answer of the gateway, if there is one. -/
def rupture? (s : Session) : Option Fault :=
  s.parcel?.bind fun _ => s.answer.fault?

/-- A fault escapes exactly where there is a gateway and that is its next answer. -/
theorem rupture?_eq_some_iff {s : Session} {f : Fault} :
    s.rupture? = some f ↔
      (∃ r address job, s.sink = .registry r (some address) job) ∧
        ∃ rest, s.answers = .raised f :: rest := by
  have answered : s.answer.fault? = some f ↔ ∃ rest, s.answers = .raised f :: rest := by
    rw [answer]
    cases s.answers with
    | nil => simp [Gateway.accepted, Gateway.Answer.fault?]
    | cons a rest => cases a <;> simp [Gateway.Answer.fault?]
  have sent : (∃ p, s.parcel? = some p) ↔
      ∃ r address job, s.sink = .registry r (some address) job := by
    rw [parcel?]
    cases s.sink with
    | registry r address job => cases address <;> simp [Registry.parcel?]
    | absent | scripted => simp
  rw [rupture?, Option.bind_eq_some_iff, ← answered, ← sent, exists_and_right]

end Session

namespace Pass

open BudgetReaper.Action

/-! ### A delivery -/

theorem nextAnswer_apply (s : Session) :
    nextAnswer s = ⟨.ok s.answer, { s with answers := s.answers.tail }, []⟩ := by
  obtain ⟨settings, cluster, sink, answers, now, runId, ledger⟩ := s
  cases answers <;> rfl

theorem deliver_of_alone {s : Session} {r : Registry} {job : String}
    (start : s.sink = .registry r none job) : deliver s = ⟨.ok false, s, [.notice .noGateway]⟩ := by
  rw [deliver, state_bind, start]
  rfl

theorem deliver_of_gateway {s : Session} {r : Registry} {address job : String}
    (start : s.sink = .registry r (some address) job) :
    deliver s =
      ⟨(Gateway.outcome (Gateway.target address job) s.answer).result,
        { s with answers := s.answers.tail },
        .push ⟨Gateway.target address job, Exposition.text r⟩ ::
          (Gateway.outcome (Gateway.target address job) s.answer).notices
            (Gateway.target address job)⟩ := by
  rw [deliver, state_bind, start]
  simp only
  rw [emit_bind, bind_of_ok (by rw [nextAnswer_apply]), nextAnswer_apply]
  simp only
  cases Gateway.outcome (Gateway.target address job) s.answer <;> rw [← start] <;> rfl

/-- What a delivery does in a session. -/
structure Handed (s : Session) (o : Outcome Session Bool) : Prop where
  /-- It returns, or a fault escapes. -/
  result : (∃ taken, s.rupture? = none ∧ o.result = .ok taken) ∨
    ∃ f, s.rupture? = some f ∧ o.result = .error (.fault f)
  /-- Nothing changes but the answers that are left. -/
  state : ∃ left, o.state = { s with answers := left }
  /-- It does nothing but push. -/
  trace : o.trace.filter Effect.isAct = s.parcel?.toList.map .push

/-- A delivery from a registry pushes what the registry holds, if there is a gateway, and fails only
with a fault that is not a failure of delivery. -/
theorem handed_deliver {s : Session} {r : Registry} {address : Option String} {job : String}
    (start : s.sink = .registry r address job) : Handed s (deliver s) := by
  cases address with
  | none =>
      have parcel : s.parcel? = none := by rw [Session.parcel?, start]; rfl
      have rupture : s.rupture? = none := by rw [Session.rupture?, parcel]; rfl
      rw [deliver_of_alone start]
      exact ⟨.inl ⟨false, rupture, rfl⟩, ⟨s.answers, rfl⟩, by rw [parcel]; rfl⟩
  | some address =>
      have parcel : s.parcel? = some ⟨Gateway.target address job, Exposition.text r⟩ := by
        rw [Session.parcel?, start]
        rfl
      have rupture : s.rupture? = s.answer.fault? := by rw [Session.rupture?, parcel]; rfl
      have silent : ((Gateway.outcome (Gateway.target address job) s.answer).notices
          (Gateway.target address job)).filter Effect.isAct = [] :=
        Effect.filter_acts_notices Gateway.Delivery.told_notices
      rw [deliver_of_gateway start]
      refine ⟨?_, ⟨_, rfl⟩, ?_⟩
      · rw [rupture]
        exact Gateway.result_outcome (Gateway.target address job) s.answer
      · rw [List.filter_cons_of_pos rfl, silent, parcel]
        rfl

/-! ### Before the delivery -/

/-- A run leaves the answers of the gateway to its delivery. -/
theorem answers_execute : Keeps (fun s : Session => s.answers) execute := by
  rw [execute_eq]
  exact .bind (keeps_detect (fun _ _ => rfl) (fun _ _ => rfl) fun _ _ _ => rfl) fun _ =>
    keeps_conclude (fun _ _ => rfl) (fun _ _ => rfl) fun _ _ => rfl

/-- A run pushes nothing. -/
theorem pushes_execute (s : Session) : (execute s).pushes = [] := by
  have silent : Emits (fun e => e.push? = none) execute := by
    rw [execute_eq]
    refine .bind (fun s e he => ?_) fun _ s e he => ?_
    · exact Effect.push?_of_probe_or_removal (.inl (emits_detect s e he))
    · exact Effect.push?_of_probe_or_removal (.inr (emits_conclude s e he))
  exact List.filterMap_eq_nil_iff.mpr (silent s)

/-! ### A run and its delivery -/

theorem runAndDeliver_apply (s : Session) :
    runAndDeliver s =
      ⟨(deliver (execute s).state).result >>= fun _ => (execute s).result,
        (deliver (execute s).state).state,
        (execute s).trace ++ (deliver (execute s).state).trace⟩ := by
  rw [runAndDeliver, bind_of_ok (x := (execute s).result) rfl, attempt_apply]
  cases handed : (deliver (execute s).state).result with
  | error f => rw [bind_of_error handed]; rfl
  | ok taken =>
      rw [bind_of_ok handed]
      cases (execute s).result <;> simp <;> rfl

/-- What the delivery makes of a run from a registry. -/
structure Delivered (s : Session) (r : Registry) (address : Option String) (job : String) : Prop where
  /-- The run ends as it would without a delivery, unless a fault escapes. -/
  decided : s.rupture? = none → (runAndDeliver s).result = (execute s).result
  /-- The fault that escapes takes the place of what the run has ended with. -/
  replaced : ∀ f, s.rupture? = some f → (runAndDeliver s).result = .error (.fault f)
  /-- Either way nothing changes but the answers that are left. -/
  state : ∃ left, (runAndDeliver s).state = { (execute s).state with answers := left }
  calls : (runAndDeliver s).calls = (execute s).calls
  samples : (runAndDeliver s).samples = (execute s).samples
  /-- All that the registry holds after the run is pushed at once. -/
  pushes : (runAndDeliver s).pushes =
    ((r.collect (execute s).samples).parcel? address job).toList

section Delivered

variable {s : Session} {r : Registry} {address : Option String} {job : String}
  (start : s.sink = .registry r address job)

include start

theorem parcel?_execute :
    (execute s).state.parcel? = (r.collect (execute s).samples).parcel? address job := by
  rw [Session.parcel?, registry_execute start]

/-- The fault that will escape is settled before the run. -/
theorem rupture?_execute : (execute s).state.rupture? = s.rupture? := by
  have left : (execute s).state.answers = s.answers := answers_execute s
  rw [Session.rupture?, Session.rupture?, Session.answer, left, parcel?_execute start,
    Session.parcel?, start]
  cases address <;> rfl

/-- A run is delivered whatever becomes of it, and only a fault that is not a failure of delivery
changes what it ends with. -/
theorem delivered : Delivered s r address job := by
  obtain ⟨ending, state, acts⟩ := handed_deliver (registry_execute start)
  rw [rupture?_execute start] at ending
  rw [parcel?_execute start] at acts
  -- a view that does not show notices shows of the delivery its push at most
  have seen {β : Type} {view : Effect → Option β} (hidden : ∀ n, view (.notice n) = none) :
      (runAndDeliver s).trace.filterMap view =
        (execute s).trace.filterMap view ++
          ((r.collect (execute s).samples).parcel? address job).toList.filterMap (view ∘ .push) := by
    rw [runAndDeliver_apply, List.filterMap_append, ← List.filterMap_map, ← acts,
      Effect.filterMap_acts view hidden]
  refine ⟨fun kept => ?_, fun f escaped => ?_, ?_, ?_, ?_, ?_⟩
  · obtain ⟨taken, -, returned⟩ | ⟨f, escaped, -⟩ := ending
    · rw [runAndDeliver_apply, returned]
      rfl
    · cases kept.symm.trans escaped
  · obtain ⟨taken, kept, -⟩ | ⟨g, escaped', failed⟩ := ending
    · cases kept.symm.trans escaped
    · cases escaped.symm.trans escaped'
      rw [runAndDeliver_apply, failed]
      rfl
  · rw [runAndDeliver_apply]
    exact state
  · rw [Outcome.calls, seen fun _ => rfl]
    cases address <;> exact List.append_nil _
  · rw [Outcome.samples, seen fun _ => rfl]
    cases address <;> exact List.append_nil _
  · rw [Outcome.pushes, seen fun _ => rfl, ← Outcome.pushes, pushes_execute]
    cases address <;> rfl

end Delivered

/-- The shop with a gateway that answers once as told. -/
def shopWithGateway (answer : Gateway.Answer) : Session :=
  { shop Cluster.faultless (.registry {} (some "http://gateway:9091") Sink.defaultJob) with
    answers := [answer] }

/-- A gateway that is down leaves the run in the shop as it is. -/
theorem delivered_shop :
    (shopWithGateway (.response 503 (some "Down"))).sink =
        .registry {} (some "http://gateway:9091") Sink.defaultJob ∧
      (shopWithGateway (.response 503 (some "Down"))).rupture? = none ∧
      (runAndDeliver (shopWithGateway (.response 503 (some "Down")))).result = .ok () ∧
      Delivered (shopWithGateway (.response 503 (some "Down"))) {} (some "http://gateway:9091")
        Sink.defaultJob :=
  ⟨rfl, rfl, by rfl, delivered rfl⟩

/-- A request that fails for want of a certificate. -/
def uncertified : Fault :=
  .system "Could not find a suitable TLS CA certificate bundle, invalid path: /etc/gateway.pem"

/-- A run that has completed fails for want of a certificate: not every delivery leaves the outcome of
its run as it is. -/
theorem not_always_harmless :
    ¬ ∀ (s : Session) (r : Registry) (address : Option String) (job : String),
      s.sink = .registry r address job → (runAndDeliver s).result = (execute s).result := by
  intro claim
  have same := claim (shopWithGateway (.raised uncertified)) _ _ _ rfl
  have completed : (execute (shopWithGateway (.raised uncertified))).result = .ok () := by rfl
  have failed : (runAndDeliver (shopWithGateway (.raised uncertified))).result =
      .error (.fault uncertified) := by rfl
  rw [completed, failed] at same
  cases same

end Pass

end BudgetReaper
