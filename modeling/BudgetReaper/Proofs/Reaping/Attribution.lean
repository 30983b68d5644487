import BudgetReaper.Proofs.Reaping.Culprit
import BudgetReaper.Proofs.Reaping.Refusal

/-!
# Reaping — what an abort names

A run that is aborted names a phase and a cause.  Both are right (`attributed`): the phase is the one in
which the run has stopped, and the cause is what stopped it.  Every phase before has run over all its
budgets, nothing of the phase has been done after the step that failed, and no later phase has begun
(`Abort`).

Selectors and listings of pods are used by two phases, so the cause alone does not tell the phase.
Where the run has stopped is read off its acts instead, which are laid down by the evidence
(`breaks_detect`) up to the deletion, and there by the marks (`abort_of_conclude`).  That the cause is the
first failure of its kind is the matter of the calls (`heeds_execute`).
-/

namespace BudgetReaper

/-- A cause for which a phase can be aborted. -/
inductive Phase.Aborts : Phase → Failure → Prop
  | scan (fault : Fault) : Aborts .scan (.call (.listBudgets "") fault)
  | pods {phase : Phase} (marking : phase = .multiple ∨ phase = .blocking) (space : Option String)
      (text : String) (fault : Fault) : Aborts phase (.call (.listPods space text) fault)
  | selector {phase : Phase} (marking : phase = .multiple ∨ phase = .blocking) (name : String)
      (selector : Option Selector) (f : Expression.Fault) :
      Aborts phase (.budgetSelector name selector f)
  | bound (name : String) (f : Bound.Fault) : Aborts .blocking (.budgetBound name f)
  | deletion (key : Key) {fault : Fault} (found : fault.isNotFound = false) :
      Aborts .deletion (.call (.delete key) fault)

/-- A listing of all budgets fails only as planned. -/
theorem Cluster.isRemote_of_account {c : Cluster} (remote : c.plan.Remote) {calls : List Call}
    {fault : Fault} (h : (.listAll, some fault) ∈ c.account calls) : fault.isRemote = true := by
  induction calls generalizing c with
  | nil => cases h
  | cons call rest ih =>
      rcases List.mem_cons.mp h with h | h
      · obtain ⟨rfl, answer⟩ := Prod.mk.inj h
        have planned : c.planned .listAll = some fault := by
          rw [answer, serve]
          cases c.planned .listAll <;> rfl
        exact remote _ _ fault planned
      · exact ih (by rwa [c.plan_serve call]) h

/-- How a detection that has begun with the ledger `l` is cut short: the phase, the failure of the
step, the acts done and the ledger. -/
inductive Cut (e : Evidence) (p : Plan) (equipped : Bool) (l : Ledger) :
    Phase → Failure → List Effect → Ledger → Prop
  /-- The budgets are not listed, and nothing else is done. -/
  | listing {fault : Fault} {n : Nat} (refused : p .listAll n = some fault) :
      Cut e p equipped l .scan (.call (.listBudgets "") fault) [.call .listAll] l
  /-- The whole scan is done, and a marking phase halts. -/
  | halt {phase : Phase} {f : Failure} {acts : List Effect} {reached : Ledger}
      (halt : Halt e p equipped (e.entered l) phase f acts reached) :
      Cut e p equipped l phase f (e.scanning equipped ++ acts) reached

namespace Pass

open BudgetReaper.Action

/-- How a run is aborted in a phase, with the cause of the abort: what has been done by then, and
nothing else has been done. -/
inductive Abort (s : Session) : Phase → Failure → Prop
  | detection {phase : Phase} {cause : Failure} {acts : List Effect}
      (cut : Cut s.evidence s.cluster.plan s.sink.isPresent s.ledger phase cause acts
        (execute s).state.ledger)
      (acts : (execute s).trace.filter Effect.isAct = acts) : Abort s phase cause
  /-- The whole detection is done, and what has been marked before one of the marks is removed. -/
  | deletion {entries entries' : List (Key × Budget)} {entry : Key × Budget} {fault : Fault}
      (detected : (detect s).result = .ok ())
      (marks : ((s.evidence.entered s.ledger).markAll (s.evidence.markedFrom s.ledger)).reapable =
        entries ++ entry :: entries')
      (removed : (forEach remove entries (detect s).state).result = .ok ())
      (acts : (execute s).trace.filter Effect.isAct =
        s.evidence.courseFrom s.sink.isPresent s.ledger ++
          ((forEach remove entries (detect s).state).trace.filter Effect.isAct ++
            [.call (.delete entry.1)]))
      (ledger : (execute s).state.ledger =
        (forEach remove entries (detect s).state).state.ledger)
      (found : fault.isNotFound = false) : Abort s .deletion (.call (.delete entry.1) fault)

/-! ### Aborts of a detection -/

/-- A detection that is aborted is cut short. -/
theorem cut_of_detect {s : Session} (remote : s.cluster.plan.Remote) (lenient : s.sink.Lenient)
    {phase : Phase} {cause : Failure} (aborted : (detect s).result = .error (.aborted phase cause)) :
    cause.isReported = true ∧
      Cut s.evidence s.cluster.plan s.sink.isPresent s.ledger phase cause
        ((detect s).trace.filter Effect.isAct) (detect s).state.ledger := by
  have cut : Breaks Session.findings (Session.Tame s.cluster.plan s.sink.isPresent) detect
      (s.evidence, s.ledger) fun f acts w => ∀ phase cause, f = .aborted phase cause →
        cause.isReported = true ∧
          Cut s.evidence s.cluster.plan s.sink.isPresent s.ledger phase cause acts w.2 := by
    refine breaks_detect remote (fun fault n refused phase cause h => ?_)
      (fun f unadmitted phase cause h => ?_) (fun phase f acts reached halt phase' cause h => ?_)
      fun x _ f acts w unnamed phase cause h => ?_
    · obtain ⟨rfl, rfl, reported⟩ := Phase.wrap_eq_aborted h
      refine ⟨reported, ?_⟩
      rw [failureOf, if_pos (remote _ _ fault refused)]
      exact .listing refused
    · subst h
      cases foreign_of_admission unadmitted
    · obtain ⟨rfl, rfl, reported⟩ := Phase.wrap_eq_aborted h
      exact ⟨reported, .halt halt⟩
    · subst h
      cases unnamed.2
  exact cut s rfl ⟨rfl, rfl, lenient⟩ _ aborted phase cause rfl

section Causes

variable {e : Evidence} {p : Plan} {equipped : Bool} {f : Failure}

/-- A request for pods that aborts a phase does so by its selector or by its listing. -/
theorem aborts_of_lapse (remote : p.Remote) {space : Option String} {b : Budget} {acts : List Effect}
    (lapse : Lapse p space b f acts) (reported : f.isReported = true) {phase : Phase}
    (marking : phase = .multiple ∨ phase = .blocking) : phase.Aborts f := by
  cases lapse with
  | query unasked =>
      unfold Budget.query at unasked
      split at unasked
      · obtain rfl := Except.error.inj unasked
        cases reported
      · obtain ⟨fault, -, rfl⟩ := error_of_mapError unasked
        exact .selector marking _ _ _
  | @listing text fault n _ refused =>
      rw [failureOf, if_pos (remote _ _ fault refused)]
      exact .pods marking space text fault

theorem aborts_of_cut (remote : p.Remote) {l reached : Ledger} {phase : Phase} {acts : List Effect}
    (cut : Cut e p equipped l phase f acts reached) (reported : f.isReported = true) :
    phase.Aborts f := by
  cases cut with
  | listing refused => exact .scan _
  | halt halt =>
      cases halt with
      | overlap _ _ _ _ _ lapse => exact aborts_of_lapse remote lapse reported (Or.inl rfl)
      | check _ _ _ breach =>
          cases breach with
          | lapse lapse => exact aborts_of_lapse remote lapse reported (Or.inr rfl)
          | verdict _ _ _ untold =>
              obtain ⟨-, fault, -, -, rfl⟩ := Evidence.bound_of_reported untold reported
              exact .bound _ fault

end Causes

/-! ### Aborts of the deletion -/

/-- In a tame session, a conclusion that is aborted has ended at a deletion that was refused. -/
theorem refused_of_conclude {p : Plan} {equipped : Bool} (remote : p.Remote) {s : Session}
    (tame : s.Tame p equipped) {phase : Phase} {cause : Failure}
    (aborted : (conclude s).result = .error (.aborted phase cause)) :
    ∃ entries entry entries' fault, phase = .deletion ∧ cause = .call (.delete entry.1) fault ∧
      fault.isNotFound = false ∧ s.ledger.reapable = entries ++ entry :: entries' ∧
      (forEach remove entries s).result = .ok () ∧
      (conclude s).trace.filter Effect.isAct =
        (forEach remove entries s).trace.filter Effect.isAct ++ [.call (.delete entry.1)] ∧
      (conclude s).state.ledger = (forEach remove entries s).state.ledger := by
  cases hr : (forEach remove s.ledger.reapable s).result with
  | ok _ =>
      rw [result_conclude, inPhase, rephrase_apply, hr] at aborted
      cases aborted
  | error f =>
      rw [conclude_of_error hr] at aborted ⊢
      obtain ⟨rfl, rfl, reported⟩ := Phase.wrap_eq_aborted (Except.error.inj aborted)
      obtain ⟨entries, entry, entries', split, removed, failed, loop⟩ := error_of_forEach hr
      have tame' : (forEach remove entries s).state.Tame p equipped :=
        (Obeys.forEach (fun entry _ => replayed_remove entry) s).tame tame
      rcases refused_of_remove remote tame' failed with
        ⟨fault, rfl, found, acts, kept⟩ | ⟨foreign, -⟩
      · rw [loop]
        refine ⟨entries, entry, entries', fault, rfl, rfl, found, split, removed, ?_, kept⟩
        rw [List.filter_append, acts]
      · cases reported.symm.trans foreign

/-- A run that is aborted after its detection is aborted by a deletion. -/
theorem abort_of_conclude {s : Session} (remote : s.cluster.plan.Remote) (lenient : s.sink.Lenient)
    (detected : (detect s).result = .ok ()) {phase : Phase} {cause : Failure}
    (aborted : (conclude (detect s).state).result = .error (.aborted phase cause)) :
    phase.Aborts cause ∧ Abort s phase cause := by
  have start : s.findings = (s.evidence, s.ledger) := rfl
  obtain ⟨-, reached⟩ := yields_detect_onto s.evidence s.ledger s start () detected
  obtain ⟨-, -, whole⟩ := follows_detect_onto s.evidence s.sink.isPresent s.ledger s start rfl
  have ledger : (detect s).state.ledger =
      (s.evidence.entered s.ledger).markAll (s.evidence.markedFrom s.ledger) :=
    congrArg Prod.snd reached
  have tame : (detect s).state.Tame s.cluster.plan s.sink.isPresent :=
    (replayed_detect s).tame ⟨rfl, rfl, lenient⟩
  obtain ⟨entries, entry, entries', fault, rfl, rfl, found, marks, removed, acts, kept⟩ :=
    refused_of_conclude remote tame aborted
  refine ⟨.deletion entry.1 found,
    .deletion detected (ledger ▸ marks) removed ?_ (by rw [execute_of_ok detected, kept]) found⟩
  rw [execute_of_ok detected, List.filter_append, whole () detected, acts]

/-! ### The whole run -/

/-- What an abort of a run names is what has aborted it. -/
structure Attributed (s : Session) (phase : Phase) (cause : Failure) : Prop where
  /-- The stage is the scan exactly if the listing of all budgets has failed. -/
  scan : (Failure.aborted phase cause).stage? = some "scan" ↔
    ∃ fault, (.listAll, some fault) ∈ s.cluster.account (execute s).calls
  /-- In that case the listing is the only call. -/
  alone : (Failure.aborted phase cause).stage? = some "scan" → (execute s).calls = [.listAll]
  /-- Otherwise the stage is the other one, and the phase one of its three. -/
  reap : (Failure.aborted phase cause).stage? ≠ some "scan" →
    (Failure.aborted phase cause).stage? = some "reap" ∧
      (phase = .multiple ∨ phase = .blocking ∨ phase = .deletion)
  /-- The message names the phase. -/
  message : (Failure.aborted phase cause).message = phase.attempt ++ ": " ++ cause.message
  /-- The cause is one for which the phase can be aborted. -/
  aborts : phase.Aborts cause
  /-- The phases before have run to their end, and nothing has been done since the step that failed. -/
  abort : Abort s phase cause
  /-- No call has failed fatally but the last one, if the cause names it. -/
  culprit : Culprit cause (s.cluster.account (execute s).calls)

theorem abort_of_execute {s : Session} (remote : s.cluster.plan.Remote) (lenient : s.sink.Lenient)
    {phase : Phase} {cause : Failure}
    (aborted : (execute s).result = .error (.aborted phase cause)) :
    phase.Aborts cause ∧ Abort s phase cause := by
  cases hd : (detect s).result with
  | error f =>
      have run := execute_of_error hd
      rw [run] at aborted
      obtain rfl := Except.error.inj aborted
      obtain ⟨reported, cut⟩ := cut_of_detect remote lenient hd
      rw [← congrArg (·.state.ledger) run] at cut
      exact ⟨aborts_of_cut remote cut reported, .detection cut (by rw [run])⟩
  | ok _ =>
      rw [execute_of_ok hd] at aborted
      exact abort_of_conclude remote lenient hd aborted

/-- The causes of one stage name no call of another. -/
theorem scan_of_failed {phase : Phase} {cause : Failure} (aborts : phase.Aborts cause) {fault : Fault}
    (failed : cause.failed? = some (.listBudgets "", fault)) : phase = .scan := by
  cases aborts with
  | scan _ => rfl
  | pods _ _ _ _ | selector _ _ _ _ | bound _ _ | deletion _ _ => cases failed

theorem stage_eq_scan_iff {phase : Phase} {cause : Failure} :
    (Failure.aborted phase cause).stage? = some "scan" ↔ phase = .scan := by
  cases phase <;> simp [Failure.stage?, Phase.stage]

/-- An abort of the scan has the listing of all budgets for its one act. -/
theorem acts_of_scan {s : Session} {cause : Failure} (abort : Abort s .scan cause) :
    (execute s).trace.filter Effect.isAct = [.call .listAll] := by
  cases abort with
  | detection cut acts =>
      generalize (execute s).state.ledger = reached at cut
      cases cut with
      | listing _ => exact acts
      | halt halt => cases halt

/-- The fault of a server that is out of order. -/
def outOfOrder : Fault :=
  .rejected (some 500) (some "Internal Server Error")

/-- A plan under which the third listing of pods is rejected. -/
def thirdListing : Plan := fun call n =>
  if call.kind = .listPods ∧ n = 3 then some outOfOrder else none

theorem remote_thirdListing : thirdListing.Remote := by
  intro call n f hf
  change (if call.kind = .listPods ∧ n = 3 then some outOfOrder else none) = some f at hf
  split at hf
  · obtain rfl := Option.some.inj hf
    rfl
  · cases hf

end Pass

end BudgetReaper
