import BudgetReaper.Proofs.Reaping.Alike
import BudgetReaper.Proofs.Reaping.FailSafe

/-!
# Reaping — a dry run foretells the real one

Two runs that differ in nothing but the switch for a dry run detect alike: detection reads every
setting but that one, and a plan counts the same calls in both (`alike_withDryRun`).  So they fail
together or find the same, after the same calls and the same samples.

The conclusions differ in one thing.  The dry one does nothing; the real one begins with a deletion
if it calls the cluster at all, so what the two runs have asked of the cluster is the same up to
the first deletion (`Foretells`).
-/

namespace BudgetReaper

/-- The session with the switch for a dry run set to a value. -/
def Session.withDryRun (s : Session) (v : Value) : Session :=
  { s with settings := { s.settings with dryRun := v } }

namespace Pass

open BudgetReaper.Action

/-- Two sessions differ in nothing but the switch for a dry run. -/
def DryTwins (s t : Session) : Prop :=
  ∃ v, t = s.withDryRun v

/-- The switch for a dry run makes no difference to the answers. -/
theorem twins_withDryRun : Twins DryTwins where
  settings := by
    rintro s _ ⟨v, rfl⟩
    exact ⟨v, rfl⟩
  now := by
    rintro s _ ⟨v, rfl⟩
    rfl
  ledger := by
    rintro s _ ⟨v, rfl⟩
    rfl
  sink := by
    rintro s _ ⟨v, rfl⟩
    rfl
  planned := by
    rintro s _ ⟨v, rfl⟩ call
    rfl
  listings := by
    rintro s _ ⟨v, rfl⟩
    rfl
  post := by
    rintro change s _ ⟨v, rfl⟩
    exact ⟨v, rfl⟩
  counted := by
    rintro s _ ⟨v, rfl⟩ call
    exact ⟨v, rfl⟩
  sampled := by
    rintro s _ ⟨v, rfl⟩ sample
    exact ⟨v, rfl⟩

/-- The switch for a dry run makes no difference to detection, but for what it says. -/
theorem alike_withDryRun : Alike DryTwins Effect.isAct :=
  twins_withDryRun.alike

theorem DryTwins.lockstep_listBudgets :
    Lockstep DryTwins Effect.isAct (listBudgets "") (listBudgets "") := by
  rintro s _ ⟨v, rfl⟩
  rw [listBudgets_apply, listBudgets_apply]
  exact ⟨rfl, ⟨v, rfl⟩, rfl⟩

/-- Detection of two runs that differ in the switch for a dry run. -/
theorem detect_withDryRun (s : Session) (on off : Value) :
    Outcome.Match DryTwins Effect.isAct (detect (s.withDryRun on)) (detect (s.withDryRun off)) :=
  alike_withDryRun.detect (fun _ => .say_unseen rfl rfl)
    (alike_withDryRun.scan DryTwins.lockstep_listBudgets) _ _ ⟨off, rfl⟩

/-! ### The whole run -/

/-- What a dry run tells of the real one. -/
structure Foretells (dry real : Session) : Prop where
  /-- Detection ends alike in both. -/
  alike : (detect dry).result = (detect real).result
  /-- A failure of the detection is the same and comes after the same calls. -/
  aborted : ∀ f, (detect dry).result = .error f →
    (execute dry).result = .error f ∧ (execute real).result = .error f ∧
      (execute dry).calls = (execute real).calls
  /-- Past the detection both have found the same and given the same samples. -/
  found : (detect dry).result = .ok () →
    (detect dry).state.ledger = (detect real).state.ledger ∧
      (detect dry).samples = (detect real).samples
  /-- The dry run calls what the real one calls before it first deletes. -/
  calls : (detect dry).result = .ok () →
    (execute dry).calls = (execute real).calls.takeWhile (·.kind != .delete)
  /-- The dry run comes to its end, with nothing deleted and no sign of a deletion. -/
  ended : (detect dry).result = .ok () →
    (execute dry).result = .ok () ∧ (execute dry).state.ledger.reaped = [] ∧
      (execute dry).deletions = [] ∧
      (∀ space event, .createEvent space event ∈ (execute dry).calls → event.reason ≠ .deleted) ∧
      ∀ sample ∈ (execute dry).samples, sample.reason = .deleted → sample.value ≠ .int 1

/-- What a run calls before it first deletes is what its detection calls. -/
theorem takeWhile_calls_execute (s : Session) :
    (execute s).calls.takeWhile (·.kind != .delete) = (detect s).calls := by
  have probes : ∀ c ∈ (detect s).calls, (c.kind != .delete) = true := by
    intro c hc
    have probe := emits_detect s _ (Outcome.mem_calls.mp hc)
    cases c with
    | delete key => exact probe.elim
    | listAll | listIn _ | listPods _ _ | createEvent _ _ => rfl
  -- the detection is taken whole; what follows it is empty or begins with a deletion
  rw [calls_execute, List.takeWhile_append_of_pos probes]
  suffices h : ((closing s).filterMap Effect.call?).takeWhile (·.kind != .delete) = [] by
    rw [h, List.append_nil]
  unfold closing
  cases (detect s).result with
  | error f => rfl
  | ok _ =>
      rcases calls_conclude (detect s).state with none_made | ⟨key, rest, first⟩
      · rw [Outcome.calls] at none_made
        dsimp only
        rw [none_made]
        rfl
      · rw [Outcome.calls] at first
        dsimp only
        rw [first]
        rfl

/-- A dry run that is past its detection only tells of what is left to do. -/
theorem closing_of_dry {s : Session} (fresh : s.ledger = {}) (on : s.settings.dryRun.holds = true)
    (detected : (detect s).result = .ok ()) :
    (execute s).result = .ok () ∧ (execute s).state = (detect s).state ∧
      ∀ e ∈ closing s, ∃ n, e = .notice n := by
  have kept : (detect s).state.settings = s.settings :=
    congrArg Evidence.settings (ledger_detect fresh detected).1
  obtain ⟨ended, same, told⟩ := conclude_of_dry (kept ▸ on)
  rw [execute_of_ok detected, closing_of_ok detected]
  exact ⟨ended, same, told⟩

theorem reaped_detect {s : Session} (fresh : s.ledger = {})
    (detected : (detect s).result = .ok ()) : (detect s).state.ledger.reaped = [] := by
  rw [(ledger_detect fresh detected).2, Ledger.markAll_eq, Evidence.scanned_eq]

/-- A dry run foretells the real one. -/
theorem foretells {s : Session} {on : Value} (fresh : s.ledger = {}) (dry : on.holds = true)
    (off : Value) : Foretells (s.withDryRun on) (s.withDryRun off) := by
  have twins := detect_withDryRun s on off
  have calls := twins.calls_eq fun _ => rfl
  refine ⟨twins.result, ?_, ?_, ?_, ?_⟩
  · intro f hf
    have hf' := twins.result ▸ hf
    rw [execute_of_error hf, execute_of_error hf']
    exact ⟨rfl, rfl, calls⟩
  · intro _
    exact ⟨(alike_withDryRun.ledger twins.state).symm, twins.samples_eq fun _ => rfl⟩
  · intro detected
    obtain ⟨-, -, told⟩ := closing_of_dry (s := s.withDryRun on) fresh dry detected
    rw [takeWhile_calls_execute, calls_execute, Effect.filterMap_notices (fun _ => rfl) told,
      List.append_nil, calls]
  · intro detected
    obtain ⟨ended, same, told⟩ := closing_of_dry (s := s.withDryRun on) fresh dry detected
    refine ⟨ended, ?_, ?_, ?_, ?_⟩
    · rw [same]
      exact reaped_detect (s := s.withDryRun on) fresh detected
    · rw [deletions_execute]
      exact Effect.filterMap_notices (fun _ => rfl) told
    · intro space event he
      rw [calls_execute, Effect.filterMap_notices (fun _ => rfl) told, List.append_nil] at he
      exact emits_detect _ _ (Outcome.mem_calls.mp he)
    · intro sample hs deleted
      rw [samples_execute, Effect.filterMap_notices (fun _ => rfl) told, List.append_nil] at hs
      have zero := emits_detect _ _ (Outcome.mem_samples.mp hs) deleted
      rw [zero]
      decide

/-- In the shop the dry run deletes nothing where the real one asks for both budgets. -/
theorem foretells_shop :
    (shop Cluster.faultless .absent).ledger = {} ∧ (Value.bool true).holds = true ∧
      (execute ((shop Cluster.faultless .absent).withDryRun (.bool false))).deletions =
        [(some "shop", some "web"), (some "shop", some "api")] ∧
      Foretells ((shop Cluster.faultless .absent).withDryRun (.bool true))
        ((shop Cluster.faultless .absent).withDryRun (.bool false)) :=
  ⟨rfl, rfl, by rfl, foretells rfl rfl _⟩

end Pass

end BudgetReaper
