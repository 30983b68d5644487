import BudgetReaper.Proofs.Reaping.Marks
import BudgetReaper.Proofs.Reaping.Removal

/-!
# Reaping — deletion is fail-safe

Whatever fails, and wherever, a run deletes only what its detection has marked, and only when that
detection is over and has not failed (`FailSafe`).  The plan of failures and the sink are those of
an arbitrary session: a listing, an event or a sample may fail with any fault at any call.

The trace of a run is that of its detection and then, if the detection is past, that of its
conclusion (`trace_execute`).  The first holds no deletion and the second no listing, so a deletion
in the whole trace stands in the second part, and what follows it does as well.
-/

namespace BudgetReaper

/-- A call that lists budgets or pods. -/
def Call.IsListing : Call → Prop
  | .listAll | .listIn _ | .listPods .. => True
  | _ => False

namespace Pass

open BudgetReaper.Action

/-- What a run does after its detection: nothing, if that has failed. -/
def closing (s : Session) : List Effect :=
  match (detect s).result with
  | .error _ => []
  | .ok _ => (conclude (detect s).state).trace

theorem trace_execute (s : Session) : (execute s).trace = (detect s).trace ++ closing s := by
  unfold closing
  cases h : (detect s).result with
  | error f => rw [execute_of_error h, List.append_nil]
  | ok _ => rw [execute_of_ok h]

theorem closing_of_error {s : Session} {f : Failure} (h : (detect s).result = .error f) :
    closing s = [] := by
  rw [closing, h]

theorem closing_of_ok {s : Session} (h : (detect s).result = .ok ()) :
    closing s = (conclude (detect s).state).trace := by
  rw [closing, h]

/-- What follows the detection only removes. -/
theorem isRemoval_of_mem_closing {s : Session} {e : Effect} (h : e ∈ closing s) : e.IsRemoval := by
  unfold closing at h
  split at h
  · cases h
  · exact emits_conclude _ e h

/-- Detection deletes nothing. -/
theorem deletions_detect (s : Session) : (detect s).deletions = [] :=
  Outcome.deletions_eq_nil_iff.mpr fun _ h => emits_detect s _ h

theorem deletions_execute (s : Session) :
    (execute s).deletions = (closing s).filterMap Effect.deleted? := by
  rw [Outcome.deletions, trace_execute, List.filterMap_append]
  exact congrArg (· ++ _) (deletions_detect s)

theorem calls_execute (s : Session) :
    (execute s).calls = (detect s).calls ++ (closing s).filterMap Effect.call? := by
  rw [Outcome.calls, trace_execute, List.filterMap_append]
  rfl

theorem samples_execute (s : Session) :
    (execute s).samples = (detect s).samples ++ (closing s).filterMap Effect.sample? := by
  rw [Outcome.samples, trace_execute, List.filterMap_append]
  rfl

/-- A deletion stands after the whole detection. -/
theorem split_at_deletion {s : Session} {before after : List Effect} {key : Key}
    (h : (execute s).trace = before ++ .call (.delete key) :: after) :
    ∃ mid, before = (detect s).trace ++ mid ∧ closing s = mid ++ .call (.delete key) :: after := by
  rw [trace_execute] at h
  rcases List.append_eq_append_iff.mp h with ⟨mid, hb, hc⟩ | ⟨mid, hd, hc⟩
  · exact ⟨mid, hb, hc⟩
  · cases mid with
    | nil => exact ⟨[], by rw [hd, List.append_nil, List.append_nil], hc.symm⟩
    | cons e mid =>
        -- otherwise the deletion would be an effect of the detection
        obtain ⟨rfl, -⟩ := List.cons.inj hc
        have probed : .call (.delete key) ∈ (detect s).trace :=
          hd ▸ List.mem_append_right _ (List.mem_cons_self ..)
        exact (emits_detect s _ probed).elim

/-- What a run does about deletions, whatever fails in it. -/
structure FailSafe (s : Session) : Prop where
  /-- A failure before the deletion phase leaves every budget alone. -/
  aborted : ∀ f, (detect s).result = .error f → (execute s).deletions = []
  /-- After a deletion nothing is listed any more. -/
  settled : ∀ before key after, (execute s).trace = before ++ .call (.delete key) :: after →
    ∀ c, .call c ∈ after → ¬ c.IsListing
  /-- Only marked keys are deleted, and none of a namespace that is left alone. -/
  marked : ∀ key ∈ (execute s).deletions,
    key ∈ Assoc.keys (execute s).state.ledger.reapable ∧
      s.settings.isExcluded (.ofText? key.1) = .ok false
  /-- No key is deleted twice. -/
  once : (execute s).deletions.Nodup
  /-- A dry run deletes nothing. -/
  dry : s.settings.dryRun.holds = true → (execute s).deletions = []
  /-- The text of a budget is kept before its deletion. -/
  dumped : ∀ before key after, (execute s).trace = before ++ .call (.delete key) :: after →
    ∃ b, b.key? = some key ∧ (key, b) ∈ (execute s).state.ledger.reapable ∧
      .notice (.dumped key.text b.dump) ∈ before

/-- A run whose detection has failed deletes nothing. -/
theorem deletions_of_error {s : Session} {f : Failure} (h : (detect s).result = .error f) :
    (execute s).deletions = [] := by
  rw [deletions_execute, closing_of_error h]
  rfl

/-- A run that does anything after its detection is past it. -/
theorem detected_of_mem_closing {s : Session} {e : Effect} (h : e ∈ closing s) :
    (detect s).result = .ok () := by
  cases hd : (detect s).result with
  | error f =>
      rw [closing_of_error hd] at h
      cases h
  | ok _ => rfl

/-- The keys that a run asks to delete are the first of those it has marked. -/
theorem deletions_isPrefix {s : Session} (fresh : s.ledger = {}) :
    (execute s).deletions <+:
      if s.settings.dryRun.holds then []
      else Assoc.keys (execute s).state.ledger.reapable := by
  cases hd : (detect s).result with
  | error f =>
      rw [deletions_of_error hd]
      exact List.nil_prefix
  | ok _ =>
      have asked := deletions_conclude (detect s).state
      have kept : (detect s).state.settings = s.settings :=
        congrArg Evidence.settings (ledger_detect fresh hd).1
      rw [kept] at asked
      rw [deletions_execute, closing_of_ok hd, reapable_execute]
      exact asked

/-- No key is asked to be deleted twice. -/
theorem nodup_deletions {s : Session} (fresh : s.ledger = {}) : (execute s).deletions.Nodup := by
  cases hd : (detect s).result with
  | error f =>
      rw [deletions_of_error hd]
      exact List.nodup_nil
  | ok _ =>
      refine (deletions_isPrefix fresh).sublist.nodup ?_
      split
      · exact List.nodup_nil
      · exact reapable_execute s ▸ nodup_detect fresh hd

/-- A marked key is of a namespace that is not left alone. -/
theorem watches_of_marked {s : Session} (fresh : s.ledger = {})
    (detected : (detect s).result = .ok ()) {key : Key}
    (h : key ∈ Assoc.keys (detect s).state.ledger.reapable) : s.evidence.Watches key.1 := by
  obtain ⟨entry, he, rfl⟩ := List.mem_map.mp h
  obtain ⟨own, m, hm, watched, -⟩ := offends_of_mem_detect fresh detected he
  have named : m.key = entry.1 := by
    rw [Budget.key?, hm] at own
    exact Option.some.inj own
  exact named ▸ watched

/-- The text of a budget under the key that is deleted has been kept before. -/
theorem dumped_of_deletion {s : Session} (fresh : s.ledger = {}) {before after : List Effect}
    {key : Key} (h : (execute s).trace = before ++ .call (.delete key) :: after) :
    ∃ b, b.key? = some key ∧ (key, b) ∈ (execute s).state.ledger.reapable ∧
      .notice (.dumped key.text b.dump) ∈ before := by
  obtain ⟨mid, rfl, rest⟩ := split_at_deletion h
  have asked : .call (.delete key) ∈ closing s :=
    rest ▸ List.mem_append_right _ (List.mem_cons_self ..)
  have detected := detected_of_mem_closing asked
  rw [closing_of_ok detected] at rest
  obtain ⟨b, hb, kept⟩ := prepared_conclude _ mid key after rest
  rw [reapable_execute]
  exact ⟨b, (offends_of_mem_detect fresh detected hb).1, hb, List.mem_append_right _ kept⟩

/-- Deletion is fail-safe in every run that starts from an empty ledger. -/
theorem failSafe {s : Session} (fresh : s.ledger = {}) : FailSafe s where
  aborted _ hf := deletions_of_error hf
  settled before key after h c hc := by
    obtain ⟨mid, -, rest⟩ := split_at_deletion h
    have removes : (Effect.call c).IsRemoval :=
      isRemoval_of_mem_closing (rest ▸ List.mem_append_right _ (List.mem_cons_of_mem _ hc))
    cases c with
    | listAll | listIn _ | listPods _ _ => exact removes.elim
    | delete _ | createEvent _ _ => exact id
  marked key hk := by
    have asked := (deletions_isPrefix fresh).subset hk
    obtain ⟨e, he, -⟩ := List.mem_filterMap.mp (deletions_execute s ▸ hk)
    have detected := detected_of_mem_closing he
    split at asked
    · cases asked
    · exact ⟨asked, watches_of_marked fresh detected (reapable_execute s ▸ asked)⟩
  once := nodup_deletions fresh
  dry on := by
    have asked := deletions_isPrefix fresh
    rw [if_pos on] at asked
    exact List.prefix_nil.mp asked
  dumped _ _ _ h := dumped_of_deletion fresh h

/-- A plan under which the second deletion is cut off. -/
def cutShort : Plan := fun call n =>
  if call.kind = .delete ∧ n = 2 then some (.system "cut off") else none

/-- In the shop the second deletion is cut off, after both were asked for, each once. -/
theorem failSafe_shop :
    (shop cutShort .absent).ledger = {} ∧
      (execute (shop cutShort .absent)).deletions =
        [(some "shop", some "web"), (some "shop", some "api")] ∧
      FailSafe (shop cutShort .absent) :=
  ⟨rfl, by rfl, failSafe rfl⟩

end Pass

end BudgetReaper
