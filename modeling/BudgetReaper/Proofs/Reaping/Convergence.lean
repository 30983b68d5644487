import Mathlib.Data.List.Flatten
import BudgetReaper.Proofs.Reaping.Remains
import BudgetReaper.Proofs.Reaping.Tractable

/-!
# Reaping — one run converges

A run that completes at a cluster where no call fails leaves nothing for the next run to do: the next
one completes as well, marks no budget, deletes none and publishes no event (`converged`).

The cluster that the first run leaves is the one that it began with, without the budgets of the keys
that it has asked to delete (`cluster_of_completed`).  With fewer budgets no budget offends that did not
offend before (`Offends.of_sublist`): what crowds a namespace now has crowded it then, and a budget
that obstructs obstructs on its own.  But every budget that offended has been deleted.  That the next
run completes at all is a matter of what it needs, and fewer budgets need less
(`Tractable.of_sublist`).
-/

namespace BudgetReaper

/-! ### Fewer budgets offend less -/

namespace Evidence

variable {e : Evidence} {fewer : List Budget} {space : Option String} {b : Budget}

theorem Crowds.of_sublist (sub : fewer.Sublist e.budgets)
    (h : Crowds { e with budgets := fewer } space) : e.Crowds space where
  enabled := h.enabled
  several := Nat.lt_of_lt_of_le h.several (sublist_budgetsOf sub space).length_le
  repeated distinct := by
    have within : ((budgetsOf { e with budgets := fewer } space).flatMap (e.selected space)).Sublist
        ((e.budgetsOf space).flatMap (e.selected space)) :=
      (sublist_budgetsOf sub space).flatMap _
    exact h.repeated (distinct.sublist (within.map Pod.name))

/-- What offends among fewer budgets offends among all of them. -/
theorem Offends.of_sublist (sub : fewer.Sublist e.budgets)
    (h : Offends { e with budgets := fewer } b) : e.Offends b := by
  obtain ⟨m, hm, watched, crowds | obstructs⟩ := h
  · exact ⟨m, hm, watched, Or.inl (crowds.of_sublist sub)⟩
  · exact ⟨m, hm, watched, Or.inr ⟨obstructs.blocks, obstructs.found⟩⟩

/-! ### Events of a course -/

theorem verdict_of_event {equipped : Bool} {reason : Reason} {verdict : Bool}
    {target : Option String} {event : Event}
    (h : .call (.createEvent target event) ∈ e.signals equipped b reason verdict) : verdict = true := by
  unfold signals at h
  cases hm : b.metadata with
  | none =>
      rw [hm] at h
      cases h
  | some m =>
      simp only [hm, List.mem_append] at h
      rcases h with h | h
      · split at h
        · next affirmed => exact affirmed
        · cases h
      · split at h
        · cases List.mem_singleton.mp h
        · cases h

theorem not_event_of_inquiry {target : Option String} {event : Event} :
    .call (.createEvent target event) ∉ inquiry space b := by
  intro h
  unfold inquiry at h
  split at h
  · cases h
  · split at h
    · cases List.mem_singleton.mp h
    · cases h

/-- An event is published for a budget that is marked. -/
theorem marked_of_event {equipped : Bool} {target : Option String} {event : Event}
    (h : .call (.createEvent target event) ∈ e.course equipped) : ∃ b, b ∈ e.marked := by
  rcases List.mem_append.mp h with h | h
  · rcases List.mem_cons.mp h with h | h
    · cases h
    · obtain ⟨entry, -, h⟩ := List.mem_flatMap.mp h
      cases verdict_of_event h
  · rcases List.mem_append.mp h with h | h
    · split at h
      · next on =>
          obtain ⟨g, hg, h⟩ := List.mem_flatMap.mp h
          rcases List.mem_append.mp h with h | h
          · obtain ⟨b, -, h⟩ := List.mem_flatMap.mp h
            exact absurd h not_event_of_inquiry
          · obtain ⟨b, hb, h⟩ := List.mem_flatMap.mp h
            have overlap : b ∈ e.overlapping g :=
              mem_overlapping.mpr ⟨hb, (hasDuplicates_iff _).mp (verdict_of_event h)⟩
            refine ⟨b, List.mem_append_left _ ?_⟩
            rw [if_pos on]
            exact List.mem_flatMap.mpr ⟨g, hg, overlap⟩
      · cases h
    · obtain ⟨g, hg, h⟩ := List.mem_flatMap.mp h
      obtain ⟨b, hb, h⟩ := List.mem_flatMap.mp h
      rcases List.mem_append.mp h with h | h
      · exact absurd h not_event_of_inquiry
      · obtain ⟨reason, hr, h⟩ := List.mem_flatMap.mp h
        have offence : b ∈ e.offences g.1 b :=
          mem_offences.mpr ⟨rfl, reason, hr, verdict_of_event h⟩
        refine ⟨b, List.mem_append_right _ (List.mem_flatMap.mpr ⟨g, hg, ?_⟩)⟩
        exact List.mem_flatMap.mpr ⟨b, hb, offence⟩

end Evidence

/-- A session for another run with the same settings and the same clock. -/
def Session.renewed (s : Session) (cluster : Cluster) (sink : Sink)
    (answers : List Gateway.Answer) (runId : String) : Session where
  settings := s.settings
  cluster := cluster
  sink := sink
  answers := answers
  now := s.now
  runId := runId
  ledger := {}

namespace Pass

open BudgetReaper.Action

/-- What a run that completes where no call fails leaves of the cluster: everything but the budgets
of the keys that it has asked to delete. -/
theorem cluster_of_completed {s : Session} (faultless : s.cluster.plan = Cluster.faultless)
    (completed : (execute s).result = .ok ()) :
    (execute s).state.cluster.budgets =
        s.cluster.budgets.filter (fun b => b.key? ∉ (execute s).deletions.map some) ∧
      (execute s).state.cluster.listings = s.cluster.listings ∧
      (execute s).state.cluster.plan = Cluster.faultless := by
  have detected := (parts_of_completed completed).1
  have spares : s.cluster.plan.Spares := faultless ▸ Plan.spares_faultless
  have reached : (execute s).state.cluster = s.cluster.after (execute s).calls :=
    (replayed_execute s).cluster
  rw [reached, Cluster.budgets_after (isNamed_of_detected detected) spares, asked_calls,
    Cluster.listings_after, Cluster.plan_after, faultless]
  exact ⟨rfl, rfl, rfl⟩

/-- A run whose evidence marks no budget does nothing but look. -/
theorem idle_of_unmarked {t : Session} (fresh : t.ledger = {})
    (detected : (detect t).result = .ok ()) (unmarked : ∀ b, b ∉ t.evidence.marked) :
    (execute t).result = .ok () ∧ (execute t).state.ledger.reapable = [] ∧
      (execute t).deletions = [] ∧ ∀ space event, .createEvent space event ∉ (execute t).calls := by
  have none_marked : t.evidence.marked = [] := List.eq_nil_iff_forall_not_mem.mpr unmarked
  have reapable : (detect t).state.ledger.reapable = [] := by
    rw [(ledger_detect fresh detected).2, none_marked, Evidence.scanned_eq]
    rfl
  have removed : (forEach remove (detect t).state.ledger.reapable (detect t).state).result =
      .ok () := by
    rw [reapable]
    rfl
  have silent : (conclude (detect t).state).calls = [] := by
    rw [calls_conclude_eq, reapable]
    rfl
  refine ⟨?_, (reapable_execute t).trans reapable, ?_, fun space event published => ?_⟩
  · rw [execute_of_ok detected]
    dsimp only
    rw [result_conclude, inPhase, rephrase_apply, removed]
    rfl
  · have asked := deletions_isPrefix fresh
    rw [reapable_execute, reapable] at asked
    split at asked
    · exact List.prefix_nil.mp asked
    · exact List.prefix_nil.mp asked
  · rw [calls_execute, closing_of_ok detected] at published
    rcases List.mem_append.mp published with published | published
    · have acted : .call (.createEvent space event) ∈ t.evidence.course t.sink.isPresent := by
        rw [← (acts_detect fresh).2 detected]
        exact List.mem_filter.mpr ⟨Outcome.mem_calls.mp published, rfl⟩
      obtain ⟨b, marked⟩ := Evidence.marked_of_event acted
      exact unmarked b marked
    · change .createEvent space event ∈ (conclude (detect t).state).calls at published
      rw [silent] at published
      cases published

/-- None of the budgets that a completed run leaves is marked by the next one. -/
theorem unmarked_of_completed {s : Session} (fresh : s.ledger = {})
    (wet : s.settings.dryRun.holds = false) (completed : (execute s).result = .ok ()) (b : Budget) :
    b ∉ Evidence.marked { s.evidence with
      budgets := s.cluster.budgets.filter fun b => b.key? ∉ (execute s).deletions.map some } := by
  rw [Evidence.mem_marked]
  rintro ⟨survives, offends⟩
  obtain ⟨listed, spared⟩ := List.mem_filter.mp survives
  obtain ⟨m, hm, -⟩ := id offends
  have key : b.key? = some m.key := by rw [Budget.key?, hm]; rfl
  -- it has offended in the first run as well, so that run has deleted it
  have marked : m.key ∈ Assoc.keys (execute s).state.ledger.reapable := by
    rw [reapable_execute, (ledger_detect fresh (parts_of_completed completed).1).2,
      Ledger.mem_keys_markAll]
    exact Or.inr
      ⟨b, Evidence.mem_marked.mpr ⟨listed, offends.of_sublist List.filter_sublist⟩, key⟩
  rw [← deletions_of_completed fresh wet completed] at marked
  refine of_decide_eq_true spared ?_
  rw [key]
  exact List.mem_map_of_mem marked

/-- What the run after a completed one finds and does. -/
structure Converged (s t : Session) : Prop where
  /-- It finds the budgets that the first one has not deleted, as they were. -/
  budgets : t.cluster.budgets =
    s.cluster.budgets.filter fun b => b.key? ∉ (execute s).deletions.map some
  listings : t.cluster.listings = s.cluster.listings
  /-- It completes. -/
  completed : (execute t).result = .ok ()
  /-- It marks no budget, deletes none and publishes no event. -/
  reapable : (execute t).state.ledger.reapable = []
  deletions : (execute t).deletions = []
  events : ∀ space event, .createEvent space event ∉ (execute t).calls

/-- One run converges: after a run that completes where no call fails, the next run has nothing to
do. -/
theorem converged {s : Session} (fresh : s.ledger = {})
    (wet : s.settings.dryRun.holds = false) (faultless : s.cluster.plan = Cluster.faultless)
    (completed : (execute s).result = .ok ()) {sink : Sink} (lenient : sink.Lenient)
    (answers : List Gateway.Answer) (runId : String) :
    Converged s (s.renewed (execute s).state.cluster sink answers runId) := by
  obtain ⟨budgets, listings, plan⟩ := cluster_of_completed faultless completed
  have left : (s.renewed (execute s).state.cluster sink answers runId).evidence =
      { s.evidence with budgets := s.cluster.budgets.filter fun b =>
          b.key? ∉ (execute s).deletions.map some } := by
    rw [← budgets, Session.evidence, Session.renewed]
    dsimp only
    rw [listings]
    rfl
  have detected : (detect (s.renewed (execute s).state.cluster sink answers runId)).result =
      .ok () := by
    refine detected_of_tractable rfl plan lenient ?_
    rw [left]
    exact (tractable_of_detected fresh (parts_of_completed completed).1).of_sublist
      List.filter_sublist
  have unmarked (b : Budget) :
      b ∉ (s.renewed (execute s).state.cluster sink answers runId).evidence.marked := by
    rw [left]
    exact unmarked_of_completed fresh wet completed b
  obtain ⟨done, reapable, deletions, events⟩ := idle_of_unmarked rfl detected unmarked
  exact ⟨budgets, listings, done, reapable, deletions, events⟩

/-- The shop, where budgets may overlap. -/
def sharedShop : Session :=
  { shop Cluster.faultless .absent with settings := { reapMultiple := .bool false } }

/-- Where budgets may overlap, one budget of the shop is deleted and the other two are left: one of
them still blocks, and keeps its verdicts. -/
theorem converged_shop :
    sharedShop.ledger = {} ∧ sharedShop.settings.dryRun.holds = false ∧
      sharedShop.cluster.plan = Cluster.faultless ∧ (execute sharedShop).result = .ok () ∧
      emptyRegistry.Lenient ∧
      (execute sharedShop).deletions = [(some "shop", some "web")] ∧
      (execute sharedShop).state.cluster.budgets =
        [blockingBudget "shop" "api" 1, blockingBudget "kube-system" "dns" 0] ∧
      Converged sharedShop
        (sharedShop.renewed (execute sharedShop).state.cluster emptyRegistry [] "next") :=
  ⟨rfl, rfl, rfl, by rfl, lenient_emptyRegistry, by rfl, by rfl,
    converged rfl rfl rfl (by rfl) lenient_emptyRegistry [] "next"⟩

end Pass

end BudgetReaper
