import BudgetReaper.Proofs.Reaping.Remains
import BudgetReaper.Proofs.Reaping.Tractable

/-!
# Reaping — unhindered runs

Where no call fails and what the sink refuses it refuses as a failure to record, the evidence lays
down a whole run: its acts are the course of the detection and then, unless the run is dry, a deletion
with its signals for each budget marked (`Evidence.victims`, `Evidence.conclusion`).

**Unhindered** (`unhindered`).  Such a run completes exactly if its evidence is tractable
(`completed_iff_tractable`), and then nothing that it does is left to chance.  So two such runs are
compared by their evidence alone.

The deletions need an invariant of their own: every budget that is still to be removed is still there
(`Session.Ready`), since a removal takes the budgets of its own key away and the keys marked are
distinct.
-/

namespace BudgetReaper

namespace Evidence

/-- The budgets that a run marks, under their keys, in the order in which they are first marked. -/
def victims (e : Evidence) : List (Key × Budget) :=
  (e.scanned.markAll e.marked).reapable

/-- The acts of a removal that is granted. -/
def removing (e : Evidence) (equipped : Bool) (entry : Key × Budget) : List Effect :=
  .call (.delete entry.1) :: e.signals equipped entry.2 .deleted true

/-- The budgets that a run deletes: none in a dry run. -/
def condemned (e : Evidence) : List (Key × Budget) :=
  if e.settings.dryRun.holds then [] else e.victims

/-- The acts that follow the detection. -/
def conclusion (e : Evidence) (equipped : Bool) : List Effect :=
  e.condemned.flatMap (e.removing equipped)

/-- The ledger of a run that is granted all its deletions. -/
def books (e : Evidence) : Ledger where
  multiple := severalOf e.groups
  blocking := groupBySpace e.obstacles
  reapable := e.victims
  reaped := (Assoc.keys e.condemned).map Key.text

/-- A budget that is marked is a listed one that offends, under its own key. -/
theorem of_mem_victims {e : Evidence} {entry : Key × Budget} (h : entry ∈ e.victims) :
    entry.2 ∈ e.budgets ∧ e.Offends entry.2 ∧ entry.2.key? = some entry.1 := by
  rw [victims, scanned_eq] at h
  rcases Ledger.mem_markAll h with h | ⟨marked, own⟩
  · cases h
  · obtain ⟨listed, offends⟩ := mem_marked.mp marked
    exact ⟨listed, offends, own⟩

theorem nodup_victims (e : Evidence) : (Assoc.keys e.victims).Nodup := by
  have none_marked : (Assoc.keys ([] : List (Key × Budget))).Nodup := List.nodup_nil
  rw [victims, scanned_eq]
  exact Ledger.nodup_markAll none_marked _

theorem condemned_sublist (e : Evidence) : e.condemned.Sublist e.victims := by
  unfold condemned
  split
  · exact List.nil_sublist _
  · exact List.Sublist.refl _

theorem signals_congr {e e' : Evidence} (same : e'.now = e.now) : e'.signals = e.signals := by
  funext equipped b reason verdict
  rw [signals, signals, same]

theorem removing_congr {e e' : Evidence} (same : e'.now = e.now) : e'.removing = e.removing := by
  funext equipped entry
  rw [removing, removing, signals_congr same]

/-- A signal deletes nothing. -/
theorem deleted_signals (e : Evidence) (equipped : Bool) (b : Budget) (reason : Reason)
    (verdict : Bool) : (e.signals equipped b reason verdict).filterMap Effect.deleted? = [] := by
  unfold signals
  cases b.metadata with
  | none => rfl
  | some m => cases verdict <;> cases equipped <;> rfl

/-- The conclusion asks for every budget to be deleted that the run deletes. -/
theorem deleted_conclusion (e : Evidence) (equipped : Bool) :
    (e.conclusion equipped).filterMap Effect.deleted? = Assoc.keys e.condemned := by
  have removing (entry : Key × Budget) :
      (e.removing equipped entry).filterMap Effect.deleted? = [entry.1] := by
    rw [Evidence.removing, List.filterMap_cons, deleted_signals]
    rfl
  rw [conclusion, List.filterMap_flatMap]
  simp only [removing]
  exact List.map_eq_flatMap.symm

end Evidence

namespace Pass

open BudgetReaper.Action

/-! ### One removal -/

/-- In a tame session the acts of a signal are those that the evidence lays down. -/
theorem acts_signal_of_tame {p : Plan} {equipped : Bool} (remote : p.Remote) {b : Budget}
    {m : Metadata} (hm : b.metadata = some m) (reason : Reason) {s : Session}
    (tame : s.Tame p equipped) (change : Ledger → Ledger) :
    (signal b reason change s).state.ledger = change s.ledger ∧
      (signal b reason change s).trace.filter Effect.isAct =
        s.evidence.signals equipped b reason true := by
  have published : (announce b reason s).result = .ok () := announce_of_tame remote hm tame
  have laid : s.evidence.signals equipped b reason true =
      .call (publication (.about b m reason s.now)) ::
        if equipped then [.sample (sampleOf m reason (.int 1))] else [] := by
    rw [Evidence.signals, hm]
    rfl
  rw [laid]
  cases equipped with
  | true => exact acts_signal tame.present hm change published
  | false =>
      obtain ⟨counted, call⟩ := acts_announce hm reason s
      have silent := tally_absent
        (s := { (announce b reason s).state with
          ledger := change (announce b reason s).state.ledger })
        (by rw [counted]; exact tame.present) b reason (.int 1)
      rw [signal, bind_of_ok published, post, update_bind]
      refine ⟨?_, ?_⟩
      · change (tally b reason (.int 1) _).state.ledger = _
        rw [silent, counted]
        rfl
      · change ((announce b reason s).trace ++ (tally b reason (.int 1) _).trace).filter _ = _
        rw [silent, List.append_nil, call]
        rfl

/-- The removal of a budget that is there, where no call fails. -/
theorem remove_of_held {equipped : Bool} {entry : Key × Budget} {s : Session}
    (wet : s.settings.dryRun.holds = false) (tame : s.Tame Cluster.faultless equipped)
    (named : s.cluster.isNamed = true) (own : entry.2.key? = some entry.1)
    (held : s.cluster.holds entry.1 = true) :
    (remove entry s).result = .ok () ∧
      (remove entry s).state.ledger = s.ledger.reap entry.1.text ∧
        (remove entry s).trace.filter Effect.isAct = s.evidence.removing equipped entry := by
  obtain ⟨m, hm, -⟩ := Option.map_eq_some_iff.mp own
  have spares : s.cluster.plan.Spares := tame.plan ▸ Plan.spares_faultless
  have answer := Cluster.answerToDelete_of_spares named spares entry.1
  rw [if_pos held] at answer
  have deleted := deleteBudget_of_ok answer
  have tame' := (replayed_deleteBudget entry.1 s).tame tame
  rw [remove_of_wet wet, bind_of_ok (x := true) (by rw [deleted]), settle_granted, say_bind]
  rw [deleted] at tame' ⊢
  obtain ⟨ledger, acts⟩ := acts_signal_of_tame Plan.remote_faultless hm .deleted tame'
    (·.reap entry.1.text)
  refine ⟨signal_of_tame Plan.remote_faultless hm tame' _, ledger, ?_⟩
  exact congrArg (Effect.call (.delete entry.1) :: ·) acts

end Pass

/-! ### All of them -/

/-- A session at which the removal of the entries will be granted, one after the other. -/
structure Session.Ready (equipped : Bool) (entries : List (Key × Budget)) (s : Session) : Prop where
  wet : s.settings.dryRun.holds = false
  tame : s.Tame Cluster.faultless equipped
  named : s.cluster.isNamed = true
  own : ∀ entry ∈ entries, entry.2.key? = some entry.1
  distinct : (Assoc.keys entries).Nodup
  held : ∀ entry ∈ entries, s.cluster.holds entry.1 = true

namespace Pass

open BudgetReaper.Action

variable {equipped : Bool} {entry : Key × Budget} {rest entries : List (Key × Budget)} {s : Session}

/-- A removal leaves a session that is ready for those after it. -/
theorem ready_remove (h : s.Ready equipped (entry :: rest)) :
    (remove entry s).state.Ready equipped rest := by
  have replayed := replayed_remove entry s
  have asked : Cluster.asked (remove entry s).calls = [entry.1] := by
    rw [asked_calls, deletions_remove, h.wet]
    rfl
  have spares : s.cluster.plan.Spares := h.tame.plan ▸ Plan.spares_faultless
  obtain ⟨apart, distinct⟩ := List.nodup_cons.mp h.distinct
  refine ⟨?_, replayed.tame h.tame, ?_, fun e he => h.own e (List.mem_cons_of_mem _ he), distinct,
    fun e he => ?_⟩
  · have kept : (remove entry s).state.settings = s.settings :=
      keeps_remove (fun _ _ => rfl) (fun _ _ => rfl) (fun _ _ => rfl) entry s
    rw [kept]
    exact h.wet
  · rw [replayed.cluster]
    exact Cluster.isNamed_after h.named _
  · -- the keys are distinct, and a removal asks for its own key only
    have other : e.1 ∉ [entry.1] := by
      intro same
      rw [← List.mem_singleton.mp same] at apart
      exact apart (List.mem_map_of_mem he)
    rw [replayed.cluster]
    refine (Cluster.holds_after h.named spares _ e.1).mpr ⟨h.held e (List.mem_cons_of_mem _ he), ?_⟩
    change e.1 ∉ Cluster.asked (remove entry s).calls
    rw [asked]
    exact other

/-- In a session that is ready for them all removals are granted. -/
theorem forEach_remove_of_ready (h : s.Ready equipped entries) :
    (forEach remove entries s).result = .ok () ∧
      (forEach remove entries s).state.ledger = { s.ledger with
        reaped := s.ledger.reaped ++ (Assoc.keys entries).map Key.text } ∧
        (forEach remove entries s).trace.filter Effect.isAct =
          entries.flatMap (s.evidence.removing equipped) := by
  induction entries generalizing s with
  | nil => exact ⟨rfl, by rw [Assoc.keys_nil, List.map_nil, List.append_nil]; rfl, rfl⟩
  | cons entry rest ih =>
      have listed := List.mem_cons_self (a := entry) (l := rest)
      obtain ⟨done, ledger, acts⟩ :=
        remove_of_held h.wet h.tame h.named (h.own entry listed) (h.held entry listed)
      obtain ⟨done', ledger', acts'⟩ := ih (ready_remove h)
      have clock : Keeps (fun s : Session => s.evidence.now) (remove entry) :=
        keeps_remove (fun _ _ => rfl) (fun _ _ => rfl) (fun _ _ => rfl) entry
      -- the evidence lays the acts down at the first session, and only its clock is read
      rw [forEach, bind_of_ok done]
      refine ⟨done', ?_, ?_⟩
      · rw [ledger', ledger, Assoc.keys_cons, List.map_cons]
        simp only [Ledger.reap, List.append_assoc, List.singleton_append]
      · rw [List.filter_append, acts, acts', List.flatMap_cons, Evidence.removing_congr (clock s)]

/-- A conclusion that is past its removals leaves what they leave. -/
theorem state_conclude (removed : (forEach remove s.ledger.reapable s).result = .ok ()) :
    (conclude s).state = (forEach remove s.ledger.reapable s).state := by
  have past : (inPhase .deletion removeMarked s).result = .ok () :=
    congrArg (Except.mapError Phase.deletion.wrap) removed
  rw [conclude, bind_of_ok past]
  rfl

/-- What follows a detection where no call fails. -/
theorem conclude_of_ready {e : Evidence} (settings : s.settings = e.settings) (now : s.now = e.now)
    (ledger : s.ledger = { e.books with reaped := [] })
    (ready : s.settings.dryRun.holds = false → s.Ready equipped e.victims) :
    (conclude s).result = .ok () ∧ (conclude s).state.ledger = e.books ∧
      (conclude s).trace.filter Effect.isAct = e.conclusion equipped := by
  have marked : s.ledger.reapable = e.victims := by rw [ledger]; rfl
  cases hd : s.settings.dryRun.holds with
  | true =>
      have condemned : e.condemned = [] := by rw [Evidence.condemned, ← settings, hd, if_pos rfl]
      obtain ⟨done, same, told⟩ := conclude_of_dry hd
      rw [same, Effect.filter_acts_notices told, ledger, Evidence.books, Evidence.conclusion,
        condemned]
      exact ⟨done, rfl, rfl⟩
  | false =>
      have condemned : e.condemned = e.victims := by
        rw [Evidence.condemned, ← settings, hd, if_neg Bool.false_ne_true]
      obtain ⟨removed, reached, acts⟩ := forEach_remove_of_ready (ready hd)
      rw [← marked] at removed reached acts
      obtain ⟨later, ht, told⟩ := trace_conclude s
      refine ⟨?_, ?_, ?_⟩
      · rw [result_conclude, inPhase, rephrase_apply, removed]
        rfl
      · rw [state_conclude removed, reached, marked, ledger, Evidence.books, condemned]
        rfl
      · rw [ht, List.filter_append, Effect.filter_acts_notices told, List.append_nil, acts, marked,
          Evidence.conclusion, condemned, Evidence.removing_congr (e := e) now]

/-! ### The whole run -/

/-- What a run comes to whose evidence is tractable, where no call fails. -/
structure Unhindered (s : Session) : Prop where
  completed : (execute s).result = .ok ()
  acts : (execute s).trace.filter Effect.isAct =
    s.evidence.course s.sink.isPresent ++ s.evidence.conclusion s.sink.isPresent
  deletions : (execute s).deletions = Assoc.keys s.evidence.condemned
  ledger : (execute s).state.ledger = s.evidence.books

/-- Past its detection, a session is ready for the removal of what has been marked. -/
theorem ready_detect (fresh : s.ledger = {}) (faultless : s.cluster.plan = Cluster.faultless)
    (lenient : s.sink.Lenient) (detected : (detect s).result = .ok ())
    (wet : (detect s).state.settings.dryRun.holds = false) :
    (detect s).state.Ready s.sink.isPresent s.evidence.victims := by
  have replayed := replayed_detect s
  obtain ⟨same, ledger⟩ := ledger_detect fresh detected
  have victims : s.evidence.victims = (detect s).state.ledger.reapable := by
    rw [ledger, Evidence.victims]
  have budgets : (detect s).state.cluster.budgets = s.cluster.budgets :=
    congrArg Evidence.budgets same
  rw [victims]
  refine ⟨wet, replayed.tame ⟨faultless, rfl, lenient⟩, ?_, ?_, nodup_detect fresh detected, ?_⟩
  · rw [replayed.cluster]
    exact Cluster.isNamed_after (isNamed_of_detected detected) _
  · exact fun entry he => (offends_of_mem_detect fresh detected he).1
  · intro entry he
    have own := (offends_of_mem_detect fresh detected he).1
    rw [Cluster.holds, budgets, List.any_eq_true]
    exact ⟨entry.2, listed_of_mem_detect fresh detected he, beq_iff_eq.mpr own⟩

/-- Where no call fails and the evidence is tractable, the evidence lays down the whole run. -/
theorem unhindered (fresh : s.ledger = {}) (faultless : s.cluster.plan = Cluster.faultless)
    (lenient : s.sink.Lenient) (tractable : s.evidence.Tractable) : Unhindered s := by
  have detected := detected_of_tractable fresh faultless lenient tractable
  obtain ⟨same, found⟩ := ledger_detect fresh detected
  have ledger : (detect s).state.ledger = { s.evidence.books with reaped := [] } := by
    rw [found, Ledger.markAll_eq, Evidence.books, Evidence.victims, Evidence.scanned_eq]
  obtain ⟨done, books, concluded⟩ :=
    conclude_of_ready (congrArg Evidence.settings same) (congrArg Evidence.now same) ledger
      (ready_detect fresh faultless lenient detected)
  refine ⟨?_, ?_, ?_, ?_⟩
  · rw [execute_of_ok detected]
    exact done
  · rw [execute_of_ok detected, List.filter_append, (acts_detect fresh).2 detected, concluded]
  · rw [deletions_execute, closing_of_ok detected, ← Effect.filterMap_acts _ fun _ => rfl,
      concluded, Evidence.deleted_conclusion]
  · rw [execute_of_ok detected]
    exact books

/-- Where no call fails, a run completes exactly if its evidence is tractable. -/
theorem completed_iff_tractable (fresh : s.ledger = {})
    (faultless : s.cluster.plan = Cluster.faultless) (lenient : s.sink.Lenient) :
    (execute s).result = .ok () ↔ s.evidence.Tractable :=
  ⟨fun completed => tractable_of_detected fresh (parts_of_completed completed).1,
    fun tractable => (unhindered fresh faultless lenient tractable).completed⟩

end Pass

end BudgetReaper
