import BudgetReaper.Proofs.Reaping.Admission
import BudgetReaper.Proofs.Reaping.Halt

/-!
# Reaping — what a detection needs

Evidence is *tractable* when every listed budget is admitted, every budget of a namespace that may
be crowded can ask for its pods, and every blocking budget can ask for its pods and is given a
verdict by each check (`Evidence.Tractable`).  This is said of the budgets one by one, so fewer
budgets are tractable as well (`Tractable.of_sublist`).

**Tractable** (`tractable_of_detected`, `detected_of_tractable`).  A run that is past its detection has
tractable evidence, whatever may fail in it; and where no call fails, a run with tractable evidence
gets past its detection.
-/

namespace BudgetReaper

/-- Fewer budgets are admitted if all of them are. -/
theorem Settings.admission_sublist {st : Settings} {budgets fewer : List Budget}
    (sub : fewer.Sublist budgets) (h : st.admission budgets = .ok ()) :
    st.admission fewer = .ok () := by
  induction sub with
  | slnil => rfl
  | cons b _ ih =>
      rw [admission] at h
      split at h
      · cases h
      · split at h
        · cases h
        · exact ih h
  | cons_cons b _ ih =>
      rw [admission] at h ⊢
      cases hm : b.metadata with
      | none => simp [hm] at h
      | some m =>
          simp only [hm] at h ⊢
          split at h
          · cases h
          · next excluded => simpa only [excluded] using ih h

namespace Evidence

/-- Nothing in the evidence stops a detection. -/
structure Tractable (e : Evidence) : Prop where
  admitted : e.settings.admission e.budgets = .ok ()
  judged : e.settings.reapMultiple.holds = true → ∀ space, e.Watches space →
    1 < (e.budgetsOf space).length → ∀ b ∈ e.budgetsOf space, b.Asks
  checked : ∀ space, e.Watches space → ∀ b ∈ e.budgetsOf space, b.isBlocking = true →
    e.Checked (space, b)

variable {e : Evidence} {fewer : List Budget}

theorem sublist_budgetsOf (sub : fewer.Sublist e.budgets) (space : Option String) :
    (budgetsOf { e with budgets := fewer } space).Sublist (e.budgetsOf space) :=
  sub.filter _

/-- Fewer budgets are tractable. -/
theorem Tractable.of_sublist (h : e.Tractable) (sub : fewer.Sublist e.budgets) :
    Tractable { e with budgets := fewer } where
  admitted := Settings.admission_sublist sub h.admitted
  judged on space watched several b hb := by
    have within := sublist_budgetsOf sub space
    exact h.judged on space watched (Nat.lt_of_lt_of_le several within.length_le) b (within.subset hb)
  checked space watched b hb blocks :=
    h.checked space watched b ((sublist_budgetsOf sub space).subset hb) blocks

/-! ### What is grouped -/

theorem mem_entriesOf_several {x : Option String × Budget} :
    x ∈ entriesOf (severalOf e.groups) ↔
      e.Watches x.1 ∧ 1 < (e.budgetsOf x.1).length ∧ x.2 ∈ e.budgetsOf x.1 := by
  rw [mem_entriesOf (k := x.1) (v := x.2)]
  constructor
  · rintro ⟨bs, hg, hb⟩
    obtain ⟨hg, several⟩ := List.mem_filter.mp hg
    obtain ⟨watched, rfl, -⟩ := mem_groups.mp hg
    exact ⟨watched, of_decide_eq_true several, hb⟩
  · rintro ⟨watched, several, hb⟩
    have hg := mem_groups.mpr ⟨watched, rfl, List.ne_nil_of_mem hb⟩
    exact ⟨_, List.mem_filter.mpr ⟨hg, decide_eq_true several⟩, hb⟩

theorem mem_entriesOf_blocking {x : Option String × Budget} :
    x ∈ entriesOf (groupBySpace e.obstacles) ↔
      e.Watches x.1 ∧ x.2 ∈ e.budgetsOf x.1 ∧ x.2.isBlocking = true := by
  rw [mem_entriesOf (k := x.1) (v := x.2), mem_group_iff, mem_obstacles]

/-- What a scan enters has metadata. -/
theorem named_of_mem_scanned {x : Option String × Budget}
    (h : x ∈ entriesOf e.scanned.multiple ∨ x ∈ entriesOf e.scanned.blocking) :
    x.2.metadata ≠ none := by
  have listed : x.2 ∈ e.budgetsOf x.1 := by
    rw [scanned_eq] at h
    rcases h with h | h
    · exact (mem_entriesOf_several.mp h).2.2
    · exact (mem_entriesOf_blocking.mp h).2.1
  obtain ⟨-, m, hm, -⟩ := mem_budgetsOf.mp listed
  rw [hm]
  nofun

end Evidence

/-! ### What stops where no call fails -/

section Faultless

variable {e : Evidence} {equipped : Bool} {f : Failure} {acts : List Effect}

theorem Lapse.not_asks {space : Option String} {b : Budget}
    (h : Lapse Cluster.faultless space b f acts) : ¬ b.Asks := by
  rintro ⟨text, asks⟩
  cases h with
  | query unasked =>
      rw [asks] at unasked
      cases unasked
  | listing _ refused => cases refused

theorem Breach.not_checked {x : Option String × Budget} {marks : List Budget}
    (h : Breach e Cluster.faultless equipped x f acts marks) : ¬ e.Checked x := by
  rintro ⟨asks, told⟩
  cases h with
  | lapse lapse => exact lapse.not_asks asks
  | @verdict rs rs' r _ _ reasons _ untold =>
      obtain ⟨verdict, given⟩ := told r (reasons ▸ List.mem_append_right _ (List.mem_cons_self ..))
      rw [given] at untold
      cases untold

theorem Halt.not_tractable {phase : Phase} {reached : Ledger}
    (h : Halt e Cluster.faultless equipped e.scanned phase f acts reached) : ¬ e.Tractable := by
  intro tractable
  rw [Evidence.scanned_eq] at h
  cases h with
  | @overlap gs gs' g bs bs' b _ _ on groups members _ _ lapse =>
      have groups : severalOf e.groups = gs ++ g :: gs' := groups
      have hg : g ∈ severalOf e.groups := groups ▸ List.mem_append_right _ (List.mem_cons_self ..)
      have hb : b ∈ g.2 := members ▸ List.mem_append_right _ (List.mem_cons_self ..)
      obtain ⟨watched, several, hb⟩ :=
        Evidence.mem_entriesOf_several.mp (mem_entriesOf.mpr ⟨g.2, hg, hb⟩)
      exact lapse.not_asks (tractable.judged on _ watched several _ hb)
  | @check xs xs' x _ _ _ _ entries _ breach =>
      have hx : x ∈ entriesOf (groupBySpace e.obstacles) :=
        entries ▸ List.mem_append_right _ (List.mem_cons_self ..)
      obtain ⟨watched, hb, blocks⟩ := Evidence.mem_entriesOf_blocking.mp hx
      exact breach.not_checked (tractable.checked _ watched _ hb blocks)

end Faultless

namespace Pass

open BudgetReaper.Action

/-- A run that is past its detection has tractable evidence. -/
theorem tractable_of_detected {s : Session} (fresh : s.ledger = {})
    (detected : (detect s).result = .ok ()) : s.evidence.Tractable := by
  have start : s.findings = (s.evidence, {}) := Prod.ext rfl fresh
  obtain ⟨judged, checked⟩ := demands_detect s start () detected
  rw [Evidence.entered_empty, Evidence.scanned_eq] at judged checked
  refine ⟨admission_of_detected detected, fun on space watched several b hb => ?_,
    fun space watched b hb blocks => ?_⟩
  · have entered := Evidence.mem_entriesOf_several (x := (space, b)).mpr ⟨watched, several, hb⟩
    obtain ⟨bs, hg, hb⟩ := mem_entriesOf.mp entered
    exact judged on _ hg b hb
  · exact checked _ (Evidence.mem_entriesOf_blocking.mpr ⟨watched, hb, blocks⟩)

/-- Where no call fails, a run with tractable evidence gets past its detection. -/
theorem detected_of_tractable {s : Session} (fresh : s.ledger = {})
    (faultless : s.cluster.plan = Cluster.faultless) (lenient : s.sink.Lenient)
    (tractable : s.evidence.Tractable) : (detect s).result = .ok () := by
  have never : Breaks Session.findings (Session.Tame Cluster.faultless s.sink.isPresent) detect
      (s.evidence, {}) fun _ _ _ => False := by
    refine breaks_detect Plan.remote_faultless (fun _ _ h => nomatch h) (fun f hf => ?_)
      (fun phase f acts reached halt => halt.not_tractable tractable)
      fun x hx f _ _ unnamed => Evidence.named_of_mem_scanned hx unnamed.1
    rw [tractable.admitted] at hf
    cases hf
  cases hr : (detect s).result with
  | ok _ => rfl
  | error f => exact (never s (Prod.ext rfl fresh) ⟨faultless, rfl, lenient⟩ f hr).elim

end Pass

end BudgetReaper
