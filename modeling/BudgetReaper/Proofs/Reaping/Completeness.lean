import Mathlib.Data.List.Nodup
import BudgetReaper.Proofs.Reaping.Bookkeeping
import BudgetReaper.Proofs.Reaping.Course

/-!
# Reaping — the samples of a run are complete

For each budget listed, the samples that a completed run gives of it are laid down one by one: the
baseline that the scan gives of a blocking budget, the judgement of a namespace with several
budgets, the verdicts of the checks, and the deletion (`Complete`).  An absent sample is as much
laid down as a sample, and no sample is given of anything that is not listed.

The samples of the detection are those of its course, which come in blocks, one for each budget in
each of the phases.  Where keys are distinct the samples of a key are those of its own block
(`Entered.filter_flatMap`).  The samples of the conclusion are those of the deletions granted.
-/

namespace BudgetReaper

/-! ### What is due -/

namespace Evidence

instance (e : Evidence) (space : Option String) : Decidable (e.Watches space) :=
  match h : e.settings.isExcluded (.ofText? space) with
  | .ok false => isTrue h
  | .ok true => isFalse fun w => nomatch h.symm.trans w
  | .error _ => isFalse fun w => nomatch h.symm.trans w

/-- The sample of a verdict about a budget, if it has metadata. -/
def reading (b : Budget) (reason : Reason) (verdict : Bool) : List Sample :=
  match b.metadata with
  | none => []
  | some m => [Pass.sampleOf m reason (.int (if verdict then 1 else 0))]

/-- The sample that the scan gives of a blocking budget: it has not been deleted. -/
def baseline (e : Evidence) (b : Budget) (m : Metadata) : List Sample :=
  if e.Watches m.space ∧ b.isBlocking = true then [⟨m.key, .deleted, .int 0⟩] else []

/-- The sample of each budget in a namespace of several, if overlaps are judged at all. -/
def judgement (e : Evidence) (m : Metadata) : List Sample :=
  if e.settings.reapMultiple.holds = true ∧ e.Watches m.space ∧ 1 < (e.budgetsOf m.space).length then
    [⟨m.key, .multiple,
      .int (if e.repeats (m.space, e.budgetsOf m.space) then 1 else 0)⟩]
  else []

/-- The samples of the checks of a blocking budget; a check switched off has the verdict false. -/
def verdicts (e : Evidence) (b : Budget) (m : Metadata) : List Sample :=
  if e.Watches m.space ∧ b.isBlocking = true then
    Pass.checks.map fun reason =>
      ⟨m.key, reason, .int (if e.finds b (e.selected m.space b) reason then 1 else 0)⟩
  else []

theorem key_of_mem_reading {b : Budget} {reason : Reason} {verdict : Bool} {x : Sample}
    (h : x ∈ reading b reason verdict) : b.key? = some x.key := by
  unfold reading at h
  rw [Budget.key?]
  cases hm : b.metadata with
  | none => simp [hm] at h
  | some m =>
      rw [hm] at h
      obtain rfl := List.mem_singleton.mp h
      rfl

end Evidence

/-! ### Blocks of samples -/

/-- Where each item gives samples of its own key, and keys are distinct, the samples of a key are
those of its item. -/
theorem filter_flatMap_of_mem {α : Type} {key? : α → Option Key} {f : α → List Sample}
    {items : List α} (distinct : (items.map key?).Nodup)
    (own : ∀ x ∈ items, ∀ y ∈ f x, key? x = some y.key) {x : α} (h : x ∈ items) {key : Key}
    (hk : key? x = some key) : (items.flatMap f).filter (·.key = key) = f x := by
  induction items with
  | nil => cases h
  | cons first rest ih =>
      obtain ⟨apart, distinct⟩ := List.nodup_cons.mp distinct
      have own' : ∀ x ∈ rest, ∀ y ∈ f x, key? x = some y.key :=
        fun x hx => own x (List.mem_cons_of_mem first hx)
      rw [List.flatMap_cons, List.filter_append]
      rcases List.mem_cons.mp h with rfl | later
      · have all : (f x).filter (·.key = key) = f x := by
          refine List.filter_eq_self.mpr fun y hy => decide_eq_true ?_
          exact Option.some.inj ((own x (List.mem_cons_self ..) y hy).symm.trans hk)
        have none_later : (rest.flatMap f).filter (·.key = key) = [] := by
          refine List.filter_eq_nil_iff.mpr fun y hy same => ?_
          obtain ⟨x', hx, hy⟩ := List.mem_flatMap.mp hy
          refine apart (List.mem_map.mpr ⟨x', hx, ?_⟩)
          rw [own' x' hx y hy, hk, of_decide_eq_true same]
        rw [all, none_later, List.append_nil]
      · have none_first : (f first).filter (·.key = key) = [] := by
          refine List.filter_eq_nil_iff.mpr fun y hy same => ?_
          refine apart (List.mem_map.mpr ⟨x, later, ?_⟩)
          rw [own first (List.mem_cons_self ..) y hy, hk, of_decide_eq_true same]
        rw [none_first, ih distinct own' later, List.nil_append]

namespace Evidence

/-- Entries of listed budgets under their own namespaces, of each key at most one. -/
structure Entered (e : Evidence) (entries : List (Option String × Budget)) : Prop where
  listed : ∀ x ∈ entries, x.2 ∈ e.budgets ∧ ∃ m, x.2.metadata = some m ∧ m.space = x.1
  distinct : (entries.map fun x => x.2.key?).Nodup

namespace Entered

variable {e : Evidence} {entries entries' : List (Option String × Budget)}

theorem sublist (h : e.Entered entries) (part : entries'.Sublist entries) : e.Entered entries' where
  listed x hx := h.listed x (part.subset hx)
  distinct := h.distinct.sublist (part.map _)

theorem perm (h : e.Entered entries) (same : entries'.Perm entries) : e.Entered entries' where
  listed x hx := h.listed x (same.subset hx)
  distinct := (same.map _).nodup_iff.mpr h.distinct

/-- Where listed keys are distinct, the samples of a listed key are those of its own entry. -/
theorem filter_flatMap (h : e.Entered entries)
    (distinct : (e.budgets.map Budget.key?).Nodup) {f : Option String × Budget → List Sample}
    (own : ∀ x ∈ entries, ∀ y ∈ f x, x.2.key? = some y.key) {b : Budget} {m : Metadata}
    (hb : b ∈ e.budgets) (hm : b.metadata = some m) :
    (entries.flatMap f).filter (·.key = m.key) =
      if (m.space, b) ∈ entries then f (m.space, b) else [] := by
  have key : b.key? = some m.key := by rw [Budget.key?, hm]; rfl
  split
  · next entered => exact filter_flatMap_of_mem h.distinct own entered key
  · next missing =>
      refine List.filter_eq_nil_iff.mpr fun y hy same => ?_
      obtain ⟨⟨space, b'⟩, hx, hy⟩ := List.mem_flatMap.mp hy
      obtain ⟨listed, m', hm', space_eq⟩ := h.listed _ hx
      -- an entry with samples of the key is of the budget itself
      have key' : b'.key? = b.key? := by
        rw [own _ hx y hy, key, of_decide_eq_true same]
      obtain rfl : b' = b := List.inj_on_of_nodup_map distinct listed hb key'
      obtain rfl : m' = m := Option.some.inj (hm'.symm.trans hm)
      exact missing (space_eq ▸ hx)

end Entered

variable {e : Evidence}

/-- What the scan groups. -/
theorem entered_visible (distinct : (e.budgets.map Budget.key?).Nodup) :
    e.Entered (e.budgets.filterMap (visible? e.settings)) := by
  have visible {b : Budget} {x : Option String × Budget} (h : visible? e.settings b = some x) :
      x.2 = b ∧ ∃ m, b.metadata = some m ∧ m.space = x.1 := by
    obtain ⟨m, hm, hx⟩ := Option.bind_eq_some_iff.mp h
    split at hx
    · obtain rfl := Option.some.inj hx
      exact ⟨rfl, m, hm, rfl⟩
    · cases hx
  refine ⟨fun x hx => ?_, ?_⟩
  · obtain ⟨b, hb, hv⟩ := List.mem_filterMap.mp hx
    obtain ⟨rfl, named⟩ := visible hv
    exact ⟨hb, named⟩
  · refine distinct.sublist ?_
    clear distinct
    induction e.budgets with
    | nil => exact List.Sublist.refl _
    | cons b rest ih =>
        rw [List.filterMap_cons]
        cases hv : visible? e.settings b with
        | none => exact ih.cons _
        | some x =>
            obtain ⟨own, -⟩ := visible hv
            simp only [List.map_cons, own]
            exact ih.cons_cons _

theorem entered_groups (distinct : (e.budgets.map Budget.key?).Nodup) :
    e.Entered (entriesOf e.groups) :=
  (entered_visible distinct).perm (perm_entriesOf_groupBySpace _)

theorem obstacles_eq (e : Evidence) :
    e.obstacles = (entriesOf e.groups).filter fun x => x.2.isBlocking := by
  rw [obstacles, entriesOf, List.filter_flatMap]
  refine List.flatMap_congr fun g _ => ?_
  rw [List.filter_map]
  induction g.2 with
  | nil => rfl
  | cons b rest ih =>
      rw [List.flatMap_cons, ih, List.filter_cons]
      cases hb : b.isBlocking with
      | true => simp [hb]
      | false => simp [hb]

theorem entered_obstacles (distinct : (e.budgets.map Budget.key?).Nodup) :
    e.Entered e.obstacles :=
  (entered_groups distinct).sublist (obstacles_eq e ▸ List.filter_sublist)

theorem entered_several (distinct : (e.budgets.map Budget.key?).Nodup) :
    e.Entered (entriesOf (severalOf e.groups)) :=
  (entered_groups distinct).sublist (sublist_entriesOf List.filter_sublist)

theorem entered_checked (distinct : (e.budgets.map Budget.key?).Nodup) :
    e.Entered (entriesOf (groupBySpace e.obstacles)) :=
  (entered_obstacles distinct).perm (perm_entriesOf_groupBySpace _)

/-! ### The samples of a course -/

theorem samples_signals (e : Evidence) (b : Budget) (reason : Reason) (verdict : Bool) :
    (e.signals true b reason verdict).filterMap Effect.sample? = reading b reason verdict := by
  unfold signals reading
  cases b.metadata with
  | none => rfl
  | some m => cases verdict <;> rfl

theorem samples_inquiry (space : Option String) (b : Budget) :
    (inquiry space b).filterMap Effect.sample? = [] := by
  unfold inquiry
  split
  · rfl
  · split <;> rfl

theorem samples_scanning (e : Evidence) :
    (e.scanning true).filterMap Effect.sample? =
      e.obstacles.flatMap fun x => reading x.2 .deleted false := by
  rw [scanning, List.filterMap_cons]
  simp only [Effect.sample?, List.filterMap_flatMap, samples_signals]

theorem samples_judging (e : Evidence) :
    ((severalOf e.groups).flatMap (e.judging true)).filterMap Effect.sample? =
      (entriesOf (severalOf e.groups)).flatMap fun x =>
        reading x.2 .multiple (e.repeats (x.1, e.budgetsOf x.1)) := by
  rw [List.filterMap_flatMap, entriesOf, List.flatMap_assoc]
  refine List.flatMap_congr fun g hg => ?_
  -- a group holds the budgets of its namespace
  obtain ⟨space, bs⟩ := g
  obtain ⟨-, rfl, -⟩ := mem_groups.mp (List.mem_filter.mp hg).1
  simp only [judging, List.filterMap_append, List.filterMap_flatMap, samples_inquiry,
    samples_signals, List.flatMap_map]
  simp

theorem samples_checking (e : Evidence) :
    ((groupBySpace e.obstacles).flatMap fun g =>
        g.2.flatMap (e.checking true g.1)).filterMap Effect.sample? =
      (entriesOf (groupBySpace e.obstacles)).flatMap fun x => Pass.checks.flatMap fun reason =>
        reading x.2 reason (e.finds x.2 (e.selected x.1 x.2) reason) := by
  rw [List.filterMap_flatMap, entriesOf, List.flatMap_assoc]
  refine List.flatMap_congr fun g _ => ?_
  simp only [checking, List.filterMap_append, List.filterMap_flatMap, samples_inquiry,
    samples_signals, List.flatMap_map, List.nil_append]

variable {b : Budget} {m : Metadata}

theorem reading_of_named (hm : b.metadata = some m) (reason : Reason) (verdict : Bool) :
    reading b reason verdict = [⟨m.key, reason, .int (if verdict then 1 else 0)⟩] := by
  rw [reading, hm]
  rfl

/-- A listed budget stands in the list of budgets of its namespace. -/
theorem mem_budgetsOf_of_named (hb : b ∈ e.budgets) (hm : b.metadata = some m) :
    b ∈ e.budgetsOf m.space :=
  mem_budgetsOf.mpr ⟨hb, m, hm, rfl⟩

theorem filter_scanning (distinct : (e.budgets.map Budget.key?).Nodup) (hb : b ∈ e.budgets)
    (hm : b.metadata = some m) :
    ((e.scanning true).filterMap Effect.sample?).filter (·.key = m.key) = e.baseline b m := by
  rw [samples_scanning, (entered_obstacles distinct).filter_flatMap distinct
    (fun x _ y hy => key_of_mem_reading hy) hb hm, baseline]
  refine if_congr ?_ (reading_of_named hm _ _) rfl
  rw [mem_obstacles]
  exact and_congr_right fun _ => and_iff_right (mem_budgetsOf_of_named hb hm)

theorem filter_judging (distinct : (e.budgets.map Budget.key?).Nodup) (hb : b ∈ e.budgets)
    (hm : b.metadata = some m) :
    ((if e.settings.reapMultiple.holds then (severalOf e.groups).flatMap (e.judging true)
        else []).filterMap Effect.sample?).filter (·.key = m.key) = e.judgement m := by
  rw [judgement]
  split
  · next on =>
      rw [samples_judging, (entered_several distinct).filter_flatMap distinct
        (fun x _ y hy => key_of_mem_reading hy) hb hm]
      refine if_congr ?_ (reading_of_named hm _ _) rfl
      rw [mem_entriesOf]
      constructor
      · rintro ⟨bs, hg, -⟩
        obtain ⟨hg, several⟩ := List.mem_filter.mp hg
        obtain ⟨watched, rfl, -⟩ := mem_groups.mp hg
        exact ⟨on, watched, of_decide_eq_true several⟩
      · rintro ⟨-, watched, several⟩
        have entered := mem_budgetsOf_of_named hb hm
        have hg := mem_groups.mpr ⟨watched, rfl, List.ne_nil_of_mem entered⟩
        exact ⟨_, List.mem_filter.mpr ⟨hg, decide_eq_true several⟩, entered⟩
  · next off => exact (if_neg fun h => off h.1).symm

theorem filter_checking (distinct : (e.budgets.map Budget.key?).Nodup) (hb : b ∈ e.budgets)
    (hm : b.metadata = some m) :
    (((groupBySpace e.obstacles).flatMap fun g =>
        g.2.flatMap (e.checking true g.1)).filterMap Effect.sample?).filter (·.key = m.key) =
      e.verdicts b m := by
  rw [samples_checking, (entered_checked distinct).filter_flatMap distinct _ hb hm, verdicts]
  · refine if_congr ?_ ?_ rfl
    · rw [mem_entriesOf, mem_group_iff, mem_obstacles]
      exact and_congr_right fun _ => and_iff_right (mem_budgetsOf_of_named hb hm)
    · simp only [reading_of_named hm]
      rfl
  · intro x _ y hy
    obtain ⟨reason, -, hy⟩ := List.mem_flatMap.mp hy
    exact key_of_mem_reading hy

/-- The samples of a listed budget in the course of a detection. -/
theorem filter_course (distinct : (e.budgets.map Budget.key?).Nodup) (hb : b ∈ e.budgets)
    (hm : b.metadata = some m) :
    ((e.course true).filterMap Effect.sample?).filter (·.key = m.key) =
      e.baseline b m ++ (e.judgement m ++ e.verdicts b m) := by
  rw [course, scanned_eq]
  simp only [List.filterMap_append, List.filter_append, filter_scanning distinct hb hm,
    filter_checking distinct hb hm]
  rw [filter_judging distinct hb hm]

end Evidence

namespace Pass

open BudgetReaper.Action

/-! ### The samples of the conclusion -/

/-- Removals that do not fail give the samples of the deletions granted. -/
theorem samples_forEach {entries : List (Key × Budget)} {s : Session}
    (wet : s.settings.dryRun.holds = false) (present : s.sink.isPresent = true)
    (own : ∀ entry ∈ entries, entry.2.key? = some entry.1)
    (past : (forEach remove entries s).result = .ok ()) :
    (forEach remove entries s).samples =
      (s.cluster.granted (forEach remove entries s).calls).map deletionOf := by
  induction entries generalizing s with
  | nil => rfl
  | cons entry rest ih =>
      obtain ⟨_, first, later⟩ := ok_of_bind (a := remove entry) past
      obtain ⟨m, hm, named⟩ := Option.map_eq_some_iff.mp (own entry (List.mem_cons_self ..))
      have replayed := replayed_remove entry s
      have kept : (remove entry s).state.settings = s.settings :=
        keeps_remove (fun _ _ => rfl) (fun _ _ => rfl) (fun _ _ => rfl) entry s
      have present' : (remove entry s).state.sink.isPresent = true := by
        rw [replayed.sink, Sink.isPresent_after]
        exact present
      have rest_eq := ih (kept ▸ wet) present' (fun e he => own e (List.mem_cons_of_mem _ he)) later
      have split : (forEach remove (entry :: rest) s).samples =
          (remove entry s).samples ++ (forEach remove rest (remove entry s).state).samples := by
        rw [forEach, Outcome.samples, bind_of_ok first, List.filterMap_append]
        rfl
      have granted : s.cluster.granted (forEach remove (entry :: rest) s).calls =
          s.cluster.granted (remove entry s).calls ++
            (remove entry s).state.cluster.granted
              (forEach remove rest (remove entry s).state).calls := by
        rw [Cluster.granted, account_forEach_of_ok first, List.filterMap_append]
        rfl
      have here : (remove entry s).samples =
          (s.cluster.granted (remove entry s).calls).map deletionOf :=
        ((removal hm wet present (Or.inr first)).entered named).2.2
      rw [split, granted, here, rest_eq, List.map_append]

/-- What a run is granted is granted to its conclusion. -/
theorem granted_execute_of_ok {s : Session} (detected : (detect s).result = .ok ()) :
    s.cluster.granted (execute s).calls =
      (detect s).state.cluster.granted (conclude (detect s).state).calls := by
  have none_granted : s.cluster.granted (detect s).calls = [] :=
    granted_of_probes s.cluster (emits_detect s)
  rw [calls_execute, closing_of_ok detected, Cluster.granted_append, none_granted,
    (replayed_detect s).cluster]
  rfl

/-- A run that completes ends with the samples of the deletions granted. -/
theorem samples_closing {s : Session} (fresh : s.ledger = {}) (present : s.sink.isPresent = true)
    (completed : (execute s).result = .ok ()) :
    (closing s).filterMap Effect.sample? =
      (s.cluster.granted (execute s).calls).map deletionOf := by
  obtain ⟨detected, concluded⟩ := parts_of_completed completed
  rw [closing_of_ok detected, granted_execute_of_ok detected]
  cases hd : (detect s).state.settings.dryRun.holds with
  | true =>
      have told := (conclude_of_dry hd).2.2
      have silent : (conclude (detect s).state).calls = [] :=
        Effect.filterMap_notices (fun _ => rfl) told
      rw [Effect.filterMap_notices (fun _ => rfl) told, silent]
      rfl
  | false =>
      have present' : (detect s).state.sink.isPresent = true := by
        rw [(replayed_detect s).sink, Sink.isPresent_after]
        exact present
      have removed := removed_of_concluded concluded
      obtain ⟨later, ht, told⟩ := trace_conclude (detect s).state
      rw [calls_conclude_eq, ht, List.filterMap_append,
        Effect.filterMap_notices (fun _ => rfl) told, List.append_nil]
      exact samples_forEach hd present'
        (fun entry he => (offends_of_mem_detect fresh detected he).1) removed

/-! ### Completeness -/

/-- What samples a completed run gives. -/
structure Complete (s : Session) : Prop where
  /-- The samples of a listed budget, in order: the baseline if it blocks, the judgement if its
  namespace has several, a verdict for each check if it blocks, and the deletion if it is granted. -/
  each : ∀ b ∈ s.cluster.budgets, ∀ m, b.metadata = some m →
    (execute s).samples.filter (·.key = m.key) =
      s.evidence.baseline b m ++ s.evidence.judgement m ++ s.evidence.verdicts b m ++
        if m.key ∈ s.cluster.granted (execute s).calls then [⟨m.key, .deleted, .int 1⟩] else []
  /-- The scan comes first. -/
  first : (scan s).samples <+: (execute s).samples
  /-- It gives the baseline of each listed budget, and nothing else. -/
  scanned : ∀ b ∈ s.cluster.budgets, ∀ m, b.metadata = some m →
    (scan s).samples.filter (·.key = m.key) = s.evidence.baseline b m
  /-- There is no sample of anything that is not listed. -/
  others : ∀ x ∈ (execute s).samples, ∃ b ∈ s.cluster.budgets, b.key? = some x.key

/-- The samples of a detection that is past are those of its course. -/
theorem samples_detect {s : Session} (fresh : s.ledger = {}) (present : s.sink.isPresent = true)
    (detected : (detect s).result = .ok ()) :
    (detect s).samples = (s.evidence.course true).filterMap Effect.sample? := by
  rw [← present, ← (acts_detect fresh).2 detected, Effect.filterMap_acts _ fun _ => rfl]
  rfl

/-- The samples of a scan that is past are those that it is to give. -/
theorem samples_scan {s : Session} (fresh : s.ledger = {}) (present : s.sink.isPresent = true)
    (scanned : (scan s).result = .ok ()) :
    (scan s).samples = (s.evidence.scanning true).filterMap Effect.sample? := by
  have start : s.findings = (s.evidence, {}) := Prod.ext rfl fresh
  have followed : Scripted (Session.Equipped true) (s.evidence.scanning true) (scan s) :=
    follows_scan s start present
  rw [← followed.whole () scanned, Effect.filterMap_acts _ fun _ => rfl]
  rfl

/-- A key is deleted at most once, so there is at most one sample of its deletion. -/
theorem filter_deletions {keys : List Key} (once : keys.Nodup) (key : Key) :
    (keys.map deletionOf).filter (·.key = key) =
      if key ∈ keys then [⟨key, .deleted, .int 1⟩] else [] := by
  have same : (keys.map deletionOf).filter (·.key = key) = (keys.filter (· == key)).map deletionOf := by
    rw [List.filter_map]
    refine congrArg (List.map deletionOf) (congrArg (List.filter · keys) (funext fun k => ?_))
    exact (Bool.beq_eq_decide_eq k key).symm
  rw [same, List.filter_beq]
  split
  · next held =>
      rw [List.count_eq_one_of_mem once held]
      rfl
  · next missing =>
      rw [List.count_eq_zero_of_not_mem missing]
      rfl

/-- A completed run gives every sample that is due, and no other. -/
theorem complete {s : Session} (fresh : s.ledger = {}) (present : s.sink.isPresent = true)
    (distinct : (s.cluster.budgets.map Budget.key?).Nodup)
    (completed : (execute s).result = .ok ()) : Complete s := by
  have detected : (detect s).result = .ok () := by
    rw [execute_eq] at completed
    obtain ⟨_, detected, -⟩ := ok_of_bind completed
    exact detected
  have scan_eq := samples_scan fresh present (scan_of_detected detected)
  have whole : (execute s).samples =
      (s.evidence.course true).filterMap Effect.sample? ++
        (s.cluster.granted (execute s).calls).map deletionOf := by
    rw [samples_execute, samples_detect fresh present detected,
      samples_closing fresh present completed]
  have once : (s.cluster.granted (execute s).calls).Nodup := by
    refine (Cluster.sublist_granted _ _).nodup ?_
    rw [← Outcome.deletions_eq_calls]
    exact nodup_deletions fresh
  refine ⟨fun b hb m hm => ?_, ?_, fun b hb m hm => ?_, fun x hx => ?_⟩
  · rw [whole, List.filter_append, Evidence.filter_course distinct hb hm, filter_deletions once,
      ← List.append_assoc (s.evidence.baseline b m)]
  · rw [whole, scan_eq, Evidence.course, List.filterMap_append, List.append_assoc]
    exact List.prefix_append ..
  · rw [scan_eq]
    exact Evidence.filter_scanning distinct hb hm
  · obtain ⟨b, m, attends, own⟩ := concerns_execute fresh _ (Outcome.mem_samples.mp hx)
    refine ⟨b, attends.listed, ?_⟩
    rw [Budget.key?, attends.named, own]
    rfl

/-- In the shop the first deletion finds nothing and only the second is told by a sample; the budget
of the excluded namespace has none. -/
theorem complete_shop :
    (shop deletedMeanwhile emptyRegistry).ledger = {} ∧
      (shop deletedMeanwhile emptyRegistry).sink.isPresent = true ∧
      ((shop deletedMeanwhile emptyRegistry).cluster.budgets.map Budget.key?).Nodup ∧
      (execute (shop deletedMeanwhile emptyRegistry)).result = .ok () ∧
      ((execute (shop deletedMeanwhile emptyRegistry)).samples.filter (·.reason = .deleted)).map
          (fun x => (x.key, x.value)) =
        [((some "shop", some "web"), .int 0), ((some "shop", some "api"), .int 0),
          ((some "shop", some "api"), .int 1)] ∧
      Complete (shop deletedMeanwhile emptyRegistry) :=
  ⟨rfl, rfl, by decide, by rfl, by rfl, complete rfl rfl (by decide) (by rfl)⟩

end Pass

end BudgetReaper
