import BudgetReaper.Proofs.Grouping
import BudgetReaper.Proofs.Reaping.Evidence

/-!
# Reaping — the marks are exact

A budget *offends* when its namespace is not left alone and either the budgets of that namespace
crowd, several of them selecting a pod name twice, or the budget itself obstructs: it blocks and a
check that is switched on finds what it looks for.  Each of this is said of the evidence alone,
namespace by namespace, without groups, phases or an order of marks.

**Exactness** (`reapable_exact`).  A run from an empty ledger that gets past its detection has
marked the keys of the listed budgets that offend, no other, and each of them once.

`yields_detect` reduces it to one list, the marks in the order in which they are made
(`Evidence.marked`); what remains is which budgets stand in it (`mem_marked`).
-/

namespace BudgetReaper

/-! ### What it is to offend -/

namespace Evidence

/-- The namespace is not left alone. -/
def Watches (e : Evidence) (space : Option String) : Prop :=
  e.settings.isExcluded (.ofText? space) = .ok false

/-- The budgets listed of a namespace, in order. -/
def budgetsOf (e : Evidence) (space : Option String) : List Budget :=
  e.budgets.filter fun b => b.metadata.any (·.space == space)

/-- A namespace has several budgets, and they select a pod name more than once. -/
structure Crowds (e : Evidence) (space : Option String) : Prop where
  enabled : e.settings.reapMultiple.holds = true
  several : 1 < (e.budgetsOf space).length
  repeated : ¬ (((e.budgetsOf space).flatMap (e.selected space)).map Pod.name).Nodup

/-- A budget allows no disruption of the pods it expects, and a check finds what it looks for. -/
structure Obstructs (e : Evidence) (space : Option String) (b : Budget) : Prop where
  blocks : ∃ st, b.status = some st ∧ st.disruptionsAllowed.getD 0 = 0 ∧
    0 < st.expectedPods.getD 0
  found : ∃ reason ∈ Pass.checks, e.finds b (e.selected space b) reason = true

/-- A budget is one that a run deletes. -/
def Offends (e : Evidence) (b : Budget) : Prop :=
  ∃ m, b.metadata = some m ∧ e.Watches m.space ∧
    (e.Crowds m.space ∨ e.Obstructs m.space b)

end Evidence

/-! ### Marks in a ledger -/

namespace Ledger

theorem mem_keys_markBudget (l : Ledger) (b : Budget) (key : Key) :
    key ∈ Assoc.keys (l.markBudget b).reapable ↔
      key ∈ Assoc.keys l.reapable ∨ b.key? = some key := by
  unfold markBudget
  cases hb : b.key? with
  | none => simp
  | some own =>
      simp only [mark, Assoc.putNew, Assoc.keys_alter, Option.some.injEq]
      by_cases held : own ∈ Assoc.keys l.reapable
      · rw [if_pos held]
        exact ⟨Or.inl, fun h => h.elim id fun he => he ▸ held⟩
      · rw [if_neg held, List.mem_append, List.mem_singleton, eq_comm]

/-- The marked keys are those marked before and those of the budgets marked now. -/
theorem mem_keys_markAll (l : Ledger) (bs : List Budget) (key : Key) :
    key ∈ Assoc.keys (l.markAll bs).reapable ↔
      key ∈ Assoc.keys l.reapable ∨ ∃ b ∈ bs, b.key? = some key := by
  induction bs generalizing l with
  | nil => simp [markAll]
  | cons b rest ih =>
      change key ∈ Assoc.keys ((l.markBudget b).markAll rest).reapable ↔ _
      simp [ih, mem_keys_markBudget, or_assoc]

/-- An entry marked now is a budget under its own key. -/
theorem mem_markAll {l : Ledger} {bs : List Budget} {entry : Key × Budget}
    (h : entry ∈ (l.markAll bs).reapable) :
    entry ∈ l.reapable ∨ entry.2 ∈ bs ∧ entry.2.key? = some entry.1 := by
  induction bs generalizing l with
  | nil => exact Or.inl h
  | cons b rest ih =>
      rcases ih (l := l.markBudget b) h with held | ⟨listed, own⟩
      · unfold markBudget at held
        cases hb : b.key? with
        | none =>
            rw [hb] at held
            exact Or.inl held
        | some key =>
            rw [hb] at held
            rcases Assoc.mem_putNew held with held | rfl
            · exact Or.inl held
            · exact Or.inr ⟨List.mem_cons_self .., hb⟩
      · exact Or.inr ⟨List.mem_cons_of_mem b listed, own⟩

theorem nodup_markAll {l : Ledger} (h : (Assoc.keys l.reapable).Nodup) (bs : List Budget) :
    (Assoc.keys (l.markAll bs).reapable).Nodup := by
  induction bs generalizing l with
  | nil => exact h
  | cons b rest ih =>
      refine ih ?_
      unfold markBudget
      cases b.key? with
      | none => exact h
      | some key => exact nodup_mark h key b

theorem markAll_append (l : Ledger) (bs bs' : List Budget) :
    (l.markAll bs).markAll bs' = l.markAll (bs ++ bs') :=
  List.foldl_append.symm

/-- Marking changes nothing but the marks. -/
theorem markAll_eq (l : Ledger) (bs : List Budget) :
    l.markAll bs = { l with reapable := (l.markAll bs).reapable } := by
  induction bs generalizing l with
  | nil => rfl
  | cons b rest ih =>
      refine (ih (l.markBudget b)).trans ?_
      change _ = { l with reapable := ((l.markBudget b).markAll rest).reapable }
      unfold markBudget
      cases b.key? <;> rfl

/-- Entering budgets pushes them into the groups of blocking budgets. -/
theorem foldl_block (l : Ledger) (entries : List (Option String × Budget)) :
    entries.foldl (fun l entry => l.block entry.1 entry.2) l =
      { l with blocking := entries.foldl (fun m e => Assoc.push m e.1 e.2) l.blocking } := by
  induction entries generalizing l with
  | nil => rfl
  | cons entry rest ih => exact ih (l.block entry.1 entry.2)

end Ledger

/-! ### What the scan finds -/

namespace Evidence

variable {e : Evidence} {space : Option String} {b : Budget}

theorem nodup_groups (e : Evidence) : (Assoc.keys e.groups).Nodup :=
  nodup_groupBySpace _

theorem scanned_eq (e : Evidence) :
    e.scanned = { multiple := severalOf e.groups, blocking := groupBySpace e.obstacles } := by
  have distinct : (Assoc.keys ([] ++ severalOf e.groups)).Nodup :=
    (nodup_groups e).sublist (List.filter_sublist.map _)
  rw [scanned, Ledger.foldl_block, Ledger.group, Assoc.foldl_put distinct]
  rfl

theorem mem_budgetsOf :
    b ∈ e.budgetsOf space ↔ b ∈ e.budgets ∧ ∃ m, b.metadata = some m ∧ m.space = space := by
  simp [budgetsOf, Option.any_eq_true]

/-- What is entered under a namespace: its budgets, in order. -/
theorem entered_of_watches (h : e.Watches space) :
    ((e.budgets.filterMap (visible? e.settings)).filter (·.1 = space)).map Prod.snd =
      e.budgetsOf space := by
  rw [List.filter_filterMap, List.map_filterMap, budgetsOf, ← List.filterMap_eq_filter]
  refine congrArg (List.filterMap · e.budgets) (funext fun b => ?_)
  cases hm : b.metadata with
  | none => simp [visible?, Option.guard, hm]
  | some m =>
      by_cases hs : m.space = space
      · subst hs
        have watched : e.settings.isExcluded (.ofText? m.space) = .ok false := h
        simp [visible?, Option.guard, hm, watched]
      · simp only [visible?, hm, Option.bind_some]
        split <;> simp [Option.guard, hm, hs]

/-- Nothing is entered under a namespace that is left alone. -/
theorem watches_of_entered
    (h : (space, b) ∈ e.budgets.filterMap (visible? e.settings)) : e.Watches space := by
  obtain ⟨b', -, hb⟩ := List.mem_filterMap.mp h
  obtain ⟨m, -, hm⟩ := Option.bind_eq_some_iff.mp hb
  split at hm
  · next watched =>
      obtain ⟨rfl, rfl⟩ := Prod.mk.inj (Option.some.inj hm)
      exact watched
  · cases hm

/-- What the scan groups under a namespace: its budgets, unless it is left alone. -/
theorem mem_groups {bs : List Budget} :
    (space, bs) ∈ e.groups ↔ e.Watches space ∧ bs = e.budgetsOf space ∧ bs ≠ [] := by
  rw [groups, groupsOf, mem_groupBySpace]
  constructor
  · rintro ⟨rfl, filled⟩
    -- the group is not empty, and any budget in it tells that its namespace is watched
    obtain ⟨b, hb⟩ := List.exists_mem_of_ne_nil _ filled
    obtain ⟨entry, hentry, -⟩ := List.mem_map.mp hb
    obtain ⟨hentry, hs⟩ := List.mem_filter.mp hentry
    have watched : e.Watches space :=
      watches_of_entered (b := entry.2) (of_decide_eq_true hs ▸ hentry)
    exact ⟨watched, entered_of_watches watched, filled⟩
  · rintro ⟨watched, rfl, filled⟩
    exact ⟨(entered_of_watches watched).symm, filled⟩

theorem mem_obstacles :
    (space, b) ∈ e.obstacles ↔
      e.Watches space ∧ b ∈ e.budgetsOf space ∧ b.isBlocking = true := by
  simp only [obstacles, List.mem_flatMap]
  constructor
  · rintro ⟨⟨space', bs⟩, hg, b', hb, entered⟩
    obtain ⟨watched, rfl, -⟩ := mem_groups.mp hg
    split at entered
    · next blocks =>
        obtain ⟨rfl, rfl⟩ := Prod.mk.inj (List.mem_singleton.mp entered)
        exact ⟨watched, hb, blocks⟩
    · cases entered
  · rintro ⟨watched, hb, blocks⟩
    refine ⟨_, mem_groups.mpr ⟨watched, rfl, List.ne_nil_of_mem hb⟩, b, hb, ?_⟩
    rw [if_pos blocks]
    exact List.mem_singleton_self _

theorem mem_overlapping {group : Option String × List Budget} :
    b ∈ e.overlapping group ↔
      b ∈ group.2 ∧ ¬ ((group.2.flatMap (e.selected group.1)).map Pod.name).Nodup := by
  rw [overlapping, ← hasDuplicates_iff]
  split <;> simp [*]

theorem mem_offences {b' : Budget} :
    b' ∈ e.offences space b ↔
      b' = b ∧ ∃ reason ∈ Pass.checks, e.finds b (e.selected space b) reason = true := by
  simp only [offences, List.mem_flatMap]
  constructor
  · rintro ⟨reason, checked, h⟩
    split at h
    · next found => exact ⟨List.mem_singleton.mp h, reason, checked, found⟩
    · cases h
  · rintro ⟨rfl, reason, checked, found⟩
    refine ⟨reason, checked, ?_⟩
    rw [if_pos found]
    exact List.mem_singleton_self _

/-! ### Which budgets are marked -/

/-- The overlaps mark the budgets of the namespaces that crowd. -/
theorem mem_crowded (on : e.settings.reapMultiple.holds = true) :
    b ∈ (severalOf e.groups).flatMap e.overlapping ↔
      ∃ space, e.Watches space ∧ b ∈ e.budgetsOf space ∧ e.Crowds space := by
  simp only [severalOf, List.mem_flatMap, List.mem_filter, decide_eq_true_eq, mem_overlapping]
  constructor
  · rintro ⟨⟨space, bs⟩, ⟨hg, several⟩, hb, repeated⟩
    obtain ⟨watched, rfl, -⟩ := mem_groups.mp hg
    exact ⟨space, watched, hb, on, several, repeated⟩
  · rintro ⟨space, watched, hb, crowds⟩
    have hg := mem_groups.mpr ⟨watched, rfl, List.ne_nil_of_mem hb⟩
    exact ⟨_, ⟨hg, crowds.several⟩, hb, crowds.repeated⟩

/-- The checks mark the budgets that obstruct. -/
theorem mem_obstructing :
    b ∈ (groupBySpace e.obstacles).flatMap (fun g => g.2.flatMap (e.offences g.1)) ↔
      ∃ space, e.Watches space ∧ b ∈ e.budgetsOf space ∧ e.Obstructs space b := by
  simp only [List.mem_flatMap, mem_offences]
  constructor
  · rintro ⟨⟨space, bs⟩, hg, b, hb, rfl, found⟩
    obtain ⟨watched, listed, blocks⟩ := mem_obstacles.mp (mem_group_iff.mp ⟨bs, hg, hb⟩)
    exact ⟨space, watched, listed, b.isBlocking_iff.mp blocks, found⟩
  · rintro ⟨space, watched, listed, obstructs⟩
    have blocks := b.isBlocking_iff.mpr obstructs.blocks
    obtain ⟨bs, hg, hb⟩ := mem_group_iff.mpr (mem_obstacles.mpr ⟨watched, listed, blocks⟩)
    exact ⟨(space, bs), hg, b, hb, rfl, obstructs.found⟩

/-- The budgets marked are those listed that offend. -/
theorem mem_marked : b ∈ e.marked ↔ b ∈ e.budgets ∧ e.Offends b := by
  have offends : b ∈ e.budgets ∧ e.Offends b ↔
      (∃ space, e.Watches space ∧ b ∈ e.budgetsOf space ∧ e.Crowds space) ∨
        ∃ space, e.Watches space ∧ b ∈ e.budgetsOf space ∧ e.Obstructs space b := by
    simp only [mem_budgetsOf, Offends]
    constructor
    · rintro ⟨listed, m, hm, watched, crowds | obstructs⟩
      · exact Or.inl ⟨m.space, watched, ⟨listed, m, hm, rfl⟩, crowds⟩
      · exact Or.inr ⟨m.space, watched, ⟨listed, m, hm, rfl⟩, obstructs⟩
    · rintro (⟨space, watched, ⟨listed, m, hm, rfl⟩, crowds⟩ |
        ⟨space, watched, ⟨listed, m, hm, rfl⟩, obstructs⟩)
      · exact ⟨listed, m, hm, watched, Or.inl crowds⟩
      · exact ⟨listed, m, hm, watched, Or.inr obstructs⟩
  -- the overlap phase marks nothing when it is switched off, and then nothing crowds
  rw [offends, marked, scanned_eq, List.mem_append, mem_obstructing]
  refine or_congr_left ?_
  split
  · next on => exact mem_crowded on
  · next off =>
      simp only [List.not_mem_nil, false_iff]
      rintro ⟨space, -, -, crowds⟩
      exact off crowds.enabled

end Evidence

/-! ### Exactness -/

namespace Pass

open BudgetReaper.Action

/-- A detection adds to a ledger what the evidence says, and nothing else. -/
theorem yields_detect_onto (e : Evidence) (l : Ledger) :
    Yields Session.findings detect (e, l) () (e, (e.entered l).markAll (e.markedFrom l)) := by
  refine .state_bind fun s _ => .bind (.say _) (.bind (.rephrase (yields_scan_onto l) _) ?_)
  refine .bind (.rephrase yields_markOverlapping _) (.rephrase ?_ _)
  rw [Evidence.markedFrom, ← Ledger.markAll_append]
  -- the checks run over the blocking budgets of a ledger in which overlaps have been marked
  have checked (l : Ledger) := yields_checkBlocking (e := e) (l := l)
  have blocking (bs : List Budget) : ((e.entered l).markAll bs).blocking = (e.entered l).blocking := by
    rw [Ledger.markAll_eq]
  simpa only [blocking] using checked ((e.entered l).markAll _)

/-- A detection from an empty ledger leaves what the evidence says, and nothing else. -/
theorem yields_detect (e : Evidence) :
    Yields Session.findings detect (e, {}) () (e, e.scanned.markAll e.marked) :=
  yields_detect_onto e {}

/-- What a detection from an empty ledger has found, once it is past. -/
theorem ledger_detect {s : Session} (fresh : s.ledger = {})
    (detected : (detect s).result = .ok ()) :
    (detect s).state.evidence = s.evidence ∧
      (detect s).state.ledger = s.evidence.scanned.markAll s.evidence.marked := by
  have start : s.findings = (s.evidence, {}) := Prod.ext rfl fresh
  exact Prod.mk.inj (yields_detect s.evidence s start () detected).2

theorem nodup_detect {s : Session} (fresh : s.ledger = {})
    (detected : (detect s).result = .ok ()) :
    (Assoc.keys (detect s).state.ledger.reapable).Nodup := by
  have none_marked : (Assoc.keys ([] : List (Key × Budget))).Nodup := List.nodup_nil
  rw [(ledger_detect fresh detected).2, Evidence.scanned_eq]
  exact Ledger.nodup_markAll none_marked _

/-- Every entry marked is a listed budget that offends, under its own key. -/
theorem offends_of_mem_detect {s : Session} (fresh : s.ledger = {})
    (detected : (detect s).result = .ok ()) {entry : Key × Budget}
    (h : entry ∈ (detect s).state.ledger.reapable) :
    entry.2.key? = some entry.1 ∧ s.evidence.Offends entry.2 := by
  rw [(ledger_detect fresh detected).2, Evidence.scanned_eq] at h
  rcases Ledger.mem_markAll h with h | ⟨listed, own⟩
  · cases h
  · exact ⟨own, (Evidence.mem_marked.mp listed).2⟩

/-- Every entry marked is a listed budget. -/
theorem listed_of_mem_detect {s : Session} (fresh : s.ledger = {})
    (detected : (detect s).result = .ok ()) {entry : Key × Budget}
    (h : entry ∈ (detect s).state.ledger.reapable) : entry.2 ∈ s.cluster.budgets := by
  rw [(ledger_detect fresh detected).2, Evidence.scanned_eq] at h
  rcases Ledger.mem_markAll h with h | ⟨listed, -⟩
  · cases h
  · exact (Evidence.mem_marked.mp listed).1

/-- Past its detection, a run has marked exactly the keys of the budgets that offend, each once. -/
theorem reapable_exact {s : Session} (fresh : s.ledger = {})
    (detected : (detect s).result = .ok ()) :
    (Assoc.keys (execute s).state.ledger.reapable).Nodup ∧
      ∀ key, key ∈ Assoc.keys (execute s).state.ledger.reapable ↔
        ∃ b ∈ s.cluster.budgets, b.key? = some key ∧ s.evidence.Offends b := by
  rw [reapable_execute]
  refine ⟨nodup_detect fresh detected, fun key => ?_⟩
  rw [(ledger_detect fresh detected).2, Evidence.scanned_eq]
  simp only [Ledger.mem_keys_markAll, Evidence.mem_marked]
  constructor
  · rintro (h | ⟨b, ⟨listed, offends⟩, hb⟩)
    · cases h
    · exact ⟨b, listed, hb, offends⟩
  · rintro ⟨b, listed, hb, offends⟩
    exact Or.inr ⟨b, ⟨listed, offends⟩, hb⟩

/-- In the shop both budgets offend, and the budget of the excluded namespace does not. -/
theorem reapable_shop :
    (shop Cluster.faultless .absent).ledger = {} ∧
      (detect (shop Cluster.faultless .absent)).result = .ok () ∧
      ∀ key, key ∈ [(some "shop", some "web"), (some "shop", some "api")] ↔
        ∃ b ∈ (shop Cluster.faultless .absent).cluster.budgets, b.key? = some key ∧
          (shop Cluster.faultless .absent).evidence.Offends b :=
  ⟨rfl, by rfl, (reapable_exact (s := shop Cluster.faultless .absent) rfl (by rfl)).2⟩

end Pass

end BudgetReaper
