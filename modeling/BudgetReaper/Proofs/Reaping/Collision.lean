import Mathlib.Data.Fintype.Basic
import BudgetReaper.Proofs.Reaping.Halt

/-!
# Reaping — budgets that collide

The judgement of a group of budgets sees one list of pods, all that its budgets select, and looks in
it for a name that occurs twice.  Of two budgets that select a pod in common it knows nothing.  But as
long as no listing has a name twice itself, a name that occurs twice comes from two listings, and so
from two budgets at different positions of the group: they *collide* (`repeats_iff_collides`).

**Collisions** (`judged`).  A judgement of overlaps that returns has listed the pods of each budget of
each group once, in order, and under the namespace of its group.  It has marked every budget of the
groups that collide, and nothing else: no budget of a group that does not collide has been marked,
whatever the groups of other namespaces select.
-/

namespace BudgetReaper

/-- Lists without repetitions, put one after the other, repeat what two of them have in common. -/
theorem not_nodup_flatMap_iff {α β : Type} {f : α → List β} {xs : List α}
    (distinct : ∀ x ∈ xs, (f x).Nodup) :
    ¬ (xs.flatMap f).Nodup ↔
      ∃ i j : Fin xs.length, i ≠ j ∧ ∃ y ∈ f (xs.get i), y ∈ f (xs.get j) := by
  rw [List.nodup_flatMap, and_iff_right distinct, List.pairwise_iff_get]
  constructor
  · intro apart
    by_contra disjoint
    exact apart fun i j before y hy hy' => disjoint ⟨i, j, before.ne, y, hy, hy'⟩
  · rintro ⟨i, j, other, y, hy, hy'⟩ apart
    rcases lt_or_gt_of_ne other with before | after
    · exact apart i j before hy hy'
    · exact apart j i after hy' hy

/-- The namespace and the selector text of a listing of pods. -/
def Effect.listing? : Effect → Option (Option String × String)
  | call (.listPods space text) => some (space, text)
  | _ => none

/-- The groups that may overlap are of different namespaces and hold budgets of these. -/
structure Ledger.Grouped (l : Ledger) : Prop where
  distinct : (Assoc.keys l.multiple).Nodup
  own : ∀ g ∈ l.multiple, ∀ b ∈ g.2, b.space? = some g.1

/-- No listing of pods has a name twice. -/
def Cluster.NamesApart (c : Cluster) : Prop :=
  ∀ space text, ((c.podsOf space text).map Pod.name).Nodup

theorem Cluster.namesApart_of_listings {c : Cluster}
    (h : ∀ entry ∈ c.listings, (entry.2.map Pod.name).Nodup) : c.NamesApart := by
  intro space text
  rw [podsOf]
  cases hp : Assoc.get? c.listings (space, text) with
  | none => exact List.nodup_nil
  | some pods => exact h _ (Assoc.mem_of_get? hp)

namespace Evidence

variable {e : Evidence} {g : Option String × List Budget}

/-- Budgets at two positions of a group select pods of one name. -/
def Collides (e : Evidence) (g : Option String × List Budget) : Prop :=
  ∃ i j : Fin g.2.length, i ≠ j ∧
    ∃ name ∈ (e.selected g.1 (g.2.get i)).map Pod.name,
      name ∈ (e.selected g.1 (g.2.get j)).map Pod.name

instance (e : Evidence) (g : Option String × List Budget) : Decidable (e.Collides g) :=
  inferInstanceAs (Decidable (∃ i j : Fin g.2.length, i ≠ j ∧
    ∃ name ∈ (e.selected g.1 (g.2.get i)).map Pod.name,
      name ∈ (e.selected g.1 (g.2.get j)).map Pod.name))

/-- If no listing has a name twice, a name that a group selects twice is one of two budgets. -/
theorem repeats_iff_collides
    (distinct : ∀ b ∈ g.2, ((e.selected g.1 b).map Pod.name).Nodup) :
    e.repeats g = true ↔ e.Collides g := by
  rw [repeats, hasDuplicates_iff, List.map_flatMap, not_nodup_flatMap_iff distinct]
  rfl

/-- What a budget selects is a listing of the cluster, or nothing. -/
theorem nodup_selected {s : Session} (distinct : s.cluster.NamesApart) (space : Option String)
    (b : Budget) : ((s.evidence.selected space b).map Pod.name).Nodup := by
  unfold selected
  split
  · exact List.nodup_nil
  · split
    · exact distinct space _
    · exact List.nodup_nil

/-- The overlapping budgets of groups are the members of those that collide. -/
theorem flatMap_overlapping {groups : List (Option String × List Budget)}
    (repeats : ∀ g ∈ groups, e.repeats g = true ↔ e.Collides g) :
    groups.flatMap e.overlapping = (groups.filter fun g => e.Collides g).flatMap Prod.snd := by
  induction groups with
  | nil => rfl
  | cons g rest ih =>
      have here := repeats g List.mem_cons_self
      rw [List.flatMap_cons, ih fun g' hg => repeats g' (List.mem_cons_of_mem g hg)]
      by_cases collides : e.Collides g
      · rw [List.filter_cons_of_pos (by simpa using collides), List.flatMap_cons]
        exact congrArg (· ++ _) (if_pos (here.mpr collides))
      · rw [List.filter_cons_of_neg (by simpa using collides)]
        exact congrArg (· ++ _) (if_neg (collides ∘ here.mp))

/-! ### The listings -/

theorem listings_inquiry {space : Option String} {b : Budget} (asks : b.Asks) :
    ((inquiry space b).filterMap Effect.listing?).map (fun l => (l.1, .ok l.2)) =
      [(space, b.query)] := by
  obtain ⟨text, query⟩ := asks
  rw [query]
  unfold Budget.query at query
  unfold inquiry
  cases hs : b.spec with
  | none =>
      rw [hs] at query
      cases query
  | some spec =>
      rw [hs] at query
      dsimp only at query ⊢
      cases ht : Selector.renderOption spec.selector with
      | error f =>
          rw [ht] at query
          cases query
      | ok text' =>
          rw [ht] at query
          obtain rfl := Except.ok.inj query
          rfl

theorem listings_signals (equipped : Bool) (b : Budget) (reason : Reason) (verdict : Bool) :
    (e.signals equipped b reason verdict).filterMap Effect.listing? = [] := by
  unfold signals
  cases b.metadata with
  | none => rfl
  | some m => cases verdict <;> cases equipped <;> rfl

/-- The judgement of groups lists the pods of each member, group by group. -/
theorem listings_judging {groups : List (Option String × List Budget)} (equipped : Bool)
    (asked : ∀ g ∈ groups, ∀ b ∈ g.2, b.Asks) :
    ((groups.flatMap (e.judging equipped)).filterMap Effect.listing?).map
        (fun l => (l.1, .ok l.2)) =
      (entriesOf groups).map fun x => (x.1, x.2.query) := by
  rw [entriesOf, List.filterMap_flatMap, List.map_flatMap, List.map_flatMap]
  refine List.flatMap_congr fun g hg => ?_
  have quiet : (g.2.flatMap fun b => e.signals equipped b .multiple (e.repeats g)).filterMap
      Effect.listing? = [] := by
    rw [List.filterMap_flatMap]
    exact List.flatMap_eq_nil_iff.mpr fun b _ => listings_signals equipped b _ _
  rw [judging, List.filterMap_append, quiet, List.append_nil, List.filterMap_flatMap,
    List.map_flatMap, List.map_map, ← List.flatMap_pure_eq_map]
  exact List.flatMap_congr fun b hb => listings_inquiry (asked g hg b hb)

/-- The groups of a scan are of different namespaces and hold budgets of these. -/
theorem grouped_scanned (e : Evidence) : e.scanned.Grouped := by
  rw [scanned_eq]
  refine ⟨(nodup_groups e).sublist (List.filter_sublist.map _), fun g hg b hb => ?_⟩
  obtain ⟨-, members, -⟩ := mem_groups.mp (List.mem_filter.mp hg).1
  rw [members] at hb
  obtain ⟨-, m, hm, own⟩ := mem_budgetsOf.mp hb
  rw [Budget.space?, hm]
  exact congrArg some own

end Evidence

/-- The keys marked with groups of a kind are those of their members. -/
theorem Ledger.mem_keys_markGroups (l : Ledger) (groups : List (Option String × List Budget))
    (p : Option String × List Budget → Prop) [DecidablePred p] (key : Key) :
    key ∈ Assoc.keys (l.markAll ((groups.filter fun g => p g).flatMap Prod.snd)).reapable ↔
      key ∈ Assoc.keys l.reapable ∨ ∃ g ∈ groups, p g ∧ ∃ b ∈ g.2, b.key? = some key := by
  rw [mem_keys_markAll]
  simp only [List.mem_flatMap, List.mem_filter, decide_eq_true_eq]
  refine or_congr_right ⟨?_, ?_⟩
  · rintro ⟨b, ⟨g, ⟨hg, kind⟩, hb⟩, own⟩
    exact ⟨g, hg, kind, b, hb, own⟩
  · rintro ⟨g, hg, kind, b, hb, own⟩
    exact ⟨b, ⟨g, ⟨hg, kind⟩, hb⟩, own⟩

namespace Ledger.Grouped

variable {l : Ledger}

/-- A key stands in one group only. -/
theorem eq_of_key (grouped : l.Grouped) {g g' : Option String × List Budget} (hg : g ∈ l.multiple)
    (hg' : g' ∈ l.multiple) {b b' : Budget} (hb : b ∈ g.2) (hb' : b' ∈ g'.2)
    {key : Key} (own : b.key? = some key) (own' : b'.key? = some key) : g = g' := by
  have space {b : Budget} (h : b.key? = some key) : b.space? = some key.1 := by
    rw [Budget.key?, Option.map_eq_some_iff] at h
    obtain ⟨m, hm, rfl⟩ := h
    rw [Budget.space?, hm]
    rfl
  have same : g.1 = g'.1 := Option.some.inj <|
    calc some g.1
      _ = b.space? := (grouped.own g hg b hb).symm
      _ = b'.space? := (space own).trans (space own').symm
      _ = some g'.1 := grouped.own g' hg' b' hb'
  have held := (Assoc.get?_eq_some_iff grouped.distinct).mpr hg
  have held' := (Assoc.get?_eq_some_iff grouped.distinct).mpr hg'
  rw [same, held'] at held
  exact Prod.ext same (Option.some.inj held).symm

end Ledger.Grouped

namespace Pass

open BudgetReaper.Action

variable {e : Evidence} {l : Ledger}

theorem demands_mark (b : Budget) {v : Evidence × Ledger} :
    Demands Session.findings (mark b) v (∃ key, b.key? = some key) := by
  unfold mark metadataOf Budget.key?
  cases b.metadata with
  | none =>
      rw [fail_bind]
      exact .fail _
  | some m => exact .of_true ⟨m.key, rfl⟩

/-- A group that repeats a name is judged only if each of its budgets has a key. -/
theorem demands_judgeGroup_keys (g : Option String × List Budget) :
    Demands Session.findings (judgeGroup g) (e, l)
      (e.repeats g = true → ∀ b ∈ g.2, ∃ key, b.key? = some key) := by
  refine .later (.gather fun b _ => .bind (.say _) (yields_selectedPods g.1 b)) ?_
  split
  · refine .later (.say _) (.first ?_ _)
    have marked : Demands Session.findings (forEach mark g.2) (e, l)
        (∀ b ∈ g.2, ∃ key, b.key? = some key) :=
      .forEach (g := fun l => (e, l)) (c := fun b => [b]) (f := Ledger.markBudget)
        (fun b _ l => yields_mark b) (fun b _ _ => demands_mark b) l
    exact marked.mono fun keyed _ => keyed
  · next clear => exact .of_true fun repeats => absurd repeats clear

theorem demands_markOverlapping_keys :
    Demands Session.findings markOverlapping (e, l)
      (e.settings.reapMultiple.holds = true → ∀ g ∈ l.multiple, e.repeats g = true →
        ∀ b ∈ g.2, ∃ key, b.key? = some key) := by
  rw [markOverlapping_eq]
  refine .state_bind fun s hs => ?_
  obtain ⟨rfl, rfl⟩ := Prod.mk.inj hs
  refine (Demands.forEach (g := fun l => (s.evidence, l)) (fun g _ l => yields_judgeGroup g)
    (fun g _ l => demands_judgeGroup_keys g) _).mono fun keyed on g hg => keyed g ?_
  have on : s.settings.reapMultiple.holds = true := on
  rwa [if_pos on]

/-- What the judgement of overlaps makes of the groups of a ledger. -/
structure Judged (s : Session) : Prop where
  /-- The pods of each budget of each group are listed once, under the namespace of its group. -/
  listings : ((markOverlapping s).trace.filterMap Effect.listing?).map (fun l => (l.1, .ok l.2)) =
    (entriesOf s.ledger.multiple).map fun x => (x.1, x.2.query)
  /-- The budgets of the groups that collide are marked, in order, and nothing else changes. -/
  ledger : (markOverlapping s).state.ledger = s.ledger.markAll
    ((s.ledger.multiple.filter fun g => s.evidence.Collides g).flatMap Prod.snd)
  /-- Of a group that collides every budget is marked. -/
  marked : ∀ g ∈ s.ledger.multiple, s.evidence.Collides g → ∀ b ∈ g.2, ∃ key,
    b.key? = some key ∧ key ∈ Assoc.keys (markOverlapping s).state.ledger.reapable
  /-- Of a group that does not collide no budget is marked that has not been marked before. -/
  spared : s.ledger.Grouped → ∀ g ∈ s.ledger.multiple, ¬ s.evidence.Collides g →
    ∀ b ∈ g.2, ∀ key, b.key? = some key →
      key ∈ Assoc.keys (markOverlapping s).state.ledger.reapable →
        key ∈ Assoc.keys s.ledger.reapable

/-- A judgement that returns has marked the budgets of the groups in which two budgets select a pod of
one name, and no others. -/
theorem judged {s : Session} (on : s.settings.reapMultiple.holds = true)
    (distinct : s.cluster.NamesApart) (completed : (markOverlapping s).result = .ok ()) :
    Judged s := by
  have on : s.evidence.settings.reapMultiple.holds = true := on
  have repeats (g : Option String × List Budget) :
      s.evidence.repeats g = true ↔ s.evidence.Collides g :=
    Evidence.repeats_iff_collides fun b _ => Evidence.nodup_selected distinct g.1 b
  have ledger : (markOverlapping s).state.ledger = s.ledger.markAll
      ((s.ledger.multiple.filter fun g => s.evidence.Collides g).flatMap Prod.snd) := by
    have found := (yields_markOverlapping (e := s.evidence) (l := s.ledger) s rfl () completed).2
    rw [if_pos on, Evidence.flatMap_overlapping fun g _ => repeats g] at found
    exact (Prod.mk.inj found).2
  have mem_marked (key : Key) : key ∈ Assoc.keys (markOverlapping s).state.ledger.reapable ↔
      key ∈ Assoc.keys s.ledger.reapable ∨
        ∃ g ∈ s.ledger.multiple, s.evidence.Collides g ∧ ∃ b ∈ g.2, b.key? = some key := by
    rw [ledger]
    exact Ledger.mem_keys_markGroups _ _ s.evidence.Collides key
  refine ⟨?_, ledger, fun g hg collides b hb => ?_, fun grouped g hg apart b hb key own held => ?_⟩
  · have followed : Scripted (Session.Equipped s.sink.isPresent) _ (markOverlapping s) :=
      follows_markOverlapping s rfl rfl
    have acts := followed.whole () completed
    rw [if_pos on] at acts
    rw [← Effect.filterMap_acts Effect.listing? (fun _ => rfl), acts]
    exact Evidence.listings_judging _ (demands_markOverlapping s rfl () completed on)
  · obtain ⟨key, own⟩ := demands_markOverlapping_keys (e := s.evidence) (l := s.ledger) s rfl ()
      completed on g hg ((repeats g).mpr collides) b hb
    exact ⟨key, own, (mem_marked key).mpr (.inr ⟨g, hg, collides, b, hb, own⟩)⟩
  · rcases (mem_marked key).mp held with before | ⟨g', hg', collides, b', hb', own'⟩
    · exact before
    · -- what has been marked is a member of a group that collides, and stands in no other
      obtain rfl := grouped.eq_of_key hg hg' hb hb' own own'
      exact absurd collides apart

/-- A budget that selects the pods of one app. -/
def choosyBudget (space name app : String) : Budget :=
  { blockingBudget space name 1 with
    spec := some
      { selector := some { labels := some [("app", app)], expressions := none },
        maxUnavailable := .int 1, minAvailable := .null, evictionPolicy := none } }

/-- The shop and a bakery, each with two budgets and a cart of its own: both budgets of the shop select
the cart, and one of the bakery. -/
def arcade : Session :=
  let s := shop Cluster.faultless emptyRegistry
  { s with
    cluster :=
      { s.cluster with
        budgets := [blockingBudget "shop" "web" 0, choosyBudget "bakery" "oven" "bread",
          choosyBudget "bakery" "till" "money", blockingBudget "shop" "api" 1]
        listings := [((some "shop", ""), [⟨some "cart", some "shop", none⟩]),
          ((some "bakery", "app=bread"), [⟨some "cart", some "bakery", none⟩])] } }

/-- The cart of the bakery does not count for the shop, nor that of the shop for the bakery. -/
theorem judged_arcade :
    (scan arcade).state.settings.reapMultiple.holds = true ∧
      (scan arcade).state.cluster.NamesApart ∧ (scan arcade).state.ledger.Grouped ∧
      (markOverlapping (scan arcade).state).result = .ok () ∧
      Assoc.keys (markOverlapping (scan arcade).state).state.ledger.reapable =
        [(some "shop", some "web"), (some "shop", some "api")] ∧
      Judged (scan arcade).state := by
  have apart : (scan arcade).state.cluster.NamesApart :=
    Cluster.namesApart_of_listings (by decide)
  have grouped : (scan arcade).state.ledger.Grouped := Evidence.grouped_scanned arcade.evidence
  have completed : (markOverlapping (scan arcade).state).result = .ok () := by decide +kernel
  exact ⟨rfl, apart, grouped, completed, by decide +kernel, judged rfl apart completed⟩

end Pass

end BudgetReaper
