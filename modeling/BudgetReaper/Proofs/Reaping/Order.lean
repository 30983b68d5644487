import BudgetReaper.Proofs.Reaping.Agreement
import BudgetReaper.Proofs.Reaping.Unhindered
import BudgetReaper.Proofs.Reaping.Verdict

/-!
# Reaping — decisions do not depend on an order

Two pieces of evidence are *reordered* when they list the same budgets in any order, and every
selector text gives the same pods in any order, each pod reporting the same of itself in any order
(`Evidence.Reordered`).  The verdicts of the checks are the same in both (`Reordered.verdict_eq`), a
namespace selects a pod name twice in both or in neither (`Reordered.repeats_eq`), and so what the one
needs and finds the other needs and finds (`Reordered.tractable`, `Reordered.offends`).

The course of a detection goes over entries of budgets under their namespaces, whatever groups they
come in (`perm_judging`, `flatMap_checking`), and the entries are the same in another order.  Where keys
are distinct the samples of one key are even the same in the same order (`Reordered.filter_samples`),
and a registry tells of a label set only what was last offered under it (`value?_collect_filter`).

**Order** (`orderless`).  Where no call fails, two runs over reordered listings complete together, make
the same calls in some order, and leave the same values in a registry.
-/

namespace BudgetReaper

/-- The same evidence in another order. -/
structure Evidence.Reordered (e e' : Evidence) : Prop where
  settings : e'.settings = e.settings
  now : e'.now = e.now
  budgets : e.budgets.Perm e'.budgets
  listings : ∀ asked, Pods.Alike ((Assoc.get? e.listings asked).getD [])
    ((Assoc.get? e'.listings asked).getD [])

/-- The clock has a zone, as that of a run always does, and the threshold of readiness is an integer.
Otherwise no age can be told, and whether the age of a condition is asked for depends on the
conditions before it. -/
structure Evidence.Dated (e : Evidence) : Prop where
  zoned : e.now.offset ≠ none
  seconds : ∃ n, e.settings.notReadySeconds = .int n

namespace Evidence

/-! ### Entries -/

variable {e e' : Evidence} {equipped : Bool}

/-- The listed budgets that are not left alone, under their namespaces. -/
def entries (e : Evidence) : List (Option String × Budget) :=
  e.budgets.filterMap (visible? e.settings)

theorem perm_obstacles (e : Evidence) : e.obstacles.Perm (e.entries.filter (·.2.isBlocking)) := by
  rw [obstacles_eq]
  exact (perm_entriesOf_groupBySpace _).filter _

theorem perm_blocking (e : Evidence) :
    (entriesOf (groupBySpace e.obstacles)).Perm (e.entries.filter (·.2.isBlocking)) :=
  (perm_entriesOf_groupBySpace _).trans e.perm_obstacles

theorem perm_several (e : Evidence) :
    (entriesOf (severalOf e.groups)).Perm
      (e.entries.filter fun x => 1 < (e.budgetsOf x.1).length) := by
  have kept : entriesOf (severalOf e.groups) =
      (entriesOf e.groups).filter fun x => 1 < (e.budgetsOf x.1).length := by
    refine (filter_flatMap_of_blocks fun g hg x hx => ?_).symm
    obtain ⟨-, members, -⟩ := mem_groups.mp hg
    obtain ⟨b, -, rfl⟩ := List.mem_map.mp hx
    rw [members]
  rw [kept]
  exact (perm_entriesOf_groupBySpace _).filter _

/-- The acts about one budget of a namespace that may be crowded. -/
def judgingOf (e : Evidence) (equipped : Bool) (x : Option String × Budget) : List Effect :=
  inquiry x.1 x.2 ++ e.signals equipped x.2 .multiple (e.repeats (x.1, e.budgetsOf x.1))

/-- The acts about the groups are those about their budgets. -/
theorem perm_judging (e : Evidence) :
    ((severalOf e.groups).flatMap (e.judging equipped)).Perm
      ((entriesOf (severalOf e.groups)).flatMap (e.judgingOf equipped)) := by
  rw [entriesOf, List.flatMap_assoc]
  refine List.Perm.flatMap_left _ fun g hg => ?_
  obtain ⟨-, members, -⟩ := mem_groups.mp (List.mem_filter.mp hg).1
  rw [List.flatMap_map]
  have same : g = (g.1, e.budgetsOf g.1) := Prod.ext rfl members
  simp only [judgingOf, judging, ← same]
  exact List.flatMap_append_perm ..

theorem flatMap_checking (e : Evidence) (groups : List (Option String × List Budget)) :
    (groups.flatMap fun g => g.2.flatMap (e.checking equipped g.1)) =
      (entriesOf groups).flatMap fun x => e.checking equipped x.1 x.2 := by
  rw [entriesOf, List.flatMap_assoc]
  exact List.flatMap_congr fun g _ => by rw [List.flatMap_map]

/-- Where keys are distinct, the budgets marked are those listed that offend, each under its key. -/
theorem mem_victims (distinct : (e.budgets.map Budget.key?).Nodup) {entry : Key × Budget} :
    entry ∈ e.victims ↔
      entry.2 ∈ e.budgets ∧ e.Offends entry.2 ∧ entry.2.key? = some entry.1 := by
  refine ⟨of_mem_victims, fun ⟨listed, offends, own⟩ => ?_⟩
  have marked : entry.1 ∈ Assoc.keys e.victims :=
    (Ledger.mem_keys_markAll ..).mpr (Or.inr ⟨entry.2, mem_marked.mpr ⟨listed, offends⟩, own⟩)
  obtain ⟨⟨key, b⟩, hb, rfl⟩ := List.mem_map.mp marked
  obtain ⟨listed', -, own'⟩ := of_mem_victims hb
  obtain rfl : b = entry.2 := List.inj_on_of_nodup_map distinct listed' listed (own'.trans own.symm)
  exact hb

/-- The conclusion gives a sample of each deletion. -/
theorem samples_conclusion (e : Evidence) :
    (e.conclusion true).filterMap Effect.sample? = (Assoc.keys e.condemned).map Pass.deletionOf := by
  have removing (entry : Key × Budget) (he : entry ∈ e.condemned) :
      (e.removing true entry).filterMap Effect.sample? = [Pass.deletionOf entry.1] := by
    obtain ⟨-, -, own⟩ := of_mem_victims (e.condemned_sublist.subset he)
    obtain ⟨m, hm, named⟩ := Option.map_eq_some_iff.mp own
    rw [Evidence.removing, List.filterMap_cons, samples_signals, reading_of_named hm, named]
    rfl
  rw [conclusion, List.filterMap_flatMap, List.flatMap_congr removing, Assoc.keys, List.map_map]
  exact List.map_eq_flatMap.symm

/-- The samples of a whole run where no call fails. -/
def samples (e : Evidence) : List Sample :=
  (e.course true ++ e.conclusion true).filterMap Effect.sample?

/-- The samples of a listed budget in a whole run. -/
theorem filter_samples (distinct : (e.budgets.map Budget.key?).Nodup) {b : Budget} {m : Metadata}
    (hb : b ∈ e.budgets) (hm : b.metadata = some m) :
    e.samples.filter (·.key = m.key) =
      e.baseline b m ++ (e.judgement m ++ e.verdicts b m) ++
        if m.key ∈ Assoc.keys e.condemned then [⟨m.key, .deleted, .int 1⟩] else [] := by
  have once : (Assoc.keys e.condemned).Nodup :=
    e.nodup_victims.sublist (e.condemned_sublist.map Prod.fst)
  rw [samples, List.filterMap_append, List.filter_append, filter_course distinct hb hm,
    samples_conclusion, Pass.filter_deletions once]

namespace Reordered

variable (h : e.Reordered e')

include h

theorem symm : e'.Reordered e where
  settings := h.settings.symm
  now := h.now.symm
  budgets := h.budgets.symm
  listings asked := (h.listings asked).symm

theorem distinct (distinct : (e.budgets.map Budget.key?).Nodup) :
    (e'.budgets.map Budget.key?).Nodup :=
  (h.budgets.map _).nodup_iff.mp distinct

theorem watches_iff {space : Option String} : e'.Watches space ↔ e.Watches space := by
  rw [Watches, Watches, h.settings]

theorem budgetsOf (space : Option String) : (e.budgetsOf space).Perm (e'.budgetsOf space) :=
  h.budgets.filter _

theorem entries : e.entries.Perm e'.entries := by
  rw [Evidence.entries, Evidence.entries, h.settings]
  exact h.budgets.filterMap _

theorem selected (space : Option String) (b : Budget) :
    Pods.Alike (e.selected space b) (e'.selected space b) := by
  unfold Evidence.selected
  split
  · exact ⟨[], .refl _, .nil⟩
  · split
    · exact h.listings _
    · exact ⟨[], .refl _, .nil⟩

theorem repeats_eq (space : Option String) :
    e'.repeats (space, e'.budgetsOf space) = e.repeats (space, e.budgetsOf space) := by
  have names : (((e.budgetsOf space).flatMap (e.selected space)).map Pod.name).Perm
      (((e'.budgetsOf space).flatMap (e'.selected space)).map Pod.name) := by
    rw [List.map_flatMap, List.map_flatMap]
    exact ((h.budgetsOf space).flatMap_right _).trans
      (List.Perm.flatMap_left _ fun b _ => (h.selected space b).names)
  rw [Bool.eq_iff_iff, repeats, repeats, hasDuplicates_iff, hasDuplicates_iff, names.nodup_iff]

variable (dated : e.Dated)

include dated

theorem dates : e'.Dated :=
  ⟨h.now ▸ dated.zoned, h.settings ▸ dated.seconds⟩

/-- The verdicts of the checks are the same. -/
theorem verdict_eq (space : Option String) (b : Budget) (reason : Reason) :
    e'.verdict b (e'.selected space b) reason = e.verdict b (e.selected space b) reason := by
  have alike := h.selected space b
  obtain ⟨zoned, n, seconds⟩ := dated
  cases reason with
  | blocking => simp only [verdict, h.settings, alike.length_eq]
  | crashLoop => simp only [verdict, h.settings, areCrashLooping_alike alike]
  | notReady =>
      simp only [verdict, h.settings, h.now, seconds, areNotReady_alike alike zoned]
  | deleted | multiple => rfl

theorem finds_eq (space : Option String) (b : Budget) (reason : Reason) :
    e'.finds b (e'.selected space b) reason = e.finds b (e.selected space b) reason := by
  rw [← affirms_verdict, ← affirms_verdict, h.verdict_eq dated]

/-- What the one needs the other needs. -/
theorem tractable (tractable : e.Tractable) : e'.Tractable where
  admitted := by
    rw [Settings.admission_eq_ok_iff, h.settings]
    intro b hb
    exact Settings.admission_eq_ok_iff.mp tractable.admitted b (h.budgets.mem_iff.mpr hb)
  judged on space watched several b hb := by
    have same := h.budgetsOf space
    exact tractable.judged (h.settings ▸ on) space (h.watches_iff.mp watched)
      (same.length_eq ▸ several) b (same.mem_iff.mpr hb)
  checked space watched b hb blocks := by
    have same := h.budgetsOf space
    obtain ⟨asks, told⟩ :=
      tractable.checked space (h.watches_iff.mp watched) b (same.mem_iff.mpr hb) blocks
    refine ⟨asks, fun reason checked => ?_⟩
    rw [Tells, h.verdict_eq dated]
    exact told reason checked

/-- What offends in the one offends in the other. -/
theorem offends {b : Budget} (offends : e.Offends b) : e'.Offends b := by
  obtain ⟨m, hm, watched, crowds | ⟨blocks, reason, checked, found⟩⟩ := offends
  · refine ⟨m, hm, h.watches_iff.mpr watched, Or.inl ⟨h.settings ▸ crowds.enabled,
      (h.budgetsOf m.space).length_eq ▸ crowds.several, ?_⟩⟩
    have repeated := h.repeats_eq m.space
    rw [repeats, repeats, Bool.eq_iff_iff, hasDuplicates_iff, hasDuplicates_iff] at repeated
    exact repeated.mpr crowds.repeated
  · refine ⟨m, hm, h.watches_iff.mpr watched, Or.inr ⟨blocks, reason, checked, ?_⟩⟩
    rw [h.finds_eq dated]
    exact found

/-- The acts of the detection are the same in some order. -/
theorem course (equipped : Bool) : (e.course equipped).Perm (e'.course equipped) := by
  -- each part goes over entries, which are the same in another order, with the same acts for each
  have signals := signals_congr h.now
  have several : (entriesOf (severalOf e.groups)).Perm (entriesOf (severalOf e'.groups)) := by
    refine e.perm_several.trans (.trans ?_ e'.perm_several.symm)
    have same (x : Option String × Budget) :
        (1 < (e'.budgetsOf x.1).length) = (1 < (e.budgetsOf x.1).length) := by
      rw [(h.budgetsOf x.1).length_eq]
    simp only [same]
    exact h.entries.filter _
  have judging : ((severalOf e.groups).flatMap (e.judging equipped)).Perm
      ((severalOf e'.groups).flatMap (e'.judging equipped)) := by
    have same : e'.judgingOf equipped = e.judgingOf equipped := by
      funext x
      rw [judgingOf, judgingOf, signals, h.repeats_eq]
    refine e.perm_judging.trans (.trans ?_ e'.perm_judging.symm)
    rw [same]
    exact several.flatMap_right _
  have checking : ((groupBySpace e.obstacles).flatMap fun g =>
        g.2.flatMap (e.checking equipped g.1)).Perm
      ((groupBySpace e'.obstacles).flatMap fun g => g.2.flatMap (e'.checking equipped g.1)) := by
    rw [flatMap_checking, flatMap_checking]
    refine (e.perm_blocking.trans ((h.entries.filter _).trans e'.perm_blocking.symm)).flatMap
      fun x _ => ?_
    simp only [Evidence.checking, signals, h.finds_eq dated]
    exact .refl _
  have scanning : (e.scanning equipped).Perm (e'.scanning equipped) := by
    rw [Evidence.scanning, Evidence.scanning, signals]
    exact ((e.perm_obstacles.trans ((h.entries.filter _).trans e'.perm_obstacles.symm)).flatMap_right
      _).cons _
  rw [Evidence.course, Evidence.course, scanned_eq, scanned_eq, h.settings]
  refine scanning.append (.append ?_ checking)
  split
  · exact judging
  · exact .refl _

/-! ### Deletions -/

/-- The same budgets are marked. -/
theorem victims (distinct : (e.budgets.map Budget.key?).Nodup) : e.victims.Perm e'.victims := by
  refine (List.perm_ext_iff_of_nodup (e.nodup_victims.of_map _) (e'.nodup_victims.of_map _)).mpr
    fun entry => ?_
  rw [mem_victims distinct, mem_victims (h.distinct distinct), h.budgets.mem_iff]
  exact and_congr_right fun _ => and_congr_left fun _ =>
    ⟨h.offends dated, h.symm.offends (h.dates dated)⟩

theorem condemned (distinct : (e.budgets.map Budget.key?).Nodup) :
    e.condemned.Perm e'.condemned := by
  rw [Evidence.condemned, Evidence.condemned, h.settings]
  split
  · exact .refl _
  · exact h.victims dated distinct

theorem conclusion (distinct : (e.budgets.map Budget.key?).Nodup) (equipped : Bool) :
    (e.conclusion equipped).Perm (e'.conclusion equipped) := by
  rw [Evidence.conclusion, Evidence.conclusion, removing_congr h.now]
  exact (h.condemned dated distinct).flatMap_right _

/-! ### Samples -/

/-- The samples of a listed budget are the same, in the same order. -/
theorem filter_samples (distinct : (e.budgets.map Budget.key?).Nodup) {b : Budget} {m : Metadata}
    (hb : b ∈ e.budgets) (hm : b.metadata = some m) :
    e'.samples.filter (·.key = m.key) = e.samples.filter (·.key = m.key) := by
  have keys : m.key ∈ Assoc.keys e'.condemned ↔ m.key ∈ Assoc.keys e.condemned :=
    ((h.condemned dated distinct).map Prod.fst).symm.mem_iff
  have baseline : e'.baseline b m = e.baseline b m := by
    simp only [Evidence.baseline, h.watches_iff]
  have judgement : e'.judgement m = e.judgement m := by
    simp only [Evidence.judgement, h.settings, h.watches_iff, h.repeats_eq,
      (h.budgetsOf m.space).length_eq]
  have verdicts : e'.verdicts b m = e.verdicts b m := by
    simp only [Evidence.verdicts, h.watches_iff, h.finds_eq dated]
  rw [Evidence.filter_samples distinct hb hm,
    Evidence.filter_samples (h.distinct distinct) (h.budgets.mem_iff.mp hb) hm, baseline, judgement,
    verdicts]
  simp only [keys]

end Reordered

end Evidence

/-! ### Told backwards -/

/-- The pod telling of itself backwards. -/
def Pod.backwards (p : Pod) : Pod :=
  { p with
    status := p.status.map fun s =>
      { init := s.init.map List.reverse
        containers := s.containers.map List.reverse
        conditions := s.conditions.map List.reverse } }

/-- The pods in the opposite order, each telling of itself backwards. -/
def Pods.backwards (pods : List Pod) : List Pod :=
  pods.reverse.map Pod.backwards

/-- A list that may be missing holds the same when reversed. -/
theorem PodStatus.perm_reversed {α : Type} (xs : Option (List α)) :
    (xs.getD []).Perm ((xs.map List.reverse).getD []) := by
  cases xs with
  | none => exact .refl _
  | some xs => exact (List.reverse_perm xs).symm

theorem Pod.alike_backwards (p : Pod) : p.Alike p.backwards where
  name := rfl
  space := rfl
  status := by
    obtain ⟨_, _, status⟩ := p
    cases status with
    | none => exact .none
    | some s =>
        exact .some ⟨PodStatus.perm_reversed _, PodStatus.perm_reversed _,
          PodStatus.perm_reversed _⟩

theorem Pods.alike_backwards (pods : List Pod) : Pods.Alike pods (Pods.backwards pods) :=
  ⟨pods.reverse, (List.reverse_perm pods).symm,
    List.forall₂_map_right_iff.mpr (List.forall₂_same.mpr fun p _ => p.alike_backwards)⟩

/-- Evidence and the same told backwards are reordered. -/
theorem Evidence.reordered_backwards (e : Evidence) :
    e.Reordered
      { e with
        budgets := e.budgets.reverse
        listings := e.listings.map (Prod.map id Pods.backwards) } where
  settings := rfl
  now := rfl
  budgets := (List.reverse_perm e.budgets).symm
  listings asked := by
    have told := Assoc.get?_map_values e.listings Pods.backwards asked
    change Pods.Alike _ ((Assoc.get? (e.listings.map (Prod.map id Pods.backwards)) asked).getD [])
    rw [told]
    cases Assoc.get? e.listings asked with
    | none => exact Pods.alike_backwards []
    | some pods => exact Pods.alike_backwards pods

/-! ### The whole run -/

/-- The session with other listings. -/
def Session.relisted (s : Session) (budgets : List Budget)
    (listings : List ((Option String × String) × List Pod)) : Session :=
  { s with cluster := { s.cluster with budgets, listings } }

/-- Of samples of named budgets, those under the labels of one of them are of its key. -/
theorem filter_labels {xs : List Sample}
    (named : ∀ y ∈ xs, ∃ space name, y.key = (some space, some name)) {x : Sample}
    {space name : String} (hx : x.key = (some space, some name)) :
    xs.filter (·.labels = x.labels) =
      (xs.filter (·.key = x.key)).filter (·.labels = x.labels) := by
  rw [List.filter_filter]
  refine List.filter_congr fun y hy => ?_
  obtain ⟨_, _, hy⟩ := named y hy
  by_cases same : y.labels = x.labels
  · simp [same, (Pass.eq_of_labels_eq hy hx same).1]
  · simp [same]

namespace Pass

open BudgetReaper.Action

/-- What two runs that differ in the order of what they meet have in common. -/
structure Rearranged (s t : Session) : Prop where
  /-- Calls and samples together. -/
  acts : ((execute s).trace.filter Effect.isAct).Perm ((execute t).trace.filter Effect.isAct)
  reapable : (Assoc.keys (execute s).state.ledger.reapable).Perm
    (Assoc.keys (execute t).state.ledger.reapable)
  reaped : (execute s).state.ledger.reaped.Perm (execute t).state.ledger.reaped
  announced : (execute s).announced.Perm (execute t).announced
  deletions : (execute s).deletions.Perm (execute t).deletions
  /-- A registry holds the same in the end under every label set. -/
  final : ∀ r address job, s.sink = .registry r address job →
    ∃ r₁ r₂, (execute s).state.sink = .registry r₁ address job ∧
      (execute t).state.sink = .registry r₂ address job ∧
        ∀ labels, r₁.value? Exposition.resultName labels = r₂.value? Exposition.resultName labels

section Orderless

variable {s : Session} {budgets : List Budget}
  {listings : List ((Option String × String) × List Pod)}

/-- The samples of an unhindered run are those that its evidence lays down. -/
theorem samples_of_unhindered (h : Unhindered s) (present : s.sink.isPresent = true) :
    (execute s).samples = s.evidence.samples := by
  rw [Outcome.samples, ← Effect.filterMap_acts _ fun _ => rfl, h.acts, present]
  rfl

/-- The samples under a label set are the same, in the same order. -/
theorem filter_samples_labels {t : Session} (fresh : s.ledger = {}) (fresh' : t.ledger = {})
    (reordered : s.evidence.Reordered t.evidence) (dated : s.evidence.Dated)
    (apart : s.cluster.Distinguished) (apart' : t.cluster.Distinguished)
    (samples : (execute s).samples = s.evidence.samples)
    (samples' : (execute t).samples = t.evidence.samples)
    (perm : (execute s).samples.Perm (execute t).samples) (labels : Labels) :
    (execute s).samples.filter (·.labels = labels) =
      (execute t).samples.filter (·.labels = labels) := by
  by_cases given : ∃ x ∈ (execute s).samples, x.labels = labels
  · obtain ⟨x, hx, rfl⟩ := given
    obtain ⟨_, _, named⟩ := named_of_mem_samples fresh apart hx
    obtain ⟨b, m, attends, own⟩ := concerns_execute fresh _ (Outcome.mem_samples.mp hx)
    rw [filter_labels (fun _ => named_of_mem_samples fresh apart) named,
      filter_labels (fun _ => named_of_mem_samples fresh' apart') named, samples, samples', own,
      reordered.filter_samples dated apart.distinct attends.listed attends.named]
  · -- no budget has these labels, so neither run gives a sample under them
    have none_given : (execute s).samples.filter (·.labels = labels) = [] :=
      List.filter_eq_nil_iff.mpr fun x hx same => given ⟨x, hx, of_decide_eq_true same⟩
    have none_given' := perm.filter (·.labels = labels)
    rw [none_given] at none_given' ⊢
    exact none_given'.nil_eq

/-- Where no call fails, a run does not depend on the order of what it meets. -/
theorem orderless (fresh : s.ledger = {}) (faultless : s.cluster.plan = Cluster.faultless)
    (lenient : s.sink.Lenient) (dated : s.evidence.Dated) (apart : s.cluster.Distinguished)
    (reordered : s.evidence.Reordered (s.relisted budgets listings).evidence) :
    ((execute s).result = .ok () ↔ (execute (s.relisted budgets listings)).result = .ok ()) ∧
      ((execute s).result = .ok () → Rearranged s (s.relisted budgets listings)) := by
  have dated' := reordered.dates dated
  have apart' : (s.relisted budgets listings).cluster.Distinguished :=
    ⟨fun b hb => apart.named b (reordered.budgets.mem_iff.mpr hb), reordered.distinct apart.distinct⟩
  refine ⟨?_, fun completed => ?_⟩
  · rw [completed_iff_tractable fresh faultless lenient,
      completed_iff_tractable (s := s.relisted budgets listings) fresh faultless lenient]
    exact ⟨reordered.tractable dated, reordered.symm.tractable dated'⟩
  · have tractable := (completed_iff_tractable fresh faultless lenient).mp completed
    have one := unhindered fresh faultless lenient tractable
    have other : Unhindered (s.relisted budgets listings) :=
      unhindered fresh faultless lenient (reordered.tractable dated tractable)
    have acts : ((execute s).trace.filter Effect.isAct).Perm
        ((execute (s.relisted budgets listings)).trace.filter Effect.isAct) := by
      rw [one.acts, other.acts]
      exact (reordered.course dated _).append (reordered.conclusion dated apart.distinct _)
    have seen {β : Type} (view : Effect → Option β) (hidden : ∀ n, view (.notice n) = none) :
        ((execute s).trace.filterMap view).Perm
          ((execute (s.relisted budgets listings)).trace.filterMap view) := by
      rw [← Effect.filterMap_acts view hidden (execute s).trace,
        ← Effect.filterMap_acts view hidden (execute (s.relisted budgets listings)).trace]
      exact acts.filterMap view
    refine ⟨acts, ?_, ?_, seen Effect.announced? fun _ => rfl, seen Effect.deleted? fun _ => rfl,
      fun r address job start => ?_⟩
    · rw [one.ledger, other.ledger]
      exact (reordered.victims dated apart.distinct).map Prod.fst
    · rw [one.ledger, other.ledger]
      exact ((reordered.condemned dated apart.distinct).map Prod.fst).map Key.text
    · have present : s.sink.isPresent = true := by rw [start]; rfl
      refine ⟨_, _, registry_execute start, registry_execute (s := s.relisted budgets listings) start,
        fun labels => ?_⟩
      rw [Registry.value?_collect_filter (fun _ => binary_of_mem_samples),
        Registry.value?_collect_filter (fun _ => binary_of_mem_samples),
        filter_samples_labels (t := s.relisted budgets listings) fresh fresh reordered dated apart
          apart' (samples_of_unhindered one present) (samples_of_unhindered other present)
          (seen Effect.sample? fun _ => rfl)]

end Orderless

/-- A pod with a container that runs, another that keeps failing, and two conditions. -/
def till : Pod where
  name := some "till"
  space := some "shop"
  status := some
    { init := none
      containers := some
        [{ restarts := some 0, state := none },
          { restarts := some 9, state := some ⟨some ⟨some "CrashLoopBackOff"⟩⟩ }]
      conditions := some
        [{ kind := some "Ready", status := some "False", since := none },
          { kind := some "ContainersReady", status := some "False", since := none }] }

/-- A run at a time in a zone over the shop with a till. -/
def shopWithTill : Session :=
  let s := shop Cluster.faultless emptyRegistry
  { s with
    settings := { reapCrashLoop := .bool true, reapNotReady := .bool true }
    now := { s.now with zone := some .utc }
    cluster :=
      { s.cluster with
        listings := [((some "shop", ""), [⟨some "cart", some "shop", none⟩, till])] } }

theorem dated_shopWithTill : shopWithTill.evidence.Dated where
  zoned := nofun
  seconds := ⟨1800, rfl⟩

/-- Told backwards, the shop with a till loses the same budgets, last one first. -/
theorem orderless_shopWithTill :
    shopWithTill.ledger = {} ∧ shopWithTill.cluster.plan = Cluster.faultless ∧
      shopWithTill.sink.Lenient ∧ shopWithTill.evidence.Dated ∧
      shopWithTill.cluster.Distinguished ∧ (execute shopWithTill).result = .ok () ∧
      (execute shopWithTill).deletions =
        [(some "shop", some "web"), (some "shop", some "api")] ∧
      (execute (shopWithTill.relisted shopWithTill.cluster.budgets.reverse
          (shopWithTill.cluster.listings.map (Prod.map id Pods.backwards)))).deletions =
        [(some "shop", some "api"), (some "shop", some "web")] ∧
      Rearranged shopWithTill (shopWithTill.relisted shopWithTill.cluster.budgets.reverse
        (shopWithTill.cluster.listings.map (Prod.map id Pods.backwards))) :=
  have apart : shopWithTill.cluster.Distinguished :=
    have alone := distinguished_shop Cluster.faultless .absent
    ⟨alone.named, alone.distinct⟩
  have completed : (execute shopWithTill).result = .ok () := by rfl
  ⟨rfl, rfl, lenient_emptyRegistry, dated_shopWithTill, apart, completed, by rfl, by rfl,
    (orderless rfl rfl lenient_emptyRegistry dated_shopWithTill apart
      shopWithTill.evidence.reordered_backwards).2 completed⟩

end Pass

end BudgetReaper
