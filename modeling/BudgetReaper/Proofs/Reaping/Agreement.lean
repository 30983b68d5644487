import BudgetReaper.Proofs.Reaping.Completeness

/-!
# Reaping — events and gauges agree

A mild run tells the same of a budget by its events as by its gauge (`Agreement`): event for event
there is a sample of value one, and each event names the budget that it is about.

Where the listed budgets can be told apart (`Cluster.Distinguished`), no sample lowers what another
has raised.  In the course of a detection there is one sample at most of each budget and reason
(`pairwise_course`), and what follows the detection only raises.  So a registry holds one, in the
end, under the labels of those budgets and reasons that an event was attempted for.
-/

namespace BudgetReaper

/-- Each budget listed has a namespace and a name, and no two have the same. -/
structure Cluster.Distinguished (c : Cluster) : Prop where
  named : ∀ b ∈ c.budgets, ∃ space name, b.key? = some (some space, some name)
  distinct : (c.budgets.map Budget.key?).Nodup

/-- An event refers to a budget by all that it says of it. -/
structure Event.Names (event : Event) (b : Budget) (m : Metadata) : Prop where
  apiVersion : event.apiVersion = Event.apiVersionOf b
  space : event.space = m.space
  name : event.name = m.name
  uid : event.uid = m.uid
  version : event.version = m.version
  generateName : event.generateName = "pdb-reaper-" ++ Text.orNone m.name
  message : event.message =
    "The PodDisruptionBudget " ++ m.key.text ++ " has been " ++ event.reason.consequence

theorem Event.names_about (b : Budget) (m : Metadata) (reason : Reason) (now : Stamp) :
    (Event.about b m reason now).Names b m where
  apiVersion := rfl
  space := rfl
  name := rfl
  uid := rfl
  version := rfl
  generateName := rfl
  message := rfl

/-- A sample is a zero or a one. -/
def Effect.IsBinary : Effect → Prop
  | .sample x => x.value = .int 0 ∨ x.value = .int 1
  | _ => True

/-! ### One sample of each budget and reason -/

namespace Evidence

variable {e : Evidence} {b : Budget} {m : Metadata}

/-- The samples of a budget in a course are of different reasons. -/
theorem reasons_sublist (e : Evidence) (b : Budget) (m : Metadata) :
    ((e.baseline b m ++ (e.judgement m ++ e.verdicts b m)).map Sample.reason).Sublist
      ([.deleted] ++ ([.multiple] ++ Pass.checks)) := by
  have baseline : ((e.baseline b m).map Sample.reason).Sublist [.deleted] := by
    unfold baseline
    split
    · exact List.Sublist.refl _
    · exact List.nil_sublist _
  have judgement : ((e.judgement m).map Sample.reason).Sublist [.multiple] := by
    unfold judgement
    split
    · exact List.Sublist.refl _
    · exact List.nil_sublist _
  have verdicts : ((e.verdicts b m).map Sample.reason).Sublist Pass.checks := by
    unfold verdicts
    split
    · rw [List.map_map]
      exact (List.map_id _).symm ▸ List.Sublist.refl _
    · exact List.nil_sublist _
  rw [List.map_append, List.map_append]
  exact baseline.append (judgement.append verdicts)

/-- Where listed keys are distinct, a course has one sample at most of each key and reason. -/
theorem pairwise_course (distinct : (e.budgets.map Budget.key?).Nodup) :
    ((e.course true).filterMap Effect.sample?).Pairwise
      fun x y => ¬ (x.key = y.key ∧ x.reason = y.reason) := by
  refine List.pairwise_iff_forall_sublist.mpr fun {x y} both ⟨same_key, same_reason⟩ => ?_
  have given : x ∈ (e.course true).filterMap Effect.sample? := both.subset (List.mem_cons_self ..)
  obtain ⟨_, hx, rfl⟩ : ∃ z ∈ e.course true, z = .sample x := by
    obtain ⟨z, hz, hx⟩ := List.mem_filterMap.mp given
    exact ⟨z, hz, Effect.sample?_eq_some_iff.mp hx⟩
  obtain ⟨b, m, attends, own⟩ := concerns_of_mem_course _ hx
  -- both are samples of one listed budget, whose samples are of different reasons
  have whole : [x, y].filter (·.key = m.key) = [x, y] := by simp [own, ← same_key]
  have kept := both.filter (·.key = m.key)
  rw [whole, filter_course distinct attends.listed attends.named] at kept
  have once : [x.reason, y.reason].Nodup :=
    ((kept.map Sample.reason).trans (reasons_sublist e b m)).nodup (by decide)
  exact (List.nodup_cons.mp once).1 (List.mem_singleton.mpr same_reason)

end Evidence

namespace Pass

open BudgetReaper.Action

/-- What follows the detection only raises. -/
theorem raised_of_mem_closing {s : Session} {x : Sample}
    (h : x ∈ (closing s).filterMap Effect.sample?) : x.value = .int 1 := by
  obtain ⟨z, hz, hx⟩ := List.mem_filterMap.mp h
  obtain rfl := Effect.sample?_eq_some_iff.mp hx
  exact (isRemoval_of_mem_closing hz).2

/-- Where listed keys are distinct, what a run has raised it does not lower. -/
theorem pairwise_samples {s : Session} (fresh : s.ledger = {}) (present : s.sink.isPresent = true)
    (distinct : (s.cluster.budgets.map Budget.key?).Nodup) :
    (execute s).samples.Pairwise fun x y =>
      x.key = y.key → x.reason = y.reason → x.value = .int 1 → y.value ≠ .int 0 := by
  have raised {y : Sample} (hy : y ∈ (closing s).filterMap Effect.sample?) : y.value ≠ .int 0 := by
    rw [raised_of_mem_closing hy]
    decide
  rw [samples_execute]
  refine List.pairwise_append.mpr ⟨?_, ?_, fun _ _ y hy _ _ _ => raised hy⟩
  · have acts : (detect s).samples <+: (s.evidence.course true).filterMap Effect.sample? := by
      rw [Outcome.samples, ← Effect.filterMap_acts _ fun _ => rfl, ← present]
      exact (acts_detect fresh).1.filterMap _
    refine ((Evidence.pairwise_course distinct).sublist acts.sublist).imp ?_
    exact fun apart key reason => absurd ⟨key, reason⟩ apart
  · refine List.pairwise_iff_forall_sublist.mpr fun {x y} both _ _ _ => raised (both.subset ?_)
    exact List.mem_cons_of_mem x (List.mem_singleton_self y)

/-! ### The samples of a run -/

/-- A run gives zeros and ones. -/
theorem binary_of_mem_samples {s : Session} {x : Sample} (h : x ∈ (execute s).samples) :
    x.value = .int 0 ∨ x.value = .int 1 := by
  rw [samples_execute] at h
  rcases List.mem_append.mp h with detected | closing
  · have probing : Probing (Law.emitting Effect.IsBinary) := by
      refine ⟨fun _ => Emits.say trivial, fun _ _ => Emits.update _, emits_listBudgets trivial,
        fun _ _ => emits_listPods trivial, fun b reason _ => ?_, fun b reason => ?_⟩
      · refine Emits.bind (emits_announce (fun _ => trivial) fun _ _ _ => trivial) fun _ => ?_
        exact emits_tally (fun _ => trivial) fun _ _ => Or.inr rfl
      · exact emits_tally (fun _ => trivial) fun _ _ => Or.inl rfl
    exact probing.detect s _ (Outcome.mem_samples.mp detected)
  · exact Or.inr (raised_of_mem_closing closing)

/-- The samples of a run are of listed budgets. -/
theorem named_of_mem_samples {s : Session} (fresh : s.ledger = {})
    (apart : s.cluster.Distinguished) {x : Sample} (h : x ∈ (execute s).samples) :
    ∃ space name, x.key = (some space, some name) := by
  obtain ⟨b, m, attends, own⟩ := concerns_execute fresh _ (Outcome.mem_samples.mp h)
  obtain ⟨space, name, named⟩ := apart.named b attends.listed
  rw [Budget.key?, attends.named] at named
  exact ⟨space, name, own.trans (Option.some.inj named)⟩

/-- Samples of named budgets that share their labels are of the same budget and reason. -/
theorem eq_of_labels_eq {x y : Sample} {space name space' name' : String}
    (hx : x.key = (some space, some name)) (hy : y.key = (some space', some name'))
    (same : x.labels = y.labels) : x.key = y.key ∧ x.reason = y.reason := by
  rw [Sample.labels, Sample.labels, hx, hy] at same
  obtain ⟨rfl, rfl, reason⟩ := Labels.mk.inj same
  exact ⟨hx.trans hy.symm, Reason.text_injective reason⟩

theorem mem_raised {s : Session} {key : Key} {reason : Reason} :
    (key, reason) ∈ (execute s).raised ↔ ⟨key, reason, .int 1⟩ ∈ (execute s).samples := by
  rw [Outcome.mem_samples, Outcome.raised, List.mem_filterMap]
  constructor
  · rintro ⟨e, he, raised⟩
    unfold Effect.raised? at raised
    split at raised
    · next x =>
        split at raised
        · next one =>
            obtain ⟨rfl, rfl⟩ := Prod.mk.inj (Option.some.inj raised)
            exact one ▸ he
        · cases raised
    · cases raised
  · exact fun h => ⟨_, h, rfl⟩

/-! ### Agreement -/

/-- What the events and the samples of a run tell of each other. -/
structure Agreement (s : Session) : Prop where
  /-- The budgets and reasons of the events attempted are those of the samples of value one. -/
  paired : (execute s).announced = (execute s).raised
  /-- An event is created in the namespace of a listed budget and refers to that budget. -/
  identified : ∀ space event, .createEvent space event ∈ (execute s).calls →
    ∃ b ∈ s.cluster.budgets, ∃ m, b.metadata = some m ∧ space = m.space ∧ event.Names b m
  /-- What a sample has raised no later one lowers. -/
  settled : s.cluster.Distinguished → (execute s).samples.Pairwise fun x y =>
    x.key = y.key → x.reason = y.reason → x.value = .int 1 → y.value ≠ .int 0
  /-- A registry holds one in the end where an event was attempted, and nowhere else, unless it held
  one before. -/
  final : s.cluster.Distinguished → ∀ r address job, s.sink = .registry r address job →
    ∃ r', (execute s).state.sink = .registry r' address job ∧
      ∀ labels, r.value? Exposition.resultName labels ≠ some (.ofInt 1) →
        (r'.value? Exposition.resultName labels = some (.ofInt 1) ↔
          ∃ space name reason, labels = ⟨space, name, reason.text⟩ ∧
            ((some space, some name), reason) ∈ (execute s).announced)

/-- The registry that a run leaves holds one where a sample has raised it. -/
theorem value?_execute {s : Session} (fresh : s.ledger = {}) (apart : s.cluster.Distinguished)
    {r : Registry} {address : Option String} {job : String}
    (start : s.sink = .registry r address job) {labels : Labels}
    (before : r.value? Exposition.resultName labels ≠ some (.ofInt 1)) :
    (r.collect (execute s).samples).value? Exposition.resultName labels = some (.ofInt 1) ↔
      ∃ space name reason, labels = ⟨space, name, reason.text⟩ ∧
        ((some space, some name), reason) ∈ (execute s).raised := by
  have lasting : (execute s).samples.Pairwise Registry.Lasting := by
    have present : s.sink.isPresent = true := by rw [start]; rfl
    refine (pairwise_samples fresh present apart.distinct).imp_of_mem fun hx hy kept same => ?_
    obtain ⟨_, _, named⟩ := named_of_mem_samples fresh apart hx
    obtain ⟨_, _, named'⟩ := named_of_mem_samples fresh apart hy
    obtain ⟨key, reason⟩ := eq_of_labels_eq named named' same
    exact kept key reason
  rw [Registry.value?_collect (fun _ => binary_of_mem_samples) lasting before]
  constructor
  · rintro ⟨⟨key, reason, value⟩, given, rfl, rfl⟩
    obtain ⟨space, name, rfl⟩ := named_of_mem_samples fresh apart given
    exact ⟨space, name, reason, rfl, mem_raised.mpr given⟩
  · rintro ⟨space, name, reason, rfl, raised⟩
    exact ⟨_, mem_raised.mp raised, rfl, rfl⟩

/-- In a mild run from an empty ledger, events and gauges agree, however it ends. -/
theorem agreement {s : Session} (fresh : s.ledger = {}) (mild : s.Mild) : Agreement s where
  paired := announced_execute mild
  identified space event called := by
    obtain ⟨b, m, attends, own, now, built⟩ :=
      concerns_execute fresh _ (Outcome.mem_calls.mp called)
    have names := Event.names_about b m event.reason now
    rw [← built] at names
    exact ⟨b, attends.listed, m, attends.named, own, names⟩
  settled apart := pairwise_samples fresh mild.sink.present apart.distinct
  final apart r address job start := by
    refine ⟨r.collect (execute s).samples, ?_, fun labels before => ?_⟩
    · rw [(replayed_execute s).sink, start]
      exact Sink.after_registry r address job _
    · rw [announced_execute mild]
      exact value?_execute fresh apart start before

/-- A plan under which events are rejected and the second deletion is turned down. -/
def overloaded : Plan :=
  failingDeletion 2 (.rejected (some 500) (some "Overloaded"))

theorem distinguished_shop (plan : Plan) (sink : Sink) : (shop plan sink).cluster.Distinguished where
  named := by simp [shop, blockingBudget, Budget.key?, Metadata.key]
  distinct := by simp [shop, blockingBudget, Budget.key?, Metadata.key]

/-- In the shop the run is aborted at the second deletion, after four events that were rejected. -/
theorem agreement_shop :
    (shop overloaded emptyRegistry).ledger = {} ∧ (shop overloaded emptyRegistry).Mild ∧
      (shop overloaded emptyRegistry).cluster.Distinguished ∧
      (execute (shop overloaded emptyRegistry)).result ≠ .ok () ∧
      (execute (shop overloaded emptyRegistry)).announced =
        [((some "shop", some "web"), .multiple), ((some "shop", some "api"), .multiple),
          ((some "shop", some "web"), .blocking), ((some "shop", some "web"), .deleted)] ∧
      Agreement (shop overloaded emptyRegistry) :=
  ⟨rfl, mild_failingDeletion 2 rfl, distinguished_shop _ _, nofun, by rfl,
    agreement rfl (mild_failingDeletion 2 rfl)⟩

end Pass

end BudgetReaper
