import BudgetReaper.Proofs.Reaping.Exclusion
import BudgetReaper.Proofs.Reaping.Unhindered

/-!
# Reaping — namespaces are decided independently

A session is *secluded* in a namespace when its cluster lists the budgets of that namespace only
(`Session.secluded`).  Every loop of a run goes over blocks that belong to one namespace each: the
groups, the blocking budgets, the marks, the deletions.  Blocks of a namespace are kept as they are
and in their order when the others are left out (`filter_flatMap_of_blocks`), and a map in insertion
order keeps its order when keys are left out (`Assoc.filter_alter`), so the evidence of the secluded
session lays down exactly what concerns the namespace in the evidence of the whole
(`course_secluded`, `conclusion_secluded`).

**Independence** (`independent`).  Where no call fails and a run completes, the run secluded in any
namespace completes as well, and is the part of the whole that concerns the namespace.
-/

namespace BudgetReaper

/-! ### What concerns a namespace -/

/-- What is seen of the items that are kept is what is kept of those seen. -/
theorem filterMap_filter_of_view {α β : Type} {p : α → Bool} {q : β → Bool} {view : α → Option β}
    (own : ∀ x y, view x = some y → p x = q y) (xs : List α) :
    (xs.filter p).filterMap view = (xs.filterMap view).filter q := by
  rw [List.filterMap_filter, List.filter_filterMap]
  refine congrArg (List.filterMap · xs) (funext fun x => ?_)
  cases hv : view x with
  | none => simp
  | some y => rw [own x y hv, Option.filter_some]

namespace Effect

/-- The namespace that an act is about; the listing of all budgets is about none. -/
def space? : Effect → Option (Option String)
  | call (.listIn space) | call (.listPods space _) | call (.createEvent space _) => some space
  | call (.delete key) => some key.1
  | sample x => some x.key.1
  | _ => none

/-- The act is about the namespace. -/
def isAbout (space : Option String) (x : Effect) : Bool :=
  x.space? == some space

theorem isAbout_eq {space own : Option String} {x : Effect} (h : x.space? = some own) :
    x.isAbout space = decide (own = space) := by
  rw [isAbout, h, Option.some_beq_some]
  exact Bool.beq_eq_decide_eq own space

/-- What is about a namespace is an act. -/
theorem filter_isAbout (space : Option String) (t : List Effect) :
    (t.filter isAct).filter (isAbout space) = t.filter (isAbout space) := by
  rw [List.filter_filter]
  refine List.filter_congr fun x _ => ?_
  cases x with
  | notice n => rfl
  | _ => exact Bool.and_true _

end Effect

/-- The evidence of one namespace. -/
def Evidence.secluded (e : Evidence) (space : Option String) : Evidence :=
  { e with budgets := e.budgetsOf space }

/-- The session with the budgets of one namespace. -/
def Session.secluded (s : Session) (space : Option String) : Session :=
  s.withBudgets (s.evidence.budgetsOf space)

namespace Evidence

variable {e : Evidence} {space : Option String} {equipped : Bool} {b : Budget}

theorem space?_of_mem_inquiry {x : Effect} (h : x ∈ inquiry space b) : x.space? = some space := by
  unfold inquiry at h
  split at h
  · cases h
  · split at h
    · obtain rfl := List.mem_singleton.mp h
      rfl
    · cases h

theorem space?_of_mem_signals {m : Metadata} (hm : b.metadata = some m) {reason : Reason}
    {verdict : Bool} {x : Effect} (h : x ∈ e.signals equipped b reason verdict) :
    x.space? = some m.space := by
  simp only [signals, hm] at h
  rcases List.mem_append.mp h with h | h
  · split at h
    · obtain rfl := List.mem_singleton.mp h
      rfl
    · cases h
  · split at h
    · obtain rfl := List.mem_singleton.mp h
      rfl
    · cases h

/-- What is told of a budget of a namespace is about the namespace. -/
theorem space?_of_told (listed : b ∈ e.budgetsOf space) {reason : Reason} {verdict : Bool}
    {x : Effect} (h : x ∈ e.signals equipped b reason verdict) : x.space? = some space := by
  obtain ⟨-, m, hm, rfl⟩ := mem_budgetsOf.mp listed
  exact space?_of_mem_signals hm h

theorem space?_of_mem_judging {group : Option String × List Budget} (hg : group ∈ e.groups)
    {x : Effect} (h : x ∈ e.judging equipped group) : x.space? = some group.1 := by
  obtain ⟨-, members, -⟩ := mem_groups.mp hg
  rcases List.mem_append.mp h with h | h
  · obtain ⟨b, -, h⟩ := List.mem_flatMap.mp h
    exact space?_of_mem_inquiry h
  · obtain ⟨b, hb, h⟩ := List.mem_flatMap.mp h
    exact space?_of_told (members ▸ hb) h

theorem space?_of_mem_checking (listed : b ∈ e.budgetsOf space) {x : Effect}
    (h : x ∈ e.checking equipped space b) : x.space? = some space := by
  rcases List.mem_append.mp h with h | h
  · exact space?_of_mem_inquiry h
  · obtain ⟨reason, -, h⟩ := List.mem_flatMap.mp h
    exact space?_of_told listed h

/-! ### The findings -/

/-- The scan of one namespace enters what the whole scan enters of it. -/
theorem visible_secluded (e : Evidence) (space : Option String) :
    (e.secluded space).budgets.filterMap (visible? e.settings) =
      (e.budgets.filterMap (visible? e.settings)).filter (·.1 = space) := by
  change (e.budgetsOf space).filterMap _ = _
  rw [budgetsOf, List.filterMap_filter, List.filter_filterMap]
  refine congrArg (List.filterMap · e.budgets) (funext fun b => ?_)
  unfold visible?
  cases b.metadata with
  | none => rfl
  | some m =>
      simp only [Option.any_some, Option.bind_some]
      by_cases own : m.space = space
      · rw [if_pos (beq_iff_eq.mpr own)]
        split
        · simp [Option.filter, own]
        · rfl
      · rw [if_neg (by simpa using own)]
        split
        · simp [Option.filter, own]
        · rfl

theorem groups_secluded (e : Evidence) (space : Option String) :
    (e.secluded space).groups = e.groups.filter (·.1 = space) := by
  change groupBySpace ((e.secluded space).budgets.filterMap (visible? e.settings)) = _
  rw [visible_secluded, groups, groupsOf, filter_groupBySpace fun own => decide (own = space)]

theorem several_secluded (e : Evidence) (space : Option String) :
    severalOf (e.secluded space).groups = (severalOf e.groups).filter (·.1 = space) := by
  rw [severalOf, severalOf, groups_secluded, List.filter_filter, List.filter_filter]
  exact List.filter_congr fun g _ => Bool.and_comm ..

theorem obstacles_secluded (e : Evidence) (space : Option String) :
    (e.secluded space).obstacles = e.obstacles.filter (·.1 = space) := by
  rw [obstacles, obstacles, groups_secluded]
  refine (filter_flatMap_of_blocks fun g _ x hx => ?_).symm
  obtain ⟨b, -, hx⟩ := List.mem_flatMap.mp hx
  split at hx
  · obtain rfl := List.mem_singleton.mp hx
    rfl
  · cases hx

theorem blocking_secluded (e : Evidence) (space : Option String) :
    groupBySpace (e.secluded space).obstacles =
      (groupBySpace e.obstacles).filter (·.1 = space) := by
  rw [obstacles_secluded, filter_groupBySpace fun own => decide (own = space)]

/-- A budget in a group of blocking budgets is one of its namespace. -/
theorem listed_of_blocking {g : Option String × List Budget} (hg : g ∈ groupBySpace e.obstacles)
    (hb : b ∈ g.2) : b ∈ e.budgetsOf g.1 :=
  (mem_obstacles.mp (mem_group_iff.mp ⟨g.2, hg, hb⟩)).2.1

/-! ### The course -/

theorem scanning_secluded (e : Evidence) (space : Option String) :
    (e.secluded space).scanning equipped =
      .call .listAll :: (e.scanning equipped).filter (Effect.isAbout space) := by
  have listing : Effect.isAbout space (.call .listAll) = false := rfl
  rw [scanning, scanning, List.filter_cons_of_neg (by simp [listing]), obstacles_secluded]
  refine congrArg (_ :: ·) (filter_flatMap_of_blocks fun entry he x hx => ?_).symm
  exact Effect.isAbout_eq (space?_of_told (mem_obstacles.mp he).2.1 hx)

/-- The course of one namespace is what concerns it in the whole course. -/
theorem course_secluded (e : Evidence) (space : Option String) :
    (e.secluded space).course equipped =
      .call .listAll :: (e.course equipped).filter (Effect.isAbout space) := by
  have judging : (severalOf (e.secluded space).groups).flatMap (e.judging equipped) =
      ((severalOf e.groups).flatMap (e.judging equipped)).filter (Effect.isAbout space) := by
    rw [several_secluded]
    refine (filter_flatMap_of_blocks fun g hg x hx => ?_).symm
    exact Effect.isAbout_eq (space?_of_mem_judging (List.mem_filter.mp hg).1 hx)
  have checking : ((groupBySpace (e.secluded space).obstacles).flatMap fun g =>
        g.2.flatMap (e.checking equipped g.1)) =
      ((groupBySpace e.obstacles).flatMap fun g =>
        g.2.flatMap (e.checking equipped g.1)).filter (Effect.isAbout space) := by
    rw [blocking_secluded]
    refine (filter_flatMap_of_blocks fun g hg x hx => ?_).symm
    obtain ⟨b, hb, hx⟩ := List.mem_flatMap.mp hx
    exact Effect.isAbout_eq (space?_of_mem_checking (listed_of_blocking hg hb) hx)
  rw [course, course, scanned_eq, scanned_eq, scanning_secluded]
  change _ :: _ ++ ((if e.settings.reapMultiple.holds then
      (severalOf (e.secluded space).groups).flatMap (e.judging equipped) else []) ++
    (groupBySpace (e.secluded space).obstacles).flatMap fun g =>
      g.2.flatMap (e.checking equipped g.1)) = _
  rw [judging, checking, List.filter_append, List.filter_append, List.cons_append]
  split <;> rfl

/-! ### The marks -/

/-- The key of the budget is one of a namespace. -/
theorem any_key? (b : Budget) (space : Option String) :
    (b.key?.any fun key => decide (key.1 = space)) = b.metadata.any (·.space == space) := by
  rw [Budget.key?, Option.any_map]
  exact congrArg (b.metadata.any ·) (funext fun m => (Bool.beq_eq_decide_eq m.space space).symm)

theorem isOf_of_mem_budgetsOf {own : Option String} (h : b ∈ e.budgetsOf own)
    (space : Option String) :
    b.metadata.any (·.space == space) = decide (own = space) := by
  obtain ⟨-, m, hm, rfl⟩ := mem_budgetsOf.mp h
  rw [hm, Option.any_some]
  exact Bool.beq_eq_decide_eq m.space space

/-- The marks of one namespace are those of its budgets among all marks. -/
theorem marked_secluded (e : Evidence) (space : Option String) :
    (e.secluded space).marked = e.marked.filter fun b => b.metadata.any (·.space == space) := by
  have overlapping : (severalOf (e.secluded space).groups).flatMap e.overlapping =
      ((severalOf e.groups).flatMap e.overlapping).filter
        fun b => b.metadata.any (·.space == space) := by
    rw [several_secluded]
    refine (filter_flatMap_of_blocks fun g hg b hb => ?_).symm
    obtain ⟨-, members, -⟩ := mem_groups.mp (List.mem_filter.mp hg).1
    exact isOf_of_mem_budgetsOf (members ▸ (mem_overlapping.mp hb).1) space
  have offences : ((groupBySpace (e.secluded space).obstacles).flatMap fun g =>
        g.2.flatMap (e.offences g.1)) =
      ((groupBySpace e.obstacles).flatMap fun g => g.2.flatMap (e.offences g.1)).filter
        fun b => b.metadata.any (·.space == space) := by
    rw [blocking_secluded]
    refine (filter_flatMap_of_blocks fun g hg b hb => ?_).symm
    obtain ⟨b', hb', hb⟩ := List.mem_flatMap.mp hb
    obtain ⟨rfl, -⟩ := mem_offences.mp hb
    exact isOf_of_mem_budgetsOf (listed_of_blocking hg hb') space
  rw [marked, marked, scanned_eq, scanned_eq]
  change (if e.settings.reapMultiple.holds then
      (severalOf (e.secluded space).groups).flatMap e.overlapping else []) ++
    ((groupBySpace (e.secluded space).obstacles).flatMap fun g =>
      g.2.flatMap (e.offences g.1)) = _
  rw [overlapping, offences, List.filter_append]
  split <;> rfl

end Evidence

/-- Of the marks under some of the keys, those stay that are made under them. -/
theorem Ledger.filter_markAll {l l' : Ledger} (p : Key → Bool)
    (h : l'.reapable = l.reapable.filter fun entry => p entry.1) (bs : List Budget) :
    (l'.markAll (bs.filter fun b => b.key?.any p)).reapable =
      (l.markAll bs).reapable.filter fun entry => p entry.1 := by
  induction bs generalizing l l' with
  | nil => exact h
  | cons b rest ih =>
      -- both ledgers move on by `b` if its key is kept, else only the whole one
      change _ = ((l.markBudget b).markAll rest).reapable.filter _
      cases hb : b.key? with
      | none =>
          have bare : (b.key?.any p) = false := by rw [hb]; rfl
          have same : l.markBudget b = l := by rw [markBudget, hb]
          rw [List.filter_cons_of_neg (by simp [bare]), same]
          exact ih h
      | some key =>
          have own : b.key?.any p = p key := by rw [hb]; rfl
          have marked (l : Ledger) :
              (l.markBudget b).reapable = Assoc.putNew l.reapable key b := by
            rw [markBudget, hb]
            rfl
          cases hp : p key with
          | true =>
              rw [List.filter_cons_of_pos (p := fun b : Budget => b.key?.any p) (own.trans hp)]
              refine @ih (l.markBudget b) (l'.markBudget b) ?_
              rw [marked, marked, Assoc.putNew, Assoc.putNew, Assoc.filter_alter, hp, if_pos rfl, h]
          | false =>
              rw [List.filter_cons_of_neg (by simp [own, hp])]
              refine ih (l := l.markBudget b) ?_
              rw [marked, Assoc.putNew, Assoc.filter_alter, hp, if_neg Bool.false_ne_true, h]

namespace Evidence

variable {e : Evidence} {space : Option String} {equipped : Bool}

theorem victims_secluded (e : Evidence) (space : Option String) :
    (e.secluded space).victims = e.victims.filter (·.1.1 = space) := by
  rw [victims, victims, marked_secluded, scanned_eq, scanned_eq]
  simp only [← any_key?]
  exact Ledger.filter_markAll (fun key => decide (key.1 = space)) rfl e.marked

theorem condemned_secluded (e : Evidence) (space : Option String) :
    (e.secluded space).condemned = e.condemned.filter (·.1.1 = space) := by
  rw [condemned, condemned, victims_secluded]
  change (if e.settings.dryRun.holds then _ else _) = _
  split <;> rfl

/-- The conclusion of one namespace is what concerns it in the whole conclusion. -/
theorem conclusion_secluded (e : Evidence) (space : Option String) :
    (e.secluded space).conclusion equipped =
      (e.conclusion equipped).filter (Effect.isAbout space) := by
  rw [conclusion, conclusion, condemned_secluded]
  refine (filter_flatMap_of_blocks fun entry he x hx => ?_).symm
  obtain ⟨-, -, own⟩ := of_mem_victims (e.condemned_sublist.subset he)
  obtain ⟨m, hm, named⟩ := Option.map_eq_some_iff.mp own
  refine Effect.isAbout_eq ?_
  rcases List.mem_cons.mp hx with rfl | hx
  · rfl
  · rw [← named]
    exact space?_of_mem_signals hm hx

end Evidence

/-! ### Independence -/

namespace Pass

open BudgetReaper.Action

/-- The run secluded in a namespace is the part of the whole run that concerns the namespace. -/
structure Independent (s : Session) (space : Option String) : Prop where
  completed : (execute (s.secluded space)).result = .ok ()
  /-- Calls and samples together, in the order in which they are made. -/
  acts : (execute (s.secluded space)).trace.filter Effect.isAct =
    .call .listAll :: (execute s).trace.filter (Effect.isAbout space)
  calls : (execute (s.secluded space)).calls =
    .listAll :: (execute s).calls.filter fun call => (Effect.call call).isAbout space
  samples : (execute (s.secluded space)).samples =
    (execute s).samples.filter (·.key.1 = space)
  reapable : (execute (s.secluded space)).state.ledger.reapable =
    (execute s).state.ledger.reapable.filter (·.1.1 = space)
  /-- The names in the ledger are those of the keys that the whole run has deleted. -/
  booked : (execute s).state.ledger.reaped = (execute s).deletions.map Key.text
  /-- Of these, the secluded run has deleted those of the namespace. -/
  reaped : (execute (s.secluded space)).state.ledger.reaped =
    ((execute s).deletions.filter (·.1 = space)).map Key.text

/-- Where no call fails, a run that completes decides each namespace independently of the others. -/
theorem independent {s : Session} (fresh : s.ledger = {})
    (faultless : s.cluster.plan = Cluster.faultless) (lenient : s.sink.Lenient)
    (completed : (execute s).result = .ok ()) (space : Option String) : Independent s space := by
  have tractable := tractable_of_detected fresh (parts_of_completed completed).1
  have whole := unhindered fresh faultless lenient tractable
  have part : Unhindered (s.secluded space) :=
    unhindered fresh faultless lenient (tractable.of_sublist List.filter_sublist)
  have acts : (execute (s.secluded space)).trace.filter Effect.isAct =
      .call .listAll :: (execute s).trace.filter (Effect.isAbout space) := by
    rw [part.acts, ← Effect.filter_isAbout, whole.acts, List.filter_append, ← List.cons_append,
      ← Evidence.course_secluded, ← Evidence.conclusion_secluded]
    rfl
  refine ⟨part.completed, acts, ?_, ?_, ?_, ?_, ?_⟩
  · -- calls and samples are two views of the acts, and show what an act is about
    rw [Outcome.calls, ← Effect.filterMap_acts _ fun _ => rfl, acts, List.filterMap_cons,
      filterMap_filter_of_view (q := fun call => (Effect.call call).isAbout space)]
    · rfl
    · intro x call seen
      rw [Effect.call?_eq_some_iff.mp seen]
  · rw [Outcome.samples, ← Effect.filterMap_acts _ fun _ => rfl, acts, List.filterMap_cons,
      filterMap_filter_of_view (q := fun x : Sample => decide (x.key.1 = space))]
    · rfl
    · intro x sample seen
      rw [Effect.sample?_eq_some_iff.mp seen]
      exact Effect.isAbout_eq rfl
  · rw [part.ledger, whole.ledger]
    exact Evidence.victims_secluded s.evidence space
  · rw [whole.ledger, whole.deletions]
    rfl
  · rw [part.ledger, whole.deletions, Assoc.keys, List.filter_map]
    change (Assoc.keys (s.evidence.secluded space).condemned).map Key.text = _
    rw [Evidence.condemned_secluded]
    rfl

/-- A shop and a mill whose budgets are listed in turns. -/
def market : Session :=
  (shop Cluster.faultless emptyRegistry).withBudgets
    [blockingBudget "mill" "flour" 1, blockingBudget "shop" "web" 0,
      blockingBudget "mill" "wheel" 0, blockingBudget "shop" "api" 1]

/-- The shop is crowded and loses both budgets; the mill loses the one that is misconfigured, in the
market as on its own. -/
theorem independent_market :
    market.ledger = {} ∧ market.cluster.plan = Cluster.faultless ∧ market.sink.Lenient ∧
      (execute market).result = .ok () ∧
      (execute market).deletions =
        [(some "shop", some "web"), (some "shop", some "api"), (some "mill", some "wheel")] ∧
      (execute (market.secluded (some "mill"))).deletions = [(some "mill", some "wheel")] ∧
      Independent market (some "mill") :=
  ⟨rfl, rfl, lenient_emptyRegistry, by rfl, by rfl, by rfl,
    independent rfl rfl lenient_emptyRegistry (by rfl) _⟩

end Pass

end BudgetReaper
