import BudgetReaper.Proofs.Action.Script
import BudgetReaper.Proofs.Reaping.FailSafe

/-!
# Reaping — the course of a detection

What a detection does, call by call and sample by sample, is laid down by its evidence and by
whether there is a sink (`Evidence.course`): one listing of budgets, a sample for each budget that
blocks, then the listings of pods and the signals of the two marking phases.

**Course** (`acts_detect`).  From an empty ledger, the acts of a detection are the first ones of its
course, and all of it if the detection gets past.

What stands in the course is about listed budgets of namespaces that are not left alone
(`concerns_of_mem_course`), and so is what the conclusion does (`concerns_execute`).
-/

namespace BudgetReaper

/-! ### The course -/

namespace Evidence

/-- The acts of a signal: the event of a true verdict, and a sample if there is a sink. -/
def signals (e : Evidence) (equipped : Bool) (b : Budget) (reason : Reason) (verdict : Bool) :
    List Effect :=
  match b.metadata with
  | none => []
  | some m =>
    (if verdict then [.call (Pass.publication (.about b m reason e.now))] else []) ++
      if equipped then [.sample (Pass.sampleOf m reason (.int (if verdict then 1 else 0)))] else []

/-- The call for the pods that a budget selects in a namespace. -/
def inquiry (space : Option String) (b : Budget) : List Effect :=
  match b.spec with
  | none => []
  | some spec =>
    match Selector.renderOption spec.selector with
    | .ok text => [.call (.listPods space text)]
    | .error _ => []

/-- The budgets of a group select a pod name more than once. -/
def repeats (e : Evidence) (group : Option String × List Budget) : Bool :=
  hasDuplicates ((group.2.flatMap (e.selected group.1)).map Pod.name)

/-- The acts of the scan. -/
def scanning (e : Evidence) (equipped : Bool) : List Effect :=
  .call .listAll :: e.obstacles.flatMap fun entry => e.signals equipped entry.2 .deleted false

/-- The acts about a group that may overlap. -/
def judging (e : Evidence) (equipped : Bool) (group : Option String × List Budget) :
    List Effect :=
  group.2.flatMap (inquiry group.1) ++
    group.2.flatMap fun b => e.signals equipped b .multiple (e.repeats group)

/-- The acts about a blocking budget. -/
def checking (e : Evidence) (equipped : Bool) (space : Option String) (b : Budget) :
    List Effect :=
  inquiry space b ++ Pass.checks.flatMap fun reason =>
    e.signals equipped b reason (e.finds b (e.selected space b) reason)

/-- The acts of a whole detection. -/
def course (e : Evidence) (equipped : Bool) : List Effect :=
  e.scanning equipped ++
    ((if e.settings.reapMultiple.holds then e.scanned.multiple.flatMap (e.judging equipped)
      else []) ++
      e.scanned.blocking.flatMap fun g => g.2.flatMap (e.checking equipped g.1))

/-- The acts of a whole detection that has begun with the ledger `l`. -/
def courseFrom (e : Evidence) (equipped : Bool) (l : Ledger) : List Effect :=
  e.scanning equipped ++
    ((if e.settings.reapMultiple.holds then (e.entered l).multiple.flatMap (e.judging equipped)
      else []) ++
      (e.entered l).blocking.flatMap fun g => g.2.flatMap (e.checking equipped g.1))

end Evidence

/-- Samples of the session go anywhere, or they do not. -/
def Session.Equipped (equipped : Bool) (s : Session) : Prop :=
  s.sink.isPresent = equipped

namespace Pass

open BudgetReaper.Action

variable {e : Evidence} {l : Ledger} {equipped : Bool}

/-! ### Steps -/

theorem follows_metadataOf_bind {α : Type} {b : Budget} {next : Metadata → Pass α}
    {v : Evidence × Ledger} {script : List Effect}
    (h : ∀ m, b.metadata = some m →
      Follows Session.findings (Session.Equipped equipped) (next m) v script) :
    Follows Session.findings (Session.Equipped equipped) (metadataOf b >>= next) v script := by
  unfold metadataOf
  cases hm : b.metadata with
  | none =>
      rw [fail_bind]
      exact .fail _ _
  | some m =>
      rw [done_bind]
      exact h m hm

theorem follows_specOf_bind {α : Type} {b : Budget} {field : String} {next : Spec → Pass α}
    {v : Evidence × Ledger} {script : List Effect}
    (h : ∀ spec, b.spec = some spec →
      Follows Session.findings (Session.Equipped equipped) (next spec) v script) :
    Follows Session.findings (Session.Equipped equipped) (specOf b field >>= next) v script := by
  unfold specOf
  cases hs : b.spec with
  | none =>
      rw [fail_bind]
      exact .fail _ _
  | some spec =>
      rw [done_bind]
      exact h spec hs

theorem follows_post (change : Ledger → Ledger) :
    Follows Session.findings (Session.Equipped equipped) (post change) (e, l) [] :=
  .update fun _ h => h

theorem follows_settings :
    Follows Session.findings (Session.Equipped equipped) settings (e, l) [] :=
  .state_bind fun _ _ => .pure _

theorem follows_mark (b : Budget) :
    Follows Session.findings (Session.Equipped equipped) (mark b) (e, l) [] :=
  follows_metadataOf_bind fun m _ => follows_post (·.mark m.key b)

theorem follows_listBudgets :
    Follows Session.findings (Session.Equipped equipped) (listBudgets "") (e, l)
      [.call .listAll] := by
  refine .of_acts fun s _ hp => ?_
  rw [listBudgets_apply]
  exact ⟨hp, rfl⟩

theorem follows_selectedPods (space : Option String) (b : Budget) :
    Follows Session.findings (Session.Equipped equipped) (selectedPods space b) (e, l)
      (Evidence.inquiry space b) := by
  refine follows_specOf_bind fun spec hs => .ofExcept_bind fun text ht => ?_
  have asked : Evidence.inquiry space b = [.call (.listPods space text)] := by
    rw [Evidence.inquiry, hs]
    dsimp only
    rw [ht]
  have listing : Follows Session.findings (Session.Equipped equipped) (listPods space text) (e, l)
      [.call (.listPods space text)] := by
    refine .of_acts fun s _ hp => ?_
    rw [listPods_apply]
    exact ⟨hp, rfl⟩
  rw [asked]
  exact .bind listing (yields_listPods space text) (.say_bind (.pure _))

/-! ### Signals -/

theorem follows_announce {b : Budget} {m : Metadata} (hm : b.metadata = some m)
    (reason : Reason) :
    Follows Session.findings (Session.Equipped equipped) (announce b reason) (e, l)
      [.call (publication (.about b m reason e.now))] := by
  refine .of_acts fun s hs hp => ?_
  obtain ⟨rfl, rfl⟩ := Prod.mk.inj hs
  obtain ⟨reached, acts⟩ := acts_announce hm reason s
  exact ⟨reached ▸ hp, acts⟩

theorem follows_tally {b : Budget} {m : Metadata} (hm : b.metadata = some m) (reason : Reason)
    (value : Value) :
    Follows Session.findings (Session.Equipped equipped) (tally b reason value) (e, l)
      (if equipped then [.sample (sampleOf m reason value)] else []) := by
  refine .of_acts fun s _ hp => ?_
  cases equipped with
  | false =>
      rw [tally_absent hp]
      exact ⟨hp, rfl⟩
  | true =>
      obtain ⟨reached, acts⟩ := acts_tally hp hm reason value
      rw [reached]
      exact ⟨(s.sink.isPresent_record _).trans hp, acts⟩

/-- A mark is announced and raised. -/
theorem follows_flag (b : Budget) (reason : Reason) :
    Follows Session.findings (Session.Equipped equipped)
      (announce b reason >>= fun _ => raise b reason) (e, l)
      (e.signals equipped b reason true) := by
  cases hm : b.metadata with
  | none =>
      intro s _ hp
      have failed : (announce b reason s).result = .error (.missing "name") := by
        rw [announce_unnamed hm]
      rw [bind_of_error failed, announce_unnamed hm]
      exact ⟨hp, List.nil_prefix, fun _ h => nomatch h⟩
  | some m =>
      simp only [Evidence.signals, hm]
      exact .bind (follows_announce hm reason) (yields_announce b reason)
        (follows_tally hm reason (.int 1))

theorem follows_lower (b : Budget) (reason : Reason) :
    Follows Session.findings (Session.Equipped equipped) (lower b reason) (e, l)
      (e.signals equipped b reason false) := by
  cases hm : b.metadata with
  | none =>
      intro s _ hp
      change Scripted _ _ (tally b reason (.int 0) s)
      cases present : s.sink.isPresent with
      | false =>
          rw [tally_absent present]
          exact ⟨hp, List.nil_prefix, fun _ _ => by rw [Evidence.signals, hm]; rfl⟩
      | true =>
          rw [tally_unnamed present hm]
          exact ⟨hp, List.nil_prefix, fun _ h => nomatch h⟩
  | some m =>
      simp only [Evidence.signals, hm]
      exact follows_tally hm reason (.int 0)

/-! ### Phases -/

/-- A loop whose rounds only mark follows the scripts of its rounds. -/
theorem follows_marks {α : Type} {c : α → List Budget} {part : α → List Effect}
    {act : α → Pass Unit} {xs : List α}
    (yields : ∀ x ∈ xs, ∀ l, Yields Session.findings (act x) (e, l) () (e, l.markAll (c x)))
    (h : ∀ x ∈ xs, ∀ l,
      Follows Session.findings (Session.Equipped equipped) (act x) (e, l) (part x)) :
    Follows Session.findings (Session.Equipped equipped) (forEach act xs) (e, l)
      (xs.flatMap part) :=
  .forEach (g := fun l => (e, l)) yields h l

theorem follows_tellExcluded (budgets : List Budget) (told : List (Option String)) :
    Follows Session.findings (Session.Equipped equipped) (tellExcluded told budgets) (e, l) [] := by
  induction budgets generalizing told with
  | nil => exact .done ()
  | cons b rest ih =>
      refine follows_metadataOf_bind fun m _ => .quiet_bind follows_settings yields_settings ?_
      exact .ofExcept_bind fun _ _ => .ite (fun _ => .say_bind (ih _)) fun _ => ih told

theorem follows_sort (space : Option String) (b : Budget) :
    Follows Session.findings (Session.Equipped equipped) (sort space b) (e, l)
      (if b.isBlocking then e.signals equipped b .deleted false else []) := by
  refine .ite (fun blocks => ?_) fun moves => ?_
  · rw [if_pos blocks]
    exact .quiet_bind (follows_post (·.block space b)) (yields_post (·.block space b))
      (follows_lower b .deleted)
  · rw [if_neg moves]
    exact .say _

theorem follows_scan :
    Follows Session.findings (Session.Equipped equipped) scan (e, l) (e.scanning equipped) := by
  have parts : (e.obstacles.flatMap fun entry => e.signals equipped entry.2 .deleted false) =
      e.groups.flatMap fun g => g.2.flatMap fun b =>
        if b.isBlocking then e.signals equipped b .deleted false else [] := by
    simp only [Evidence.obstacles, List.flatMap_assoc]
    refine congrArg (List.flatMap · e.groups) (funext fun g => ?_)
    refine congrArg (List.flatMap · g.2) (funext fun b => ?_)
    split <;> simp
  rw [Evidence.scanning, parts]
  refine .bind follows_listBudgets yields_listBudgets ?_
  refine .quiet_bind (follows_tellExcluded e.budgets []) (yields_tellExcluded e.budgets []) ?_
  refine .quiet_bind follows_settings yields_settings ?_
  refine .quiet_bind (follows_post _) (yields_post (·.group (severalOf e.groups))) ?_
  refine .forEach (g := fun l => (e, l)) (fun group _ _ => yields_sortGroup group) ?_ _
  intro group _ l
  exact .forEach (g := fun l => (e, l)) (fun b _ _ => yields_sort group.1 b)
    (fun b _ _ => follows_sort group.1 b) l

theorem follows_markEach (bs : List Budget) :
    Follows Session.findings (Session.Equipped equipped) (forEach mark bs) (e, l) [] := by
  have quiet : Follows Session.findings (Session.Equipped equipped) (forEach mark bs) (e, l)
      (bs.flatMap fun _ => []) :=
    follows_marks (c := fun b => [b]) (fun b _ l => yields_mark b) fun b _ l => follows_mark b
  rwa [show (bs.flatMap fun _ => ([] : List Effect)) = [] by simp] at quiet

theorem follows_judgeGroup (group : Option String × List Budget) :
    Follows Session.findings (Session.Equipped equipped) (judgeGroup group) (e, l)
      (e.judging equipped group) := by
  refine .bind (.gather (fun b _ => .bind (.say _) (yields_selectedPods group.1 b))
      fun b _ => .say_bind (follows_selectedPods group.1 b))
    (.gather fun b _ => .bind (.say _) (yields_selectedPods group.1 b)) ?_
  · refine .ite (fun found => ?_) fun clear => ?_
    · have repeats : e.repeats group = true := found
      rw [repeats]
      refine .say_bind (.quiet_bind (follows_markEach group.2) (yields_markEach group.2)
        (.forEach_still (fun b _ => ?_) fun b _ => ?_))
      · exact .bind (yields_announce b _) (yields_raise b _)
      · exact follows_flag b .multiple
    · have apart : e.repeats group = false := eq_false_of_ne_true clear
      rw [apart]
      exact .forEach_still (fun b _ => yields_lower b _) fun b _ => follows_lower b .multiple

theorem follows_markOverlapping :
    Follows Session.findings (Session.Equipped equipped) markOverlapping (e, l)
      (if e.settings.reapMultiple.holds then l.multiple.flatMap (e.judging equipped) else []) := by
  refine .state_bind fun s hs => ?_
  obtain ⟨rfl, rfl⟩ := Prod.mk.inj hs
  refine .ite (fun on : s.evidence.settings.reapMultiple.holds = true => ?_)
    fun off : ¬ s.evidence.settings.reapMultiple.holds = true => ?_
  · rw [if_pos on]
    exact follows_marks (fun group _ _ => yields_judgeGroup group)
      fun group _ _ => follows_judgeGroup group
  · rw [if_neg off]
    exact .pure ()

theorem follows_report (b : Budget) (reason : Reason) (verdict : Bool) (pods : List Pod) :
    Follows Session.findings (Session.Equipped equipped) (report b reason verdict pods) (e, l)
      (e.signals equipped b reason verdict) := by
  cases verdict with
  | true => exact .say_bind (.quiet_bind (follows_mark b) (yields_mark b) (follows_flag b reason))
  | false => exact follows_lower b reason

theorem follows_verdictOf {s : Session} (b : Budget) (pods : List Pod) (reason : Reason) :
    Follows Session.findings (Session.Equipped equipped) (verdictOf s b pods reason) (e, l) [] := by
  cases reason with
  | blocking =>
      exact .ite (fun _ => follows_specOf_bind fun _ _ => .ofExcept _ _) fun _ => .done _
  | crashLoop => exact .ite (fun _ => .ofExcept _ _) fun _ => .done _
  | notReady => exact .ite (fun _ => .ofExcept _ _) fun _ => .done _
  | deleted | multiple => exact .done _

theorem follows_check (space : Option String) (b : Budget) :
    Follows Session.findings (Session.Equipped equipped) (check space b) (e, l)
      (e.checking equipped space b) := by
  rw [check_eq]
  refine .state_bind fun s hs => .say_bind ?_
  obtain ⟨rfl, rfl⟩ := Prod.mk.inj hs
  refine .bind (follows_selectedPods space b) (yields_selectedPods space b) ?_
  refine follows_marks
    (fun reason _ l => .bind (yields_verdictOf b _ reason) (yields_report b _ _ _)) ?_
  exact fun reason _ l => .quiet_bind (follows_verdictOf b _ reason) (yields_verdictOf b _ reason)
    (follows_report b reason _ _)

theorem follows_checkBlocking :
    Follows Session.findings (Session.Equipped equipped) checkBlocking (e, l)
      (l.blocking.flatMap fun g => g.2.flatMap (e.checking equipped g.1)) := by
  refine .state_bind fun s hs => ?_
  obtain ⟨rfl, rfl⟩ := Prod.mk.inj hs
  refine follows_marks (fun group _ l => yields_marks fun b _ l => yields_check group.1 b) ?_
  exact fun group _ l => follows_marks (fun b _ l => yields_check group.1 b)
    fun b _ l => follows_check group.1 b

/-- From any ledger, a detection follows the course that begins with it. -/
theorem follows_detect_onto (e : Evidence) (equipped : Bool) (l : Ledger) :
    Follows Session.findings (Session.Equipped equipped) detect (e, l)
      (e.courseFrom equipped l) := by
  refine .state_bind fun s _ => .say_bind ?_
  refine .bind (.rephrase follows_scan _) (.rephrase (yields_scan_onto l) _) ?_
  refine .bind (.rephrase follows_markOverlapping _) (.rephrase yields_markOverlapping _) ?_
  -- overlaps leave the blocking budgets of the ledger as the scan has entered them
  have blocking (bs : List Budget) : ((e.entered l).markAll bs).blocking = (e.entered l).blocking := by
    rw [Ledger.markAll_eq]
  rw [← blocking]
  exact .rephrase follows_checkBlocking _

theorem follows_detect (e : Evidence) (equipped : Bool) :
    Follows Session.findings (Session.Equipped equipped) detect (e, {}) (e.course equipped) :=
  follows_detect_onto e equipped {}

/-- The acts of a detection from an empty ledger are the first ones of its course, and all of it if
the detection gets past. -/
theorem acts_detect {s : Session} (fresh : s.ledger = {}) :
    (detect s).trace.filter Effect.isAct <+: s.evidence.course s.sink.isPresent ∧
      ((detect s).result = .ok () →
        (detect s).trace.filter Effect.isAct = s.evidence.course s.sink.isPresent) := by
  have start : s.findings = (s.evidence, {}) := Prod.ext rfl fresh
  obtain ⟨-, acts, whole⟩ := follows_detect s.evidence s.sink.isPresent s start rfl
  exact ⟨acts, whole ()⟩

end Pass

/-! ### What the acts are about -/

namespace Evidence

/-- A budget is listed, has metadata, and its namespace is not left alone. -/
structure Attends (e : Evidence) (b : Budget) (m : Metadata) : Prop where
  listed : b ∈ e.budgets
  named : b.metadata = some m
  watched : e.Watches m.space

/-- An effect is about a budget that is attended to, or about a namespace that is not left alone. -/
def Concerns (e : Evidence) : Effect → Prop
  | .notice _ | .call .listAll => True
  | .call (.listPods space _) => e.Watches space
  | .call (.createEvent space event) =>
    ∃ b m, e.Attends b m ∧ space = m.space ∧ ∃ now, event = .about b m event.reason now
  | .call (.delete key) => ∃ b m, e.Attends b m ∧ key = m.key
  | .sample x => ∃ b m, e.Attends b m ∧ x.key = m.key
  | _ => False

variable {e : Evidence} {space : Option String} {b : Budget} {m : Metadata} {equipped : Bool}

theorem attends_of_mem_budgetsOf (watched : e.Watches space) (h : b ∈ e.budgetsOf space) :
    ∃ m, e.Attends b m ∧ m.space = space := by
  obtain ⟨listed, m, hm, rfl⟩ := mem_budgetsOf.mp h
  exact ⟨m, ⟨listed, hm, watched⟩, rfl⟩

theorem Attends.concerns_signals (h : e.Attends b m) {reason : Reason} {verdict : Bool} :
    ∀ x ∈ e.signals equipped b reason verdict, e.Concerns x := by
  intro x hx
  rw [signals, h.named] at hx
  dsimp only at hx
  rcases List.mem_append.mp hx with hx | hx
  · split at hx
    · obtain rfl := List.mem_singleton.mp hx
      exact ⟨b, m, h, rfl, e.now, rfl⟩
    · cases hx
  · split at hx
    · obtain rfl := List.mem_singleton.mp hx
      exact ⟨b, m, h, rfl⟩
    · cases hx

theorem concerns_inquiry (watched : e.Watches space) :
    ∀ x ∈ inquiry space b, e.Concerns x := by
  intro x hx
  unfold inquiry at hx
  split at hx
  · cases hx
  · split at hx
    · obtain rfl := List.mem_singleton.mp hx
      exact watched
    · cases hx

/-- What stands in the course of a detection is about what is attended to. -/
theorem concerns_of_mem_course : ∀ x ∈ e.course equipped, e.Concerns x := by
  intro x hx
  rw [course, scanned_eq] at hx
  rcases List.mem_append.mp hx with scanning | hx
  · rcases List.mem_cons.mp scanning with rfl | lowered
    · trivial
    · obtain ⟨⟨space, b⟩, entered, hx⟩ := List.mem_flatMap.mp lowered
      obtain ⟨watched, listed, -⟩ := mem_obstacles.mp entered
      obtain ⟨m, attends, -⟩ := attends_of_mem_budgetsOf watched listed
      exact attends.concerns_signals x hx
  · rcases List.mem_append.mp hx with judging | checking
    · split at judging
      · obtain ⟨⟨space, bs⟩, hg, hx⟩ := List.mem_flatMap.mp judging
        obtain ⟨watched, rfl, -⟩ := mem_groups.mp (List.mem_filter.mp hg).1
        rcases List.mem_append.mp hx with hx | hx
        · obtain ⟨b, -, hx⟩ := List.mem_flatMap.mp hx
          exact concerns_inquiry watched x hx
        · obtain ⟨b, hb, hx⟩ := List.mem_flatMap.mp hx
          obtain ⟨m, attends, -⟩ := attends_of_mem_budgetsOf watched hb
          exact attends.concerns_signals x hx
      · cases judging
    · obtain ⟨⟨space, bs⟩, hg, hx⟩ := List.mem_flatMap.mp checking
      obtain ⟨b, hb, hx⟩ := List.mem_flatMap.mp hx
      obtain ⟨watched, listed, -⟩ := mem_obstacles.mp (mem_group_iff.mp ⟨bs, hg, hb⟩)
      obtain ⟨m, attends, -⟩ := attends_of_mem_budgetsOf watched listed
      rcases List.mem_append.mp hx with hx | hx
      · exact concerns_inquiry watched x hx
      · obtain ⟨reason, -, hx⟩ := List.mem_flatMap.mp hx
        exact attends.concerns_signals x hx

end Evidence

namespace Pass

open BudgetReaper.Action

/-- What a detection does is about what is attended to. -/
theorem concerns_detect {s : Session} (fresh : s.ledger = {}) :
    ∀ x ∈ (detect s).trace, s.evidence.Concerns x := by
  intro x hx
  cases act : x.isAct with
  | true =>
      refine Evidence.concerns_of_mem_course x ((acts_detect fresh).1.subset ?_)
      exact List.mem_filter.mpr ⟨hx, act⟩
  | false =>
      cases x with
      | notice n => trivial
      | _ => cases act

/-- What is done about an entry is about its budget. -/
theorem concerns_disposal {e : Evidence} {entry : Key × Budget} {m : Metadata}
    (attends : e.Attends entry.2 m) (own : entry.1 = m.key) :
    Emits e.Concerns (deleteBudget entry.1 >>= settle entry) := by
  refine .bind (emits_deleteBudget ⟨entry.2, m, attends, own⟩) fun gone =>
    .ite (.bind (.say trivial) fun _ => ?_) (.say trivial)
  have same {m' : Metadata} (hm : entry.2.metadata = some m') : m' = m :=
    Option.some.inj (hm.symm.trans attends.named)
  refine .bind (emits_announce (fun _ => trivial) fun m' hm now => ?_) fun _ => ?_
  · exact same hm ▸ ⟨entry.2, m, attends, rfl, now, rfl⟩
  · refine .bind (.update _) fun _ => emits_tally (fun _ => trivial) fun m' hm => ?_
    exact same hm ▸ ⟨entry.2, m, attends, rfl⟩

/-- Every entry marked is of a budget that is attended to. -/
theorem attends_of_mem_detect {s : Session} (fresh : s.ledger = {})
    (detected : (detect s).result = .ok ()) {entry : Key × Budget}
    (h : entry ∈ (detect s).state.ledger.reapable) :
    ∃ m, s.evidence.Attends entry.2 m ∧ entry.1 = m.key := by
  obtain ⟨own, m, hm, watched, -⟩ := offends_of_mem_detect fresh detected h
  rw [Budget.key?, hm] at own
  exact ⟨m, ⟨listed_of_mem_detect fresh detected h, hm, watched⟩, (Option.some.inj own).symm⟩

/-- What a run from an empty ledger does is about what is attended to, however it ends. -/
theorem concerns_execute {s : Session} (fresh : s.ledger = {}) :
    ∀ x ∈ (execute s).trace, s.evidence.Concerns x := by
  intro x hx
  rw [trace_execute] at hx
  rcases List.mem_append.mp hx with hx | hx
  · exact concerns_detect fresh x hx
  · have detected := detected_of_mem_closing hx
    rw [closing_of_ok detected] at hx
    refine obeys_conclude (P := Law.emitting s.evidence.Concerns) (fun _ => Emits.say trivial)
      (fun entry he => ?_) x hx
    obtain ⟨m, attends, own⟩ := attends_of_mem_detect fresh detected he
    exact concerns_disposal attends own

end Pass

end BudgetReaper
