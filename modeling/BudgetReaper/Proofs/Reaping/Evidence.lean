import BudgetReaper.Proofs.Action.Yield
import BudgetReaper.Proofs.Reaping.Detection

/-!
# Reaping — the evidence of a run

What a detection finds depends on its *evidence* only: the settings, the clock, the budgets listed
and the pods that each selector text gives.  The plan of failures, the sink and the calls made
before decide how far it gets, not what it finds (`yields_detect`).

A phase changes the ledger in one way only: the scan enters blocking budgets, the two marking
phases mark budgets, each in a list of changes that is read off the evidence.
-/

namespace BudgetReaper

/-- What the findings of a run depend on. -/
structure Evidence where
  settings : Settings
  now : Stamp
  budgets : List Budget
  listings : List ((Option String × String) × List Pod)

/-- The evidence that a session holds. -/
def Session.evidence (s : Session) : Evidence where
  settings := s.settings
  now := s.now
  budgets := s.cluster.budgets
  listings := s.cluster.listings

/-- The evidence of a session, with what has been found in it. -/
def Session.findings (s : Session) : Evidence × Ledger :=
  (s.evidence, s.ledger)

/-- The verdict of a computation that gives one; false of one that fails. -/
def affirms {ε : Type} : Except ε Bool → Bool
  | .ok verdict => verdict
  | .error _ => false

namespace Evidence

/-- The pods that the selector of a budget selects in a namespace; a budget whose selector has no
text ends the run that asks for its pods. -/
def selected (e : Evidence) (space : Option String) (b : Budget) : List Pod :=
  match b.spec with
  | none => []
  | some spec =>
    match Selector.renderOption spec.selector with
    | .ok text => (Assoc.get? e.listings (space, text)).getD []
    | .error _ => []

/-- A check of a blocking budget is switched on and finds what it looks for. -/
def finds (e : Evidence) (b : Budget) (pods : List Pod) : Reason → Bool
  | .blocking =>
    e.settings.reapMisconfigured.holds &&
      b.spec.any fun spec => affirms (spec.isMisconfigured pods.length (expectedOf b.status))
  | .crashLoop =>
    e.settings.reapCrashLoop.holds &&
      affirms (areCrashLooping pods e.settings.crashLoopThreshold
        (.ofAll e.settings.allCrashLoop.holds))
  | .notReady =>
    e.settings.reapNotReady.holds &&
      affirms (areNotReady pods e.settings.notReadySeconds (.ofAll e.settings.allNotReady.holds)
        e.now)
  | _ => false

/-- The budgets listed that are not left alone, in groups. -/
def groups (e : Evidence) : List (Option String × List Budget) :=
  groupsOf e.settings e.budgets

/-- The blocking budgets, in the order in which the scan enters them. -/
def obstacles (e : Evidence) : List (Option String × Budget) :=
  e.groups.flatMap fun g => g.2.flatMap fun b => if b.isBlocking then [(g.1, b)] else []

/-- The budgets of a group that are marked because they overlap. -/
def overlapping (e : Evidence) (group : Option String × List Budget) : List Budget :=
  if hasDuplicates ((group.2.flatMap (e.selected group.1)).map Pod.name) then group.2 else []

/-- A blocking budget, once for each check that finds what it looks for. -/
def offences (e : Evidence) (space : Option String) (b : Budget) : List Budget :=
  Pass.checks.flatMap fun reason => if e.finds b (e.selected space b) reason then [b] else []

/-- The ledger after a scan that has begun with `l`. -/
def entered (e : Evidence) (l : Ledger) : Ledger :=
  e.obstacles.foldl (fun l entry => l.block entry.1 entry.2) (l.group (severalOf e.groups))

/-- What the scan finds. -/
def scanned (e : Evidence) : Ledger :=
  e.obstacles.foldl (fun l entry => l.block entry.1 entry.2) (Ledger.group {} (severalOf e.groups))

theorem entered_empty (e : Evidence) : e.entered {} = e.scanned := rfl

/-- The budgets that the marking phases mark, in order, some of them more than once. -/
def marked (e : Evidence) : List Budget :=
  (if e.settings.reapMultiple.holds then e.scanned.multiple.flatMap e.overlapping else []) ++
    e.scanned.blocking.flatMap fun g => g.2.flatMap (e.offences g.1)

/-- The budgets that the marking phases mark after a scan that has begun with `l`. -/
def markedFrom (e : Evidence) (l : Ledger) : List Budget :=
  (if e.settings.reapMultiple.holds then (e.entered l).multiple.flatMap e.overlapping else []) ++
    (e.entered l).blocking.flatMap fun g => g.2.flatMap (e.offences g.1)

end Evidence

namespace Ledger

/-- The ledger with a budget marked under its own key. -/
def markBudget (l : Ledger) (b : Budget) : Ledger :=
  match b.key? with
  | some key => l.mark key b
  | none => l

/-- The ledger with budgets marked under their own keys, in order. -/
def markAll (l : Ledger) (bs : List Budget) : Ledger :=
  bs.foldl markBudget l

end Ledger

namespace Pass

open BudgetReaper.Action

variable {e : Evidence} {l : Ledger}

/-! ### What signals and requests leave in view -/

theorem yields_announce (b : Budget) (reason : Reason) :
    Yields Session.findings (announce b reason) (e, l) () (e, l) :=
  .of_keeps (keeps_announce (fun _ _ => rfl) b reason)

theorem yields_raise (b : Budget) (reason : Reason) :
    Yields Session.findings (raise b reason) (e, l) () (e, l) :=
  .of_keeps (keeps_tally (fun _ _ => rfl) b reason _)

theorem yields_lower (b : Budget) (reason : Reason) :
    Yields Session.findings (lower b reason) (e, l) () (e, l) :=
  .of_keeps (keeps_tally (fun _ _ => rfl) b reason _)

theorem yields_settings : Yields Session.findings settings (e, l) e.settings (e, l) := by
  refine .state_bind fun s hs => ?_
  obtain rfl : s.evidence = e := congrArg Prod.fst hs
  exact .pure _

theorem yields_listBudgets :
    Yields Session.findings (listBudgets "") (e, l) e.budgets (e, l) := by
  intro s hs bs hbs
  obtain rfl : s.evidence = e := congrArg Prod.fst hs
  rw [listBudgets_apply] at hbs ⊢
  exact ⟨answer_eq_ok hbs, hs⟩

theorem yields_metadataOf_bind {α : Type} {b : Budget} {next : Metadata → Pass α}
    {v w : Evidence × Ledger} {x : α}
    (h : ∀ m, b.metadata = some m → Yields Session.findings (next m) v x w) :
    Yields Session.findings (metadataOf b >>= next) v x w := by
  unfold metadataOf
  cases hm : b.metadata with
  | none =>
      rw [fail_bind]
      exact .fail _ _
  | some m =>
      rw [done_bind]
      exact h m hm

theorem yields_specOf_bind {α : Type} {b : Budget} {field : String} {next : Spec → Pass α}
    {v w : Evidence × Ledger} {x : α}
    (h : ∀ spec, b.spec = some spec → Yields Session.findings (next spec) v x w) :
    Yields Session.findings (specOf b field >>= next) v x w := by
  unfold specOf
  cases hs : b.spec with
  | none =>
      rw [fail_bind]
      exact .fail _ _
  | some spec =>
      rw [done_bind]
      exact h spec hs

theorem yields_listPods (space : Option String) (selector : String) :
    Yields Session.findings (listPods space selector) (e, l)
      ((Assoc.get? e.listings (space, selector)).getD []) (e, l) := by
  intro s hs pods hpods
  obtain rfl : s.evidence = e := congrArg Prod.fst hs
  rw [listPods_apply] at hpods ⊢
  exact ⟨answer_eq_ok hpods, hs⟩

theorem yields_selectedPods (space : Option String) (b : Budget) :
    Yields Session.findings (selectedPods space b) (e, l) (e.selected space b) (e, l) := by
  refine yields_specOf_bind fun spec hs => .ofExcept_bind fun text ht => ?_
  have pods : e.selected space b = (Assoc.get? e.listings (space, text)).getD [] := by
    rw [Evidence.selected, hs]
    dsimp only
    rw [ht]
  rw [pods]
  exact .bind (yields_listPods space text) (.bind (.say _) (.pure _))

theorem yields_mark (b : Budget) :
    Yields Session.findings (mark b) (e, l) () (e, l.markBudget b) := by
  refine yields_metadataOf_bind fun m hm => .update fun s hs => ?_
  obtain ⟨rfl, rfl⟩ := Prod.mk.inj hs
  rw [Ledger.markBudget, Budget.key?, hm]
  rfl

/-! ### What the phases find -/

/-- A loop whose rounds only mark marks all that its rounds mark. -/
theorem yields_marks {α : Type} {c : α → List Budget} {act : α → Pass Unit} {xs : List α}
    (h : ∀ x ∈ xs, ∀ l, Yields Session.findings (act x) (e, l) () (e, l.markAll (c x))) :
    Yields Session.findings (forEach act xs) (e, l) () (e, l.markAll (xs.flatMap c)) :=
  .forEach (g := fun l => (e, l)) h l

theorem yields_markEach (bs : List Budget) :
    Yields Session.findings (forEach mark bs) (e, l) () (e, l.markAll bs) := by
  have marks : Yields Session.findings (forEach mark bs) (e, l) ()
      (e, l.markAll (bs.flatMap fun b => [b])) :=
    yields_marks fun b _ l => yields_mark b
  rwa [List.flatMap_singleton'] at marks

theorem yields_judgeGroup (group : Option String × List Budget) :
    Yields Session.findings (judgeGroup group) (e, l) () (e, l.markAll (e.overlapping group)) := by
  refine .bind (.gather fun b _ => .bind (.say _) (yields_selectedPods group.1 b)) ?_
  unfold Evidence.overlapping
  refine .ite (fun found => ?_) fun clear => ?_
  · rw [if_pos found]
    refine .bind (.say _) (.bind (yields_markEach group.2) (.of_keeps (.forEach (fun b => ?_) group.2)))
    exact .bind (keeps_announce (fun _ _ => rfl) b _) fun _ => keeps_tally (fun _ _ => rfl) b _ _
  · rw [if_neg clear]
    exact .of_keeps (.forEach (fun b => keeps_tally (fun _ _ => rfl) b _ _) group.2)

theorem yields_markOverlapping :
    Yields Session.findings markOverlapping (e, l) ()
      (e, l.markAll (if e.settings.reapMultiple.holds then l.multiple.flatMap e.overlapping
        else [])) := by
  refine .state_bind fun s hs => ?_
  obtain ⟨rfl, rfl⟩ := Prod.mk.inj hs
  refine .ite (fun on : s.evidence.settings.reapMultiple.holds = true => ?_)
    fun off : ¬ s.evidence.settings.reapMultiple.holds = true => ?_
  · rw [if_pos on]
    exact yields_marks fun group _ l => yields_judgeGroup group
  · rw [if_neg off]
    exact .pure _

theorem yields_report (b : Budget) (reason : Reason) (verdict : Bool) (pods : List Pod) :
    Yields Session.findings (report b reason verdict pods) (e, l) ()
      (e, l.markAll (if verdict then [b] else [])) := by
  refine .ite (fun found => ?_) fun clear => ?_
  · rw [if_pos found]
    exact .bind (.say _) (.bind (yields_mark b) (.bind (yields_announce b _) (yields_raise b _)))
  · rw [if_neg clear]
    exact yields_lower b reason

theorem yields_verdictOf {s : Session} (b : Budget) (pods : List Pod) (reason : Reason) :
    Yields Session.findings (verdictOf s b pods reason) (e, l) (s.evidence.finds b pods reason)
      (e, l) := by
  have given {ε : Type} (words : ε → Failure) (r : Except ε Bool) :
      Yields Session.findings (ofExcept words r) (e, l) (affirms r) (e, l) :=
    .ofExcept fun _ h => by rw [h, affirms]
  cases reason with
  | blocking =>
      refine .ite (fun on => ?_) fun off => ?_
      · refine yields_specOf_bind fun spec hs => ?_
        simp only [Evidence.finds, Session.evidence, on, hs, Bool.true_and, Option.any_some]
        exact given _ _
      · simp only [Evidence.finds, Session.evidence, off, Bool.false_and]
        exact .done _
  | crashLoop =>
      refine .ite (fun on => ?_) fun off => ?_
      · simp only [Evidence.finds, Session.evidence, on, Bool.true_and]
        exact given _ _
      · simp only [Evidence.finds, Session.evidence, off, Bool.false_and]
        exact .done _
  | notReady =>
      refine .ite (fun on => ?_) fun off => ?_
      · simp only [Evidence.finds, Session.evidence, on, Bool.true_and]
        exact given _ _
      · simp only [Evidence.finds, Session.evidence, off, Bool.false_and]
        exact .done _
  | deleted | multiple => exact .done _

theorem yields_check (space : Option String) (b : Budget) :
    Yields Session.findings (check space b) (e, l) () (e, l.markAll (e.offences space b)) := by
  rw [check_eq]
  refine .state_bind fun s hs => ?_
  obtain ⟨rfl, rfl⟩ := Prod.mk.inj hs
  refine .bind (.say _) (.bind (yields_selectedPods space b) ?_)
  exact yields_marks fun reason _ l => .bind (yields_verdictOf b _ reason) (yields_report b _ _ _)

theorem yields_checkBlocking :
    Yields Session.findings checkBlocking (e, l) ()
      (e, l.markAll (l.blocking.flatMap fun g => g.2.flatMap (e.offences g.1))) := by
  refine .state_bind fun s hs => ?_
  obtain ⟨rfl, rfl⟩ := Prod.mk.inj hs
  exact yields_marks fun group _ l => yields_marks fun b _ l => yields_check group.1 b

theorem yields_tellExcluded (budgets : List Budget) (seen : List (Option String)) :
    Yields Session.findings (tellExcluded seen budgets) (e, l) () (e, l) := by
  induction budgets generalizing seen with
  | nil => exact .done ()
  | cons b rest ih =>
      refine yields_metadataOf_bind fun m _ => .bind yields_settings ?_
      refine .ofExcept_bind fun excluded _ => ?_
      exact .ite (fun _ => .bind (.say _) (ih _)) fun _ => ih seen

theorem yields_post (change : Ledger → Ledger) :
    Yields Session.findings (post change) (e, l) () (e, change l) := by
  refine .update fun s hs => ?_
  obtain ⟨rfl, rfl⟩ := Prod.mk.inj hs
  rfl

theorem yields_sort (space : Option String) (b : Budget) :
    Yields Session.findings (sort space b) (e, l) ()
      (e, (if b.isBlocking then [(space, b)] else []).foldl
        (fun l entry => l.block entry.1 entry.2) l) := by
  refine .ite (fun blocks => ?_) fun moves => ?_
  · rw [if_pos blocks]
    exact .bind (yields_post (·.block space b)) (yields_lower b _)
  · rw [if_neg moves]
    exact .say _

/-- What the scan does group by group. -/
theorem yields_sortGroup (group : Option String × List Budget) :
    Yields Session.findings (forEach (sort group.1) group.2) (e, l) ()
      (e, (group.2.flatMap fun b => if b.isBlocking then [(group.1, b)] else []).foldl
        (fun l entry => l.block entry.1 entry.2) l) :=
  .forEach (g := fun l => (e, l)) (fun b _ _ => yields_sort group.1 b) l

/-- The scan adds to a ledger what it enters. -/
theorem yields_scan_onto (l : Ledger) :
    Yields Session.findings scan (e, l) () (e, e.entered l) := by
  refine .bind yields_listBudgets (.bind (yields_tellExcluded e.budgets []) ?_)
  refine .bind yields_settings (.bind (yields_post (·.group (severalOf e.groups))) ?_)
  exact .forEach (g := fun l => (e, l)) (fun group _ _ => yields_sortGroup group) _

end Pass

end BudgetReaper
