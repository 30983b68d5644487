import BudgetReaper.Proofs.Action.Lockstep
import BudgetReaper.Proofs.Reaping.Admission
import BudgetReaper.Proofs.Reaping.Removal

/-!
# Reaping — runs that go alike

Two sessions may differ and still lead to the same run, as far as it is seen.  `Alike R seen` lists
what a relation between sessions has to give for that: the settings that detection reads, the clock
and the ledger are the same, and each listing of pods and each signal takes related sessions to
related ones with the same result and the same effects seen.

From these steps the phases run in lockstep.  The relation has to say for itself how the scan begins
(`Alike.scan`, `Alike.detect`), and how budgets are deleted (`Alike.remove`, `Alike.conclude`).
Related sessions that meet with the same answers (`Twins`) go alike whatever is seen.
-/

namespace BudgetReaper

namespace Pass

open BudgetReaper.Action

/-- What related sessions have in common, so that marking runs in lockstep from them. -/
structure Alike (R : Session → Session → Prop) (seen : Effect → Bool) : Prop where
  settings : ∀ {s t}, R s t → ∃ v, t.settings = { s.settings with dryRun := v }
  now : ∀ {s t}, R s t → t.now = s.now
  ledger : ∀ {s t}, R s t → t.ledger = s.ledger
  post : ∀ (change : Ledger → Ledger) {s t}, R s t →
    R { s with ledger := change s.ledger } { t with ledger := change t.ledger }
  listPods : ∀ space selector,
    Lockstep R seen (listPods space selector) (listPods space selector)
  announce : ∀ b reason, Lockstep R seen (announce b reason) (announce b reason)
  raise : ∀ b reason, Lockstep R seen (raise b reason) (raise b reason)
  lower : ∀ b reason, Lockstep R seen (lower b reason) (lower b reason)

namespace Alike

variable {R : Session → Session → Prop} {seen : Effect → Bool}

/-! ### Steps -/

theorem metadataOf (b : Budget) : Lockstep R seen (metadataOf b) (metadataOf b) := by
  unfold Pass.metadataOf
  cases b.metadata with
  | none => exact .fail _
  | some m => exact .done m

theorem specOf (b : Budget) (field : String) :
    Lockstep R seen (specOf b field) (specOf b field) := by
  unfold Pass.specOf
  cases b.spec with
  | none => exact .fail _
  | some spec => exact .done spec

theorem mark (alike : Alike R seen) (b : Budget) : Lockstep R seen (mark b) (mark b) :=
  .bind (metadataOf b) fun m => .update fun _ _ => alike.post (·.mark m.key b)

theorem selectedPods (alike : Alike R seen) (space : Option String) (b : Budget) :
    Lockstep R seen (selectedPods space b) (selectedPods space b) := by
  refine .bind (specOf b _) fun spec => .bind (.ofExcept _ _) fun selector => ?_
  exact .bind (alike.listPods space selector) fun pods => .bind (.say _) fun _ => .pure pods

/-- What reads the settings goes on with the same ones, but for the switch for a dry run. -/
theorem settings_bind {α : Type} {next : Settings → Pass α} (alike : Alike R seen)
    (h : ∀ st v, Lockstep R seen (next st) (next { st with dryRun := v })) :
    Lockstep R seen (Pass.settings >>= next) (Pass.settings >>= next) := by
  refine .state_bind fun s t hR => ?_
  obtain ⟨v, hv⟩ := alike.settings hR
  rw [hv]
  exact h s.settings v

/-! ### Detection -/

theorem tellExcluded (alike : Alike R seen) (budgets : List Budget)
    (told : List (Option String)) :
    Lockstep R seen (tellExcluded told budgets) (tellExcluded told budgets) := by
  induction budgets generalizing told with
  | nil => exact .done ()
  | cons b rest ih =>
      refine .bind (metadataOf b) fun m => alike.settings_bind fun st v => ?_
      refine .bind (.ofExcept _ _) fun excluded => .ite ?_ (ih told)
      exact .bind (.say _) fun _ => ih (m.space :: told)

theorem sort (alike : Alike R seen) (space : Option String) (b : Budget) :
    Lockstep R seen (sort space b) (sort space b) := by
  refine .ite (.bind (.update fun _ _ => alike.post (·.block space b)) fun _ => ?_) (.say _)
  exact alike.lower b .deleted

theorem enter (alike : Alike R seen) (groups : List (Option String × List Budget)) :
    Lockstep R seen (enter groups) (enter groups) := by
  refine .bind (.update fun _ _ => alike.post (·.group (severalOf groups))) fun _ => ?_
  exact .forEach fun group _ => .forEach fun b _ => alike.sort group.1 b

/-- The scan runs in lockstep if the listing does. -/
theorem scan (alike : Alike R seen)
    (listed : Lockstep R seen (listBudgets "") (listBudgets "")) : Lockstep R seen scan scan := by
  refine .bind listed fun budgets => .bind (alike.tellExcluded budgets []) fun _ => ?_
  -- the groups do not depend on the switch for a dry run
  exact alike.settings_bind fun st v => alike.enter (groupsOf st budgets)

theorem judgeGroup (alike : Alike R seen) (group : Option String × List Budget) :
    Lockstep R seen (judgeGroup group) (judgeGroup group) := by
  refine .bind (.gather fun b _ => .bind (.say _) fun _ => alike.selectedPods group.1 b)
    fun pods => .ite ?_ (.forEach fun b _ => alike.lower b .multiple)
  refine .bind (.say _) fun _ => .bind (.forEach fun b _ => alike.mark b) fun _ => ?_
  exact .forEach fun b _ => .bind (alike.announce b .multiple) fun _ => alike.raise b .multiple

theorem markOverlapping (alike : Alike R seen) :
    Lockstep R seen markOverlapping markOverlapping := by
  refine .state_bind fun s t hR => ?_
  obtain ⟨v, hv⟩ := alike.settings hR
  rw [hv, alike.ledger hR]
  exact .ite (.forEach fun group _ => alike.judgeGroup group) (.pure ())

theorem report (alike : Alike R seen) (b : Budget) (reason : Reason) (verdict : Bool)
    (pods : List Pod) :
    Lockstep R seen (report b reason verdict pods) (report b reason verdict pods) := by
  refine .ite (.bind (.say _) fun _ => .bind (alike.mark b) fun _ => ?_) (alike.lower b reason)
  exact .bind (alike.announce b reason) fun _ => alike.raise b reason

/-- A verdict depends on the settings and the clock. -/
theorem verdictOf (alike : Alike R seen) {s t : Session} (hR : R s t) (b : Budget)
    (pods : List Pod) (reason : Reason) :
    Lockstep R seen (verdictOf s b pods reason) (verdictOf t b pods reason) := by
  obtain ⟨v, hv⟩ := alike.settings hR
  cases reason with
  | blocking =>
      simp only [Pass.verdictOf, hv]
      exact .ite (.bind (specOf b _) fun _ => .ofExcept _ _) (.done _)
  | crashLoop =>
      simp only [Pass.verdictOf, hv]
      exact .ite (.ofExcept _ _) (.done _)
  | notReady =>
      simp only [Pass.verdictOf, hv, alike.now hR]
      exact .ite (.ofExcept _ _) (.done _)
  | deleted | multiple => exact .done _

theorem check (alike : Alike R seen) (space : Option String) (b : Budget) :
    Lockstep R seen (check space b) (check space b) := by
  rw [check_eq]
  -- the verdicts read the session that the check began with, one of each run
  refine .state_bind fun s t hR => .bind (.say _) fun _ => ?_
  refine .bind (alike.selectedPods space b) fun pods => .forEach fun reason _ => ?_
  exact .bind (alike.verdictOf hR b pods reason) fun verdict => alike.report b reason verdict _

theorem checkBlocking (alike : Alike R seen) : Lockstep R seen checkBlocking checkBlocking := by
  refine .state_bind fun s t hR => ?_
  rw [alike.ledger hR]
  exact .forEach fun group _ => .forEach fun b _ => alike.check group.1 b

/-- Detection runs in lockstep from related sessions if its beginning does. -/
theorem detect (alike : Alike R seen)
    (started : ∀ {s t}, R s t → Lockstep R seen (say (.runStarted s.runId s.settings.dryRun))
      (say (.runStarted t.runId t.settings.dryRun)))
    (scanned : Lockstep R seen Pass.scan Pass.scan) : Lockstep R seen detect detect := by
  refine .state_bind fun s t hR => .bind (started hR) fun _ => .bind (.rephrase scanned _) ?_
  exact fun _ => .bind (.rephrase alike.markOverlapping _) fun _ =>
    .rephrase alike.checkBlocking _

/-! ### Deletion -/

/-- A removal runs in lockstep if the deletion does. -/
theorem remove (alike : Alike R seen) (read : Lockstep R seen Pass.settings Pass.settings)
    {entry : Key × Budget}
    (deleted : Lockstep R seen (deleteBudget entry.1) (deleteBudget entry.1)) :
    Lockstep R seen (remove entry) (remove entry) := by
  refine .bind (.say _) fun _ => .bind (.say _) fun _ => .bind read fun st => .ite (.say _) ?_
  refine .bind deleted fun gone => .ite (.bind (.say _) fun _ => ?_) (.say _)
  refine .bind (alike.announce entry.2 .deleted) fun _ => ?_
  exact .bind (.update fun _ _ => alike.post (·.reap entry.1.text)) fun _ =>
    alike.raise entry.2 .deleted

/-- Conclusions match if the deletions of what is marked run in lockstep, and the summary does. -/
theorem conclude (alike : Alike R seen) (read : Lockstep R seen Pass.settings Pass.settings)
    (summarized : Lockstep R seen summarize summarize) {s t : Session} (hR : R s t)
    (deleted : ∀ entry ∈ s.ledger.reapable,
      Lockstep R seen (deleteBudget entry.1) (deleteBudget entry.1)) :
    Outcome.Match R seen (conclude s) (conclude t) := by
  have removal : Lockstep R seen (forEach Pass.remove s.ledger.reapable)
      (forEach Pass.remove t.ledger.reapable) := by
    rw [alike.ledger hR]
    exact .forEach fun entry he => alike.remove read (deleted entry he)
  exact Lockstep.bind (.rephrase removal _) (fun _ => summarized) s t hR

end Alike

/-! ### Sessions with the same answers -/

/-- Related sessions meet with the same answers and leave related ones. -/
structure Twins (R : Session → Session → Prop) : Prop where
  settings : ∀ {s t}, R s t → ∃ v, t.settings = { s.settings with dryRun := v }
  now : ∀ {s t}, R s t → t.now = s.now
  ledger : ∀ {s t}, R s t → t.ledger = s.ledger
  sink : ∀ {s t}, R s t → t.sink = s.sink
  planned : ∀ {s t}, R s t → ∀ call, t.cluster.planned call = s.cluster.planned call
  listings : ∀ {s t}, R s t → t.cluster.listings = s.cluster.listings
  post : ∀ (change : Ledger → Ledger) {s t}, R s t →
    R { s with ledger := change s.ledger } { t with ledger := change t.ledger }
  counted : ∀ {s t}, R s t → ∀ call, R (s.counted call) (t.counted call)
  sampled : ∀ {s t}, R s t → ∀ sample, R (s.sampled sample) (t.sampled sample)

namespace Twins

variable {R : Session → Session → Prop} {seen : Effect → Bool}

theorem announce (twins : Twins R) (b : Budget) (reason : Reason) :
    Lockstep R seen (announce b reason) (announce b reason) := by
  intro s t hR
  rw [announce_apply, announce_apply, twins.now hR]
  split
  · exact ⟨rfl, hR, rfl⟩
  · next event _ =>
      rw [twins.planned hR]
      split
      · exact ⟨rfl, twins.counted hR _, rfl⟩
      · split
        · exact ⟨rfl, twins.counted hR _, rfl⟩
        · exact ⟨rfl, twins.counted hR _, rfl⟩

theorem tally (twins : Twins R) (b : Budget) (reason : Reason) (value : Value) :
    Lockstep R seen (tally b reason value) (tally b reason value) := by
  intro s t hR
  rw [tally_apply, tally_apply, twins.sink hR]
  split
  · split
    · exact ⟨rfl, hR, rfl⟩
    · split
      · exact ⟨rfl, twins.sampled hR _, rfl⟩
      · split
        · exact ⟨rfl, twins.sampled hR _, rfl⟩
        · exact ⟨rfl, twins.sampled hR _, rfl⟩
  · exact ⟨rfl, hR, rfl⟩

theorem listPods (twins : Twins R) (space : Option String) (selector : String) :
    Lockstep R seen (listPods space selector) (listPods space selector) := by
  intro s t hR
  rw [listPods_apply, listPods_apply, twins.planned hR, Cluster.podsOf, Cluster.podsOf,
    twins.listings hR]
  exact ⟨rfl, twins.counted hR _, rfl⟩

/-- Sessions with the same answers go alike, whatever is seen. -/
theorem alike (twins : Twins R) : Alike R seen where
  settings := twins.settings
  now := twins.now
  ledger := twins.ledger
  post := twins.post
  listPods := twins.listPods
  announce := twins.announce
  raise b reason := twins.tally b reason (.int 1)
  lower b reason := twins.tally b reason (.int 0)

end Twins

end Pass

end BudgetReaper
