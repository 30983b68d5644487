import BudgetReaper.Proofs.Reaping.Alike
import BudgetReaper.Proofs.Reaping.Course

/-!
# Reaping — excluded namespaces are invisible

Two sessions are *veiled* from each other when they differ in the budgets of namespaces that are
left alone, and in nothing else (`Veiled`).  Such budgets may be many, may be malformed, and may
stand anywhere in the list.

The scan is the one place where the lists are read as they are.  It ends alike, since what is left
alone is always admitted, and it enters the same groups; from there on the two runs meet with the
same answers.  A deletion looks its key up among all budgets, but no key of a watched namespace is
that of a budget left alone.

**Invisibility** (`invisible_excluded`).  Two runs of veiled sessions differ only in the warnings
that a namespace is left alone.  No other call than the listing of all budgets, and no sample, is
about such a namespace.
-/

namespace BudgetReaper

/-- The warning that a namespace is left alone. -/
def Effect.isExclusion : Effect → Bool
  | notice (.excluded _) => true
  | _ => false

/-- The session with another list of budgets. -/
def Session.withBudgets (s : Session) (budgets : List Budget) : Session :=
  { s with cluster := { s.cluster with budgets } }

namespace Settings

variable {st : Settings} {b : Budget}

theorem leavesAlone_iff : st.leavesAlone b = true ↔
    ∃ m, b.metadata = some m ∧ st.isExcluded (.ofText? m.space) = .ok true := by
  simp only [leavesAlone, Option.any_eq_true]
  refine exists_congr fun m => and_congr_right fun _ => ?_
  cases st.isExcluded (.ofText? m.space) with
  | error f => simp [affirms]
  | ok excluded => simp [affirms]

/-- The scan enters nothing of what is left alone. -/
theorem groupsOf_attended (st : Settings) (budgets : List Budget) :
    groupsOf st (st.attended budgets) = groupsOf st budgets := by
  rw [groupsOf, groupsOf, attended, List.filterMap_filter]
  refine congrArg (fun f => groupBySpace (budgets.filterMap f)) (funext fun b => ?_)
  cases hb : st.leavesAlone b with
  | false => rfl
  | true =>
      obtain ⟨m, hm, excluded⟩ := leavesAlone_iff.mp hb
      simp [visible?, hm, excluded]

/-! ### Deletions beside what is left alone -/

/-- What is left alone has metadata. -/
theorem isNamed_attended (st : Settings) (budgets : List Budget) :
    ((st.attended budgets).all fun b => b.metadata.isSome) =
      budgets.all fun b => b.metadata.isSome := by
  rw [attended, List.all_filter]
  refine congrArg (budgets.all ·) (funext fun b => ?_)
  cases hb : st.leavesAlone b with
  | false => rfl
  | true =>
      obtain ⟨m, hm, -⟩ := leavesAlone_iff.mp hb
      rw [hm]
      rfl

/-- No key of a watched namespace is that of a budget left alone. -/
theorem holds_attended {key : Key} (watched : st.isExcluded (.ofText? key.1) = .ok false)
    (budgets : List Budget) :
    ((st.attended budgets).any fun b => b.key? == some key) =
      budgets.any fun b => b.key? == some key := by
  rw [attended, List.any_filter]
  refine congrArg (budgets.any ·) (funext fun b => ?_)
  cases hb : st.leavesAlone b with
  | false => rfl
  | true =>
      obtain ⟨m, hm, excluded⟩ := leavesAlone_iff.mp hb
      have apart : b.key? ≠ some key := by
        intro own
        rw [Budget.key?, hm] at own
        obtain rfl : m.key = key := Option.some.inj own
        cases excluded.symm.trans watched
      rw [beq_eq_false_iff_ne.mpr apart]
      rfl

/-- Taking budgets away and passing over those left alone may be done in either order. -/
theorem attended_filter (st : Settings) (p : Budget → Bool) (budgets : List Budget) :
    st.attended (budgets.filter p) = (st.attended budgets).filter p := by
  rw [attended, attended, List.filter_filter, List.filter_filter]
  exact congrArg (budgets.filter ·) (funext fun b => Bool.and_comm _ _)

end Settings

namespace Pass

open BudgetReaper.Action

/-- Two sessions differ in budgets that are left alone only. -/
def Veiled (st : Settings) (s t : Session) : Prop :=
  s.settings = st ∧
    ∃ bs, t = s.withBudgets bs ∧ st.attended bs = st.attended s.cluster.budgets

variable {st : Settings}

/-- What is left alone makes no difference to the answers. -/
theorem twins_veiled (st : Settings) : Twins (Veiled st) where
  settings := by
    rintro s _ ⟨-, bs, rfl, -⟩
    exact ⟨s.settings.dryRun, rfl⟩
  now := by
    rintro s _ ⟨-, bs, rfl, -⟩
    rfl
  ledger := by
    rintro s _ ⟨-, bs, rfl, -⟩
    rfl
  sink := by
    rintro s _ ⟨-, bs, rfl, -⟩
    rfl
  planned := by
    rintro s _ ⟨-, bs, rfl, -⟩ call
    rfl
  listings := by
    rintro s _ ⟨-, bs, rfl, -⟩
    rfl
  post := by
    rintro change s _ ⟨own, bs, rfl, same⟩
    exact ⟨own, bs, rfl, same⟩
  counted := by
    rintro s _ ⟨own, bs, rfl, same⟩ call
    exact ⟨own, bs, rfl, same⟩
  sampled := by
    rintro s _ ⟨own, bs, rfl, same⟩ sample
    exact ⟨own, bs, rfl, same⟩

/-- Effects other than the warnings of namespaces left alone. -/
def unveiled (e : Effect) : Bool :=
  !e.isExclusion

theorem alike_veiled (st : Settings) : Alike (Veiled st) unveiled :=
  (twins_veiled st).alike

/-! ### The scan -/

/-- Going through either list ends alike and shows nothing. -/
theorem Veiled.match_tellExcluded {s t : Session} (h : Veiled st s t) {bs bs' : List Budget}
    (same : st.attended bs' = st.attended bs) :
    Outcome.Match (Veiled st) unveiled (tellExcluded [] bs s) (tellExcluded [] bs' t) := by
  obtain ⟨rfl, other, rfl, listed⟩ := h
  obtain ⟨result, state, notices⟩ := tellExcluded_apply [] bs s
  obtain ⟨result', state', notices'⟩ := tellExcluded_apply [] bs' (s.withBudgets other)
  have silent {l : List Effect} (told : ∀ e ∈ l, ∃ space, e = .notice (.excluded space)) :
      l.filter unveiled = [] := by
    refine List.filter_eq_nil_iff.mpr fun e he => ?_
    obtain ⟨space, rfl⟩ := told e he
    exact Bool.false_ne_true
  refine ⟨?_, ?_, ?_⟩
  · rw [result, result', ← Settings.admission_attended _ bs, ← same]
    exact Settings.admission_attended s.settings bs'
  · rw [state, state']
    exact ⟨rfl, other, rfl, listed⟩
  · rw [silent notices, silent notices']

theorem Veiled.match_sortOut {s t : Session} (h : Veiled st s t) {bs bs' : List Budget}
    (same : st.attended bs' = st.attended bs) :
    Outcome.Match (Veiled st) unveiled (sortOut bs s) (sortOut bs' t) := by
  refine (h.match_tellExcluded same).bind fun _ _ => ?_
  rw [(tellExcluded_apply [] bs s).2.1, (tellExcluded_apply [] bs' t).2.1, settings_bind_apply,
    settings_bind_apply]
  obtain ⟨rfl, other, rfl, listed⟩ := h
  have groups : groupsOf s.settings bs' = groupsOf s.settings bs := by
    rw [← Settings.groupsOf_attended _ bs', same, Settings.groupsOf_attended]
  change Outcome.Match _ _ _ (enter (groupsOf s.settings bs') _)
  rw [groups]
  exact (alike_veiled s.settings).enter _ _ _ ⟨rfl, other, rfl, listed⟩

theorem Veiled.lockstep_scan : Lockstep (Veiled st) unveiled scan scan := by
  rintro s _ ⟨rfl, bs, rfl, same⟩
  have counted : Veiled s.settings (s.counted .listAll) ((s.withBudgets bs).counted .listAll) :=
    ⟨rfl, bs, rfl, same⟩
  cases hp : s.cluster.planned .listAll with
  | some f =>
      have hp' : (s.withBudgets bs).cluster.planned .listAll = some f := hp
      rw [scan_of_planned hp, scan_of_planned hp']
      exact ⟨rfl, counted, rfl⟩
  | none =>
      have hp' : (s.withBudgets bs).cluster.planned .listAll = none := hp
      have sorted := counted.match_sortOut same
      rw [scan_of_listed hp, scan_of_listed hp']
      exact ⟨sorted.result, sorted.state, congrArg (Effect.call .listAll :: ·) sorted.trace⟩

/-! ### Deletion -/

theorem answerToDelete_withBudgets {s : Session} {bs : List Budget}
    (same : s.settings.attended bs = s.settings.attended s.cluster.budgets) {key : Key}
    (watched : s.settings.isExcluded (.ofText? key.1) = .ok false) :
    (s.withBudgets bs).cluster.answerToDelete key =
      (s.cluster.answerToDelete key).map fun c =>
        { c with budgets := bs.filter fun b => b.key? != some key } := by
  have named : (bs.all fun b => b.metadata.isSome) =
      s.cluster.budgets.all fun b => b.metadata.isSome := by
    rw [← Settings.isNamed_attended s.settings bs, same, Settings.isNamed_attended]
  have held : (bs.any fun b => b.key? == some key) =
      s.cluster.budgets.any fun b => b.key? == some key := by
    rw [← Settings.holds_attended watched bs, same, Settings.holds_attended watched]
  have planned : (s.withBudgets bs).cluster.planned (.delete key) =
      s.cluster.planned (.delete key) := rfl
  rw [Cluster.answerToDelete, Cluster.answerToDelete, planned]
  cases s.cluster.planned (.delete key) with
  | some f => rfl
  | none =>
      simp only [Cluster.delete, Cluster.isNamed, Cluster.holds]
      change (if !(bs.all _) then _ else if bs.any _ then _ else _) =
        (if !(s.cluster.budgets.all _) then _ else if s.cluster.budgets.any _ then _ else _ :
          Except Fault Cluster).map _
      rw [named, held]
      split
      · rfl
      · split
        · rfl
        · rfl

theorem Veiled.lockstep_deleteBudget {key : Key}
    (watched : st.isExcluded (.ofText? key.1) = .ok false) :
    Lockstep (Veiled st) unveiled (deleteBudget key) (deleteBudget key) := by
  rintro s _ ⟨rfl, bs, rfl, same⟩
  rw [deleteBudget_apply, deleteBudget_apply, answerToDelete_withBudgets same watched]
  cases ha : s.cluster.answerToDelete key with
  | error f => exact ⟨rfl, ⟨rfl, bs, rfl, same⟩, rfl⟩
  | ok c =>
      refine ⟨rfl, ⟨rfl, bs.filter fun b => b.key? != some key, rfl, ?_⟩, rfl⟩
      rw [Cluster.answerToDelete_eq_ok ha]
      change s.settings.attended _ = s.settings.attended (s.cluster.budgets.filter _)
      rw [Settings.attended_filter, Settings.attended_filter, same]

/-! ### Whole runs -/

theorem Veiled.lockstep_detect : Lockstep (Veiled st) unveiled detect detect := by
  refine (alike_veiled st).detect ?_ Veiled.lockstep_scan
  rintro s _ ⟨rfl, bs, rfl, same⟩
  exact .say _

/-- Runs of veiled sessions match. -/
theorem match_execute {s : Session} (fresh : s.ledger = {}) {bs : List Budget}
    (same : s.settings.attended bs = s.settings.attended s.cluster.budgets) :
    Outcome.Match (Veiled s.settings) unveiled (execute s) (execute (s.withBudgets bs)) := by
  have read : Lockstep (Veiled s.settings) unveiled settings settings := by
    rintro s _ ⟨own, bs, rfl, same⟩
    exact ⟨rfl, ⟨own, bs, rfl, same⟩, rfl⟩
  have summarized : Lockstep (Veiled s.settings) unveiled summarize summarize := by
    refine .state_bind ?_
    rintro s _ ⟨own, bs, rfl, same⟩
    exact .say _
  have detected := Veiled.lockstep_detect s (s.withBudgets bs) ⟨rfl, bs, rfl, same⟩
  rw [execute_eq]
  refine detected.bind fun _ past => ?_
  refine (alike_veiled s.settings).conclude read summarized detected.state fun entry he => ?_
  obtain ⟨m, attends, own⟩ := attends_of_mem_detect fresh past he
  exact Veiled.lockstep_deleteBudget (own ▸ attends.watched)

/-- Two runs of which the second has other budgets in namespaces that are left alone. -/
structure Invisible (s t : Session) : Prop where
  /-- The runs end alike. -/
  result : (execute t).result = (execute s).result
  /-- The namespaces with several budgets, the blocking budgets, those marked and those deleted are
  the same. -/
  ledger : (execute t).state.ledger = (execute s).state.ledger
  /-- The calls are the same. -/
  calls : (execute t).calls = (execute s).calls
  /-- The samples are the same. -/
  samples : (execute t).samples = (execute s).samples
  /-- All that is seen is the same in the same order, but for the warnings of namespaces left
  alone. -/
  trace : (execute t).trace.filter (!·.isExclusion) = (execute s).trace.filter (!·.isExclusion)
  /-- Every call but the listing of all budgets is about a namespace that is not left alone. -/
  called : ∀ call ∈ (execute t).calls, call ≠ .listAll →
    t.settings.isExcluded (.ofText? call.space?) = .ok false
  /-- Every sample is of a namespace that is not left alone. -/
  sampled : ∀ sample ∈ (execute t).samples,
    t.settings.isExcluded (.ofText? sample.key.1) = .ok false

/-- A call of a run from an empty ledger is about a namespace that is not left alone. -/
theorem watches_of_mem_calls {s : Session} (fresh : s.ledger = {}) {call : Call}
    (h : call ∈ (execute s).calls) (narrow : call ≠ .listAll) :
    s.evidence.Watches call.space? := by
  have concerns := concerns_execute fresh _ (Outcome.mem_calls.mp h)
  cases call with
  | listAll => exact absurd rfl narrow
  | listIn space => exact concerns.elim
  | listPods space selector => exact concerns
  | delete key =>
      obtain ⟨b, m, attends, rfl⟩ := concerns
      exact attends.watched
  | createEvent space event =>
      obtain ⟨b, m, attends, rfl, -⟩ := concerns
      exact attends.watched

/-- Budgets of excluded namespaces make no difference to a run, whatever they are. -/
theorem invisible_excluded {s : Session} (fresh : s.ledger = {}) {bs : List Budget}
    (same : s.settings.attended bs = s.settings.attended s.cluster.budgets) :
    Invisible s (s.withBudgets bs) := by
  have runs := match_execute fresh same
  refine ⟨runs.result.symm, ?_, ?_, ?_, runs.trace.symm, ?_, ?_⟩
  · exact (alike_veiled s.settings).ledger runs.state
  · exact (runs.calls_eq fun _ => rfl).symm
  · exact (runs.samples_eq fun _ => rfl).symm
  · exact fun call hc narrow => watches_of_mem_calls (s := s.withBudgets bs) fresh hc narrow
  · intro sample hs
    obtain ⟨b, m, attends, own⟩ :=
      concerns_execute (s := s.withBudgets bs) fresh _ (Outcome.mem_samples.mp hs)
    rw [own]
    exact attends.watched

/-- A budget of an excluded namespace with neither a spec nor a status. -/
def bareBudget : Budget where
  apiVersion := none
  kind := none
  metadata := some
    { name := none, space := some "kube-system", uid := none, version := none, generation := none,
      labels := none, annotations := none, created := none, finalizers := none }
  spec := none
  status := none

/-- The budgets of the shop among others of an excluded namespace. -/
def crowdedShop : List Budget :=
  [bareBudget, blockingBudget "shop" "web" 0, blockingBudget "kube-system" "proxy" 0,
    blockingBudget "shop" "api" 1, bareBudget]

/-- In the shop, budgets added to the excluded namespace change nothing, and both budgets of the
shop are deleted. -/
theorem invisible_excluded_shop :
    (shop Cluster.faultless .absent).ledger = {} ∧
      (shop Cluster.faultless .absent).settings.attended crowdedShop =
        (shop Cluster.faultless .absent).settings.attended
          (shop Cluster.faultless .absent).cluster.budgets ∧
      (execute ((shop Cluster.faultless .absent).withBudgets crowdedShop)).state.ledger.reaped =
        ["shop/web", "shop/api"] ∧
      Invisible (shop Cluster.faultless .absent)
        ((shop Cluster.faultless .absent).withBudgets crowdedShop) :=
  ⟨rfl, by rfl, by rfl, invisible_excluded rfl (by rfl)⟩

end Pass

end BudgetReaper
