import BudgetReaper.Proofs.Misconfiguration
import BudgetReaper.Proofs.Reaping.Refusal
import BudgetReaper.Proofs.Reaping.Tractable

/-!
# Reaping — how a run may fail

A session is *regular* when its settings are of their own kinds, its clock has a zone, every budget
that it can meet has metadata and a spec, and calls and samples fail as a cluster and a sink do
(`Session.Regular`).  What a budget demands and what its pods report is arbitrary.

**Contained** (`contained`).  A run of a regular session that fails is aborted, with one exception: a
blocking budget whose bound is a percentage too large for its pods ends the run with a failure that is
not the program's own (`Evidence.Ends`).  The settings are needed as they are: a namespace is looked up
in whatever is excluded, and a threshold is compared.
-/

namespace BudgetReaper

/-- The budget has metadata and a spec. -/
structure Budget.Whole (b : Budget) : Prop where
  metadata : b.metadata ≠ none
  spec : b.spec ≠ none

/-- The budgets of a ledger are whole. -/
structure Ledger.Whole (l : Ledger) : Prop where
  multiple : ∀ x ∈ entriesOf l.multiple, x.2.Whole
  blocking : ∀ x ∈ entriesOf l.blocking, x.2.Whole
  reapable : ∀ entry ∈ l.reapable, entry.2.Whole

/-- A session in which nothing is of an unforeseen kind.  The integers of its budgets need no bound: what
was listed has a text that can be written (`Budget.dump`). -/
structure Session.Regular (s : Session) : Prop where
  excluded : ∃ spaces, s.settings.excludedSpaces = .texts spaces
  restarts : ∃ n, s.settings.crashLoopThreshold = .int n
  seconds : ∃ n, s.settings.notReadySeconds = .int n
  zoned : s.now.offset ≠ none
  listed : ∀ b ∈ s.cluster.budgets, b.Whole
  ledger : s.ledger.Whole
  remote : s.cluster.plan.Remote
  lenient : s.sink.Lenient

/-- The bound that decides about the budget is a percentage whose share of `podCount` pods is beyond
the doubles. -/
def Budget.Overflows (b : Budget) (podCount : Nat) : Prop :=
  ∃ spec bound, b.spec = some spec ∧ spec.deciding = .ok (some bound) ∧ bound.Overflows podCount

/-- How a run that has begun with the ledger `l` may fail. -/
inductive Evidence.Ends (e : Evidence) (l : Ledger) : Failure → Prop
  | aborted (phase : Phase) (cause : Failure) : Ends e l (.aborted phase cause)
  /-- A blocking budget is checked, and the share of its pods is beyond the doubles. -/
  | overflow {x : Option String × Budget} (on : e.settings.reapMisconfigured.holds = true)
      (blocking : x ∈ entriesOf (e.entered l).blocking)
      (overflows : x.2.Overflows (e.selected x.1 x.2).length) :
      Ends e l (.value (.number .quotientTooLarge))

/-- Every listed budget can ask for its pods, and the bound that decides about it can be read. -/
structure Evidence.Legible (e : Evidence) : Prop where
  asks : ∀ b ∈ e.budgets, b.Asks
  bounds : ∀ b ∈ e.budgets, ∀ spec, b.spec = some spec → ∃ bound?, spec.deciding = .ok bound?

/-! ### The ledger of a run -/

namespace Ledger.Whole

variable {l : Ledger}

theorem empty : Ledger.Whole {} :=
  ⟨fun _ h => (nomatch h), fun _ h => (nomatch h), fun _ h => (nomatch h)⟩

theorem group (h : l.Whole) {groups : List (Option String × List Budget)}
    (whole : ∀ g ∈ groups, ∀ b ∈ g.2, b.Whole) : (l.group groups).Whole where
  multiple x hx := by
    obtain ⟨bs, hg, hb⟩ := mem_entriesOf.mp hx
    rcases Assoc.mem_foldl_put hg with hg | hg
    · exact h.multiple x (mem_entriesOf.mpr ⟨bs, hg, hb⟩)
    · exact whole _ hg _ hb
  blocking := h.blocking
  reapable := h.reapable

theorem block (h : l.Whole) (space : Option String) {b : Budget} (whole : b.Whole) :
    (l.block space b).Whole where
  multiple := h.multiple
  blocking x hx := by
    rcases List.mem_append.mp ((perm_entriesOf_push ..).mem_iff.mp hx) with hx | hx
    · exact h.blocking x hx
    · obtain rfl := List.mem_singleton.mp hx
      exact whole
  reapable := h.reapable

theorem blockAll (h : l.Whole) {entries : List (Option String × Budget)}
    (whole : ∀ x ∈ entries, x.2.Whole) :
    (entries.foldl (fun l x => l.block x.1 x.2) l).Whole := by
  induction entries generalizing l with
  | nil => exact h
  | cons x rest ih =>
      exact ih (h.block x.1 (whole x (List.mem_cons_self ..)))
        fun y hy => whole y (List.mem_cons_of_mem _ hy)

theorem markAll (h : l.Whole) {bs : List Budget} (whole : ∀ b ∈ bs, b.Whole) :
    (l.markAll bs).Whole := by
  rw [markAll_eq]
  refine ⟨h.multiple, h.blocking, fun entry he => ?_⟩
  rcases mem_markAll he with he | ⟨hb, -⟩
  · exact h.reapable entry he
  · exact whole _ hb

end Ledger.Whole

namespace Evidence

variable {e : Evidence} {l : Ledger}

/-- A scan of whole budgets leaves a whole ledger. -/
theorem whole_entered (listed : ∀ b ∈ e.budgets, b.Whole) (h : l.Whole) : (e.entered l).Whole := by
  refine (h.group fun g hg b hb => ?_).blockAll fun x hx => ?_
  · obtain ⟨-, same, -⟩ := mem_groups.mp (List.mem_filter.mp hg).1
    rw [same] at hb
    exact listed b (mem_budgetsOf.mp hb).1
  · exact listed x.2 (mem_budgetsOf.mp (mem_obstacles.mp hx).2.1).1

/-- What is marked of a whole ledger is whole. -/
theorem whole_of_mem_marked (h : (e.entered l).Whole) {b : Budget} (hb : b ∈ e.markedFrom l) :
    b.Whole := by
  rcases List.mem_append.mp hb with hb | hb
  · split at hb
    · obtain ⟨g, hg, hb⟩ := List.mem_flatMap.mp hb
      exact h.multiple (g.1, b) (mem_entriesOf.mpr ⟨g.2, hg, (mem_overlapping.mp hb).1⟩)
    · cases hb
  · obtain ⟨g, hg, hb⟩ := List.mem_flatMap.mp hb
    obtain ⟨b', hb', hb⟩ := List.mem_flatMap.mp hb
    obtain ⟨rfl, -⟩ := mem_offences.mp hb
    exact h.blocking (g.1, b) (mem_entriesOf.mpr ⟨g.2, hg, hb'⟩)

/-! ### The detection -/

/-- Budgets with metadata are admitted when what is excluded are texts. -/
theorem admission_of_whole {st : Settings} {spaces : List String}
    (excluded : st.excludedSpaces = .texts spaces) {budgets : List Budget}
    (whole : ∀ b ∈ budgets, b.Whole) : st.admission budgets = .ok () := by
  induction budgets with
  | nil => rfl
  | cons b rest ih =>
      obtain ⟨m, hm⟩ := Option.ne_none_iff_exists'.mp (whole b (List.mem_cons_self ..)).metadata
      simp only [Settings.admission, hm, Settings.isExcluded_texts excluded]
      exact ih fun b hb => whole b (List.mem_cons_of_mem _ hb)

end Evidence

/-! ### What is always told -/

section Judging

variable {now : Stamp} (zoned : now.offset ≠ none) {threshold : Value} {limit : Number}
  (number : threshold.number? = some limit)

include number

/-- The age of a time is compared with a threshold that is a number. -/
theorem isPast_of_elapsed {since : Stamp} {micros : Int} (elapsed : now.elapsed? since = some micros) :
    isPast (some since) threshold now = .ok (limit.le (.real (Stamp.seconds micros))) := by
  simp only [isPast, elapsed, Value.isAtLeast, Value.related, number]
  rfl

include zoned

/-- With a zone for the clock and a number for a threshold, it is told of a time whether it is past. -/
theorem exists_isPast (since : Option Stamp) : ∃ past, isPast since threshold now = .ok past := by
  cases since with
  | none => exact ⟨true, rfl⟩
  | some t =>
      obtain ⟨micros, elapsed⟩ :=
        Option.ne_none_iff_exists'.mp (mt (Stamp.elapsed?_eq_none_iff now t).mp zoned)
      exact ⟨_, isPast_of_elapsed number elapsed⟩

theorem exists_anyNotReady (conditions : List Condition) :
    ∃ found, anyNotReady threshold now conditions = .ok found := by
  induction conditions with
  | nil => exact ⟨false, rfl⟩
  | cons c rest ih =>
      obtain ⟨past, told⟩ := exists_isPast zoned number c.since
      obtain ⟨found, later⟩ := ih
      rw [anyNotReady, told, later]
      cases c.isNotReady <;> cases past <;> exact ⟨_, rfl⟩

theorem Pod.exists_isNotReady (p : Pod) : ∃ found, p.isNotReady threshold now = .ok found := by
  unfold Pod.isNotReady
  split
  · exact ⟨false, rfl⟩
  · exact exists_anyNotReady zoned number _

theorem exists_countNotReady (pods : List Pod) :
    ∃ count, countNotReady threshold now pods = .ok count := by
  induction pods with
  | nil => exact ⟨0, rfl⟩
  | cons p rest ih =>
      obtain ⟨count, later⟩ := ih
      obtain ⟨found, here⟩ := p.exists_isNotReady zoned number
      rw [countNotReady, here, later]
      exact ⟨_, rfl⟩

theorem exists_areNotReady (pods : List Pod) (mode : Mode) :
    ∃ verdict, areNotReady pods threshold mode now = .ok verdict := by
  obtain ⟨count, told⟩ := exists_countNotReady zoned number pods
  rw [areNotReady, told]
  exact ⟨_, rfl⟩

end Judging

/-! ### The detection -/

namespace Evidence

variable {e : Evidence} {l : Ledger} {f : Failure}

theorem Ends.of_reported (phase : Phase) (h : f.isReported = true) : e.Ends l (phase.wrap f) := by
  rw [Phase.wrap, if_pos h]
  exact .aborted phase f

end Evidence

namespace Pass

open BudgetReaper.Action

/-- A call that fails remotely fails as the program knows it. -/
theorem reported_of_remote {operation : Operation} {fault : Fault} (h : fault.isRemote = true) :
    (failureOf operation fault).isReported = true := by
  rw [failureOf, if_pos h]
  rfl

/-- A budget with a spec that is not given its pods fails as the program knows it. -/
theorem reported_of_lapse {p : Plan} (remote : p.Remote) {space : Option String} {b : Budget}
    (held : b.spec ≠ none) {f : Failure} {acts : List Effect} (lapse : Lapse p space b f acts) :
    f.isReported = true := by
  cases lapse with
  | query unasked =>
      unfold Budget.query at unasked
      split at unasked
      · next bare => exact absurd bare held
      · obtain ⟨fault, -, rfl⟩ := error_of_mapError unasked
        rfl
  | listing _ refused => exact reported_of_remote (remote _ _ _ refused)

/-- A check of a whole blocking budget that gives no verdict fails by its bound. -/
theorem ends_of_untold {s : Session} (regular : s.Regular) {x : Option String × Budget}
    (blocking : x ∈ entriesOf (s.evidence.entered s.ledger).blocking) (held : x.2.spec ≠ none)
    {r : Reason} {f : Failure}
    (untold : s.evidence.verdict x.2 (s.evidence.selected x.1 x.2) r = .error f) :
    s.evidence.Ends s.ledger (Phase.blocking.wrap f) := by
  cases Evidence.untold_of_error untold with
  | bare bare => exact absurd bare held
  | bound on held failed =>
      rcases Spec.isMisconfigured_eq_error_iff.mp failed with
        ⟨fault, -, rfl⟩ | ⟨b, deciding, overflows, rfl⟩
      · exact .of_reported _ rfl
      · exact .overflow on blocking ⟨_, b, held, deciding, overflows⟩
  | restarts failed =>
      obtain ⟨n, integer⟩ := regular.restarts
      change areCrashLooping _ s.settings.crashLoopThreshold _ = _ at failed
      rw [integer] at failed
      cases failed
  | clock failed =>
      obtain ⟨n, integer⟩ := regular.seconds
      change areNotReady _ s.settings.notReadySeconds _ s.now = _ at failed
      obtain ⟨verdict, told⟩ := exists_areNotReady regular.zoned (Value.number?_int n)
        (s.evidence.selected x.1 x.2) (.ofAll s.settings.allNotReady.holds)
      rw [integer] at failed
      cases told.symm.trans failed

/-- How a detection of a regular session may fail. -/
theorem ends_of_detect {s : Session} (regular : s.Regular) {f : Failure}
    (failed : (detect s).result = .error f) : s.evidence.Ends s.ledger f := by
  have whole : (s.evidence.entered s.ledger).Whole :=
    Evidence.whole_entered regular.listed regular.ledger
  have broken : Breaks Session.findings (Session.Tame s.cluster.plan s.sink.isPresent) detect
      (s.evidence, s.ledger) fun f _ _ => s.evidence.Ends s.ledger f := by
    refine breaks_detect regular.remote (fun fault n refused => ?_) (fun f unadmitted => ?_)
      (fun phase f acts reached halt => ?_) fun x hx f acts w unnamed => ?_
    · exact .of_reported _ (reported_of_remote (regular.remote _ _ fault refused))
    · obtain ⟨spaces, excluded⟩ := regular.excluded
      have admitted : s.settings.admission s.cluster.budgets = .ok () :=
        Evidence.admission_of_whole excluded regular.listed
      cases admitted.symm.trans unadmitted
    · cases halt with
      | @overlap gs gs' g bs bs' b _ _ on groups members _ _ lapse =>
          have hg : g ∈ (s.evidence.entered s.ledger).multiple :=
            groups ▸ List.mem_append_right _ (List.mem_cons_self ..)
          have hb : b ∈ g.2 := members ▸ List.mem_append_right _ (List.mem_cons_self ..)
          have held := (whole.multiple (g.1, b) (mem_entriesOf.mpr ⟨g.2, hg, hb⟩)).spec
          exact .of_reported _ (reported_of_lapse regular.remote held lapse)
      | @check xs xs' x _ _ _ _ entries _ breach =>
          have hx : x ∈ entriesOf (s.evidence.entered s.ledger).blocking :=
            entries ▸ List.mem_append_right _ (List.mem_cons_self ..)
          have held := (whole.blocking x hx).spec
          cases breach with
          | lapse lapse => exact .of_reported _ (reported_of_lapse regular.remote held lapse)
          | verdict _ _ _ untold => exact ends_of_untold regular hx held untold
    · exact absurd unnamed.1 (hx.elim (whole.multiple x) (whole.blocking x)).metadata
  exact broken s rfl ⟨rfl, rfl, regular.lenient⟩ f failed

/-! ### The whole run -/

/-- How the conclusion of a run over whole budgets may fail. -/
theorem ends_of_conclude {p : Plan} {equipped : Bool} (remote : p.Remote) {s : Session}
    (tame : s.Tame p equipped) (named : s.cluster.isNamed = true)
    (whole : ∀ entry ∈ s.ledger.reapable, entry.2.Whole) {e : Evidence} {l : Ledger} {f : Failure}
    (failed : (conclude s).result = .error f) : e.Ends l f := by
  cases hr : (forEach remove s.ledger.reapable s).result with
  | ok _ =>
      rw [result_conclude, inPhase, rephrase_apply, hr] at failed
      cases failed
  | error g =>
      rw [conclude_of_error hr] at failed
      obtain rfl := Except.error.inj failed
      obtain ⟨entries, entry, entries', split, -, stopped, -⟩ := error_of_forEach hr
      have replayed : Replayed s (forEach remove entries s).trace (forEach remove entries s).state :=
        Obeys.forEach (fun entry _ => replayed_remove entry) s
      rcases refused_of_remove remote (replayed.tame tame) stopped with
        ⟨fault, rfl, -⟩ | ⟨-, bare | unnamed⟩
      · exact .of_reported _ rfl
      · have marked : entry ∈ s.ledger.reapable :=
          split ▸ List.mem_append_right _ (List.mem_cons_self ..)
        exact absurd bare (whole entry marked).metadata
      · rw [replayed.cluster, Cluster.isNamed_after named] at unnamed
        cases unnamed

/-- How a run of a regular session may fail. -/
theorem ends_of_execute {s : Session} (regular : s.Regular) {f : Failure}
    (failed : (execute s).result = .error f) : s.evidence.Ends s.ledger f := by
  cases hd : (detect s).result with
  | error g =>
      rw [execute_of_error hd] at failed
      obtain rfl := Except.error.inj failed
      exact ends_of_detect regular hd
  | ok _ =>
      rw [execute_of_ok hd] at failed
      have replayed := replayed_detect s
      have named : (detect s).state.cluster.isNamed = true :=
        replayed.cluster ▸ Cluster.isNamed_after (isNamed_of_detected hd) _
      obtain ⟨-, reached⟩ := yields_detect_onto s.evidence s.ledger s rfl () hd
      have ledger : (detect s).state.ledger =
          (s.evidence.entered s.ledger).markAll (s.evidence.markedFrom s.ledger) :=
        congrArg Prod.snd reached
      have entered : (s.evidence.entered s.ledger).Whole :=
        Evidence.whole_entered regular.listed regular.ledger
      refine ends_of_conclude regular.remote (replayed.tame ⟨rfl, rfl, regular.lenient⟩) named ?_ failed
      rw [ledger]
      exact (entered.markAll fun b hb => Evidence.whole_of_mem_marked entered hb).reapable

/-! ### Shares beyond the doubles -/

/-- Where no call fails, a detection of legible budgets is not aborted. -/
theorem not_aborted_of_legible {s : Session} (regular : s.Regular) (fresh : s.ledger = {})
    (faultless : s.cluster.plan = Cluster.faultless) (legible : s.evidence.Legible) :
    ∀ phase cause, (detect s).result ≠ .error (.aborted phase cause) := by
  have never : Breaks Session.findings (Session.Tame Cluster.faultless s.sink.isPresent) detect
      (s.evidence, {}) fun f _ _ => ∀ phase cause, f ≠ .aborted phase cause := by
    refine breaks_detect Plan.remote_faultless (fun _ _ refused => nomatch refused)
      (fun f unadmitted phase cause aborted => ?_)
      (fun phase f acts reached halt phase' cause aborted => ?_)
      fun x _ f acts w unnamed phase cause aborted => ?_
    · subst aborted
      cases foreign_of_admission unadmitted
    · obtain ⟨-, rfl, reported⟩ := Phase.wrap_eq_aborted aborted
      rw [Evidence.entered_empty, Evidence.scanned_eq] at halt
      cases halt with
      | @overlap gs gs' g bs bs' b _ _ on groups members _ _ lapse =>
          have groups : severalOf s.evidence.groups = gs ++ g :: gs' := groups
          have hg : g ∈ severalOf s.evidence.groups :=
            groups ▸ List.mem_append_right _ (List.mem_cons_self ..)
          have hb : b ∈ g.2 := members ▸ List.mem_append_right _ (List.mem_cons_self ..)
          have listed := (Evidence.mem_entriesOf_several.mp (mem_entriesOf.mpr ⟨g.2, hg, hb⟩)).2.2
          exact lapse.not_asks (legible.asks b (Evidence.mem_budgetsOf.mp listed).1)
      | @check xs xs' x _ _ _ _ entries _ breach =>
          have hx : x ∈ entriesOf (groupBySpace s.evidence.obstacles) :=
            entries ▸ List.mem_append_right _ (List.mem_cons_self ..)
          have listed := (Evidence.mem_budgetsOf.mp (Evidence.mem_entriesOf_blocking.mp hx).2.1).1
          cases breach with
          | lapse lapse => exact lapse.not_asks (legible.asks x.2 listed)
          | verdict _ _ _ untold =>
              obtain ⟨spec, fault, held, failed, -⟩ := Evidence.bound_of_reported untold reported
              obtain ⟨bound?, read⟩ := legible.bounds x.2 listed spec held
              rcases Spec.isMisconfigured_eq_error_iff.mp failed with ⟨_, unread, -⟩ | ⟨_, -, -, told⟩
              · cases read.symm.trans unread
              · cases told
    · subst aborted
      cases unnamed.2
  exact fun phase cause aborted =>
    never s (Prod.ext rfl fresh) ⟨faultless, rfl, regular.lenient⟩ _ aborted phase cause rfl

/-- Where no call fails, a run over legible budgets ends for a share beyond the doubles exactly if a
blocking budget has one. -/
theorem overflow_iff {s : Session} (regular : s.Regular) (fresh : s.ledger = {})
    (faultless : s.cluster.plan = Cluster.faultless) (legible : s.evidence.Legible) :
    (execute s).result = .error (.value (.number .quotientTooLarge)) ↔
      s.settings.reapMisconfigured.holds = true ∧
        ∃ x ∈ entriesOf s.evidence.scanned.blocking,
          x.2.Overflows (s.evidence.selected x.1 x.2).length := by
  constructor
  · intro failed
    cases ends_of_execute regular failed with
    | overflow on blocking overflows =>
        rw [fresh, Evidence.entered_empty] at blocking
        exact ⟨on, _, blocking, overflows⟩
  · rintro ⟨on, x, blocking, spec, bound, held, deciding, overflows⟩
    rw [Evidence.scanned_eq] at blocking
    obtain ⟨watched, listed, blocks⟩ := Evidence.mem_entriesOf_blocking.mp blocking
    cases hd : (detect s).result with
    | ok _ =>
        -- a run that is past its detection has been given a verdict about the budget
        obtain ⟨verdict, told⟩ :=
          ((tractable_of_detected fresh hd).checked _ watched _ listed blocks).2 .blocking (by decide)
        have on : s.evidence.settings.reapMisconfigured.holds = true := on
        have failed : spec.isMisconfigured (s.evidence.selected x.1 x.2).length
            (expectedOf x.2.status) = .error (.value (.number .quotientTooLarge)) :=
          Spec.isMisconfigured_eq_error_iff.mpr (Or.inr ⟨bound, deciding, overflows, rfl⟩)
        simp only [Evidence.verdict, on, held, if_true, failed] at told
        cases told
    | error f =>
        rw [execute_of_error hd]
        cases ends_of_detect regular hd with
        | aborted phase cause =>
            exact absurd hd (not_aborted_of_legible regular fresh faultless legible phase cause)
        | overflow _ _ _ => rfl

/-- The integer of a one and 311 zeros. -/
def hugePercent : Int :=
  Decimal.unit 311

/-- That percentage as it is written. -/
def hugeShare : String :=
  String.ofList ('1' :: List.replicate 311 '0' ++ ['%'])

theorem ofText_hugeShare : Bound.ofText hugeShare = .ok (.percentage (.int hugePercent)) := by
  have written : hugeShare.toList = '1' :: List.replicate 311 '0' ++ ['%'] := String.toList_ofList
  have number : Decimal.readInt? ('1' :: List.replicate 311 '0') = some hugePercent := by
    decide +kernel
  rw [Bound.ofText, written, Bound.beforePercent?_append]
  dsimp only
  rw [number]

/-- A spec whose bound is a huge share. -/
def hugeSpec : Spec :=
  { selector := none, maxUnavailable := .str hugeShare, minAvailable := .null,
    evictionPolicy := none }

/-- A blocking budget of that spec. -/
def hugeBudget : Budget :=
  { blockingBudget "shop" "web" 0 with spec := some hugeSpec }

/-- A run at a time in a zone over the shop, with one budget, whose bound is a huge share. -/
def hugeShop : Session :=
  let s := shop Cluster.faultless .absent
  { s with
    now := { s.now with zone := some .utc }
    cluster := { s.cluster with budgets := [hugeBudget] } }

theorem deciding_hugeSpec : hugeSpec.deciding = .ok (some (.percentage (.int hugePercent))) := by
  have read : Bound.ofValue (.str hugeShare) = .ok (some (.percentage (.int hugePercent))) := by
    rw [Bound.ofValue, ofText_hugeShare]
    rfl
  rw [Spec.deciding, hugeSpec, read]
  rfl

/-- The huge share of a single pod is beyond the doubles. -/
theorem overflows_hugeShare : (Bound.percentage (.int hugePercent)).Overflows 1 :=
  ⟨hugePercent, rfl, by decide +kernel⟩

theorem regular_hugeShop : hugeShop.Regular where
  excluded := ⟨_, rfl⟩
  restarts := ⟨_, rfl⟩
  seconds := ⟨_, rfl⟩
  zoned := nofun
  listed b hb := by
    obtain rfl := List.mem_singleton.mp hb
    exact ⟨nofun, nofun⟩
  ledger := .empty
  remote := Plan.remote_faultless
  lenient := Sink.lenient_absent

theorem legible_hugeShop : hugeShop.evidence.Legible where
  asks b hb := by
    obtain rfl := List.mem_singleton.mp hb
    exact ⟨"", rfl⟩
  bounds b hb spec held := by
    obtain rfl := List.mem_singleton.mp hb
    obtain rfl := Option.some.inj held
    exact ⟨_, deciding_hugeSpec⟩

theorem execute_hugeShop :
    (execute hugeShop).result = .error (.value (.number .quotientTooLarge)) :=
  (overflow_iff regular_hugeShop rfl rfl legible_hugeShop).mpr
    ⟨rfl, (some "shop", hugeBudget), List.mem_singleton_self _, hugeSpec, _, rfl, deciding_hugeSpec,
      overflows_hugeShare⟩

/-- A run of a regular session that fails is aborted, or a share has gone beyond the doubles; and a
verdict about bounds fails for a bound that cannot be read, or for such a share. -/
theorem contained {s : Session} (regular : s.Regular) (spec : Spec) (podCount : Nat)
    (expected : Value) :
    (∀ f, (execute s).result = .error f → s.evidence.Ends s.ledger f) ∧
      ∀ g, spec.isMisconfigured podCount expected = .error g ↔
        (∃ f, spec.deciding = .error f ∧ g = .fault f) ∨
          ∃ b, spec.deciding = .ok (some b) ∧ b.Overflows podCount ∧
            g = .value (.number .quotientTooLarge) :=
  ⟨fun _ failed => ends_of_execute regular failed, fun _ => Spec.isMisconfigured_eq_error_iff⟩

/-- The spec of the huge budget, of a single pod, has no verdict, and neither does the run end well. -/
theorem contained_hugeShop :
    hugeShop.Regular ∧ (execute hugeShop).result = .error (.value (.number .quotientTooLarge)) ∧
      hugeShop.evidence.Ends hugeShop.ledger (.value (.number .quotientTooLarge)) ∧
      hugeSpec.isMisconfigured 1 (.int 2) = .error (.value (.number .quotientTooLarge)) :=
  ⟨regular_hugeShop, execute_hugeShop,
    (contained regular_hugeShop hugeSpec 1 (.int 2)).1 _ execute_hugeShop,
    ((contained regular_hugeShop hugeSpec 1 (.int 2)).2 _).mpr
      (Or.inr ⟨_, deciding_hugeSpec, overflows_hugeShare, rfl⟩)⟩

/-- Nothing is out of the ordinary in the huge shop, and yet it ends a run otherwise: not every run of a
regular session completes or is aborted. -/
theorem not_completed_or_aborted :
    ¬ ∀ s : Session, s.Regular → (execute s).result = .ok () ∨
      ∃ phase cause, (execute s).result = .error (.aborted phase cause) := by
  intro claim
  rcases claim hugeShop regular_hugeShop with completed | ⟨phase, cause, aborted⟩
  · rw [execute_hugeShop] at completed
    cases completed
  · rw [execute_hugeShop] at aborted
    cases aborted

end Pass

end BudgetReaper
