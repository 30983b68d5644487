import BudgetReaper.Proofs.Reaping.Steps
import BudgetReaper.Reaping.Run

/-!
# Reaping — detection and deletion

A run is its detection, the scan and the two marking phases, and then its conclusion, the deletion
and the summary (`execute_eq`).  A detection that fails ends the run as it is (`execute_of_error`).

The two parts have nothing in common but what they say: detection lists budgets and pods,
publishes events of marks and gives the sample of a deletion no other value than zero (`IsProbe`);
the conclusion deletes, and every signal that it gives is of a deletion (`IsRemoval`).  The
conclusion leaves the marks as detection made them (`reapable_execute`).

A closed class of actions holds the whole detection as soon as it holds its requests, its signals and
its changes of the ledger (`Probes.detect`), and so does a law of histories (`Probing.detect`).
-/

namespace BudgetReaper

/-- The effects that detection may have. -/
def Effect.IsProbe : Effect → Prop
  | notice _ | call .listAll | call (.listPods ..) => True
  | call (.createEvent _ event) => event.reason ≠ .deleted
  | sample s => s.reason = .deleted → s.value = .int 0
  | _ => False

/-- The effects that the conclusion may have. -/
def Effect.IsRemoval : Effect → Prop
  | notice _ | call (.delete _) => True
  | call (.createEvent _ event) => event.reason = .deleted
  | sample s => s.reason = .deleted ∧ s.value = .int 1
  | _ => False

namespace Pass

open BudgetReaper.Action

/-- The phases before the deletion. -/
def detect : Pass Unit := do
  let s ← state
  say (.runStarted s.runId s.settings.dryRun)
  inPhase .scan scan
  inPhase .multiple markOverlapping
  inPhase .blocking checkBlocking

/-- The summary of the run. -/
def summarize : Pass Unit := do
  let s ← state
  say (.runEnded s.runId s.settings.dryRun ((Assoc.keys s.ledger.reapable).map Key.text)
    s.ledger.reaped)

/-- The deletion and the summary of the run. -/
def conclude : Pass Unit := do
  inPhase .deletion removeMarked
  summarize

/-- A run is its detection and then its conclusion. -/
theorem execute_eq : execute = detect >>= fun _ => conclude := by
  simp only [execute, reap, detect, conclude, summarize, Action.bind_assoc]

theorem execute_of_error {s : Session} {f : Failure} (h : (detect s).result = .error f) :
    execute s = ⟨.error f, (detect s).state, (detect s).trace⟩ := by
  rw [execute_eq, bind_of_error h]

theorem execute_of_ok {s : Session} (h : (detect s).result = .ok ()) :
    execute s =
      ⟨(conclude (detect s).state).result, (conclude (detect s).state).state,
        (detect s).trace ++ (conclude (detect s).state).trace⟩ := by
  rw [execute_eq, bind_of_ok h]

/-! ### What requests and signals emit -/

section Emission

variable {allowed : Effect → Prop}

theorem emits_listBudgets (h : allowed (.call .listAll)) : Emits allowed (listBudgets "") := by
  intro s e he
  rw [listBudgets_apply] at he
  exact List.mem_singleton.mp he ▸ h

theorem emits_listPods {space : Option String} {selector : String}
    (h : allowed (.call (.listPods space selector))) :
    Emits allowed (listPods space selector) := by
  intro s e he
  rw [listPods_apply] at he
  exact List.mem_singleton.mp he ▸ h

theorem emits_deleteBudget {key : Key} (h : allowed (.call (.delete key))) :
    Emits allowed (deleteBudget key) := by
  intro s e he
  rw [deleteBudget_apply] at he
  split at he <;> exact List.mem_singleton.mp he ▸ h

theorem emits_announce (notice : ∀ n, allowed (.notice n)) {b : Budget} {reason : Reason}
    (event : ∀ m, b.metadata = some m → ∀ now,
      allowed (.call (publication (.about b m reason now)))) :
    Emits allowed (announce b reason) := by
  intro s e he
  rw [announce_apply, eventOf] at he
  cases hm : b.metadata with
  | none => simp only [hm] at he; cases he
  | some m =>
      simp only [hm] at he
      have published := event m hm s.now
      split at he
      · rcases List.mem_singleton.mp he with rfl
        exact published
      · split at he
        · rcases List.mem_cons.mp he with rfl | he
          · exact published
          · rcases List.mem_singleton.mp he with rfl
            exact notice _
        · rcases List.mem_singleton.mp he with rfl
          exact published

/-- A sample is told of as recorded or as refused, and by no other notice. -/
theorem emits_tally_of {b : Budget} {reason : Reason} {value : Value}
    (taken : ∀ x, allowed (.notice (recorded x)))
    (refused : ∀ x f, allowed (.notice (unrecorded x f)))
    (sample : ∀ m, b.metadata = some m → allowed (.sample (sampleOf m reason value))) :
    Emits allowed (tally b reason value) := by
  intro s e he
  rw [tally_apply] at he
  cases hp : s.sink.isPresent with
  | false => simp [hp] at he
  | true =>
      cases hm : b.metadata with
      | none => simp [hp, hm] at he
      | some m =>
          simp only [hp, if_true, hm] at he
          have offered := sample m hm
          split at he
          · rcases List.mem_cons.mp he with rfl | he
            · exact offered
            · rcases List.mem_singleton.mp he with rfl
              exact taken _
          · split at he
            · rcases List.mem_cons.mp he with rfl | he
              · exact offered
              · rcases List.mem_singleton.mp he with rfl
                exact refused _ _
            · rcases List.mem_singleton.mp he with rfl
              exact offered

theorem emits_tally (notice : ∀ n, allowed (.notice n)) {b : Budget} {reason : Reason}
    {value : Value}
    (sample : ∀ m, b.metadata = some m → allowed (.sample (sampleOf m reason value))) :
    Emits allowed (tally b reason value) :=
  emits_tally_of (fun _ => notice _) (fun _ _ => notice _) sample

end Emission

/-! ### What the signals keep -/

theorem keeps_announce {κ : Type} {view : Session → κ}
    (counted : ∀ s call, view (s.counted call) = view s) (b : Budget) (reason : Reason) :
    Keeps view (announce b reason) := by
  intro s
  rw [announce_apply]
  split
  · rfl
  · split
    · exact counted s _
    · split
      · exact counted s _
      · exact counted s _

theorem keeps_tally {κ : Type} {view : Session → κ}
    (sampled : ∀ s sample, view (s.sampled sample) = view s) (b : Budget) (reason : Reason)
    (value : Value) : Keeps view (tally b reason value) := by
  intro s
  rw [tally_apply]
  split
  · split
    · rfl
    · split
      · exact sampled s _
      · split
        · exact sampled s _
        · exact sampled s _
  · rfl

/-! ### What only reads -/

section Reading

variable {C : ∀ α : Type, Pass α → Prop}

theorem closed_metadataOf (h : Closed C) (b : Budget) : C Metadata (metadataOf b) := by
  unfold metadataOf
  cases b.metadata with
  | none => exact h.fail rfl
  | some m => exact h.done m

theorem closed_specOf (h : Closed C) (b : Budget) (field : String) : C Spec (specOf b field) := by
  unfold specOf
  cases b.spec with
  | none => exact h.fail rfl
  | some spec => exact h.done spec

theorem closed_settings (h : Closed C) : C Settings settings :=
  h.bind h.state fun _ => h.pure _

theorem closed_verdictOf (h : Closed C) (s : Session) (b : Budget) (pods : List Pod)
    (reason : Reason) : C Bool (verdictOf s b pods reason) := by
  cases reason with
  | blocking =>
      refine Closed.ite (h.bind (closed_specOf h b _) fun _ => h.ofExcept (fun f => ?_) _) (h.done _)
      cases f <;> rfl
  | crashLoop => exact Closed.ite (h.ofExcept (fun _ => rfl) _) (h.done _)
  | notReady => exact Closed.ite (h.ofExcept (fun _ => rfl) _) (h.done _)
  | deleted | multiple => exact h.done _

end Reading

/-! ### Detection -/

/-- What a closed class has to hold, so that it holds the detection: phases, requests, notices,
changes of the ledger that leave the names of the budgets deleted alone, and signals.  A mark is
announced and raised in one step, so that a class may speak of the two together. -/
structure Probes (C : ∀ α : Type, Pass α → Prop) : Prop extends Closed C where
  inPhase : ∀ phase {a}, C Unit a → C Unit (inPhase phase a)
  say : ∀ n, C Unit (say n)
  post : ∀ change : Ledger → Ledger, (∀ l, (change l).reaped = l.reaped) → C Unit (post change)
  listBudgets : C (List Budget) (listBudgets "")
  listPods : ∀ space selector, C (List Pod) (listPods space selector)
  flag : ∀ b reason, reason ≠ .deleted → C Unit (announce b reason >>= fun _ => raise b reason)
  lower : ∀ b reason, C Unit (lower b reason)

namespace Probes

variable {C : ∀ α : Type, Pass α → Prop}

theorem mark (h : Probes C) (b : Budget) : C Unit (mark b) :=
  h.bind (closed_metadataOf h.toClosed b) fun m => h.post (·.mark m.key b) fun _ => rfl

theorem selectedPods (h : Probes C) (space : Option String) (b : Budget) :
    C (List Pod) (selectedPods space b) := by
  refine h.bind (closed_specOf h.toClosed b _) fun spec => ?_
  refine h.bind (h.ofExcept (fun _ => rfl) _) fun selector => ?_
  exact h.bind (h.listPods space selector) fun pods => h.bind (h.say _) fun _ => h.pure pods

theorem tellExcluded (h : Probes C) (budgets : List Budget) (told : List (Option String)) :
    C Unit (tellExcluded told budgets) := by
  induction budgets generalizing told with
  | nil => exact h.done ()
  | cons b rest ih =>
      refine h.bind (closed_metadataOf h.toClosed b) fun m => ?_
      refine h.bind (closed_settings h.toClosed) fun st => ?_
      refine h.bind (h.ofExcept (fun _ => rfl) _) fun excluded => Closed.ite ?_ (ih told)
      exact h.bind (h.say _) fun _ => ih (m.space :: told)

theorem sort (h : Probes C) (space : Option String) (b : Budget) : C Unit (sort space b) := by
  refine Closed.ite (h.bind (h.post (·.block space b) fun _ => rfl) fun _ => ?_) (h.say _)
  exact h.lower b .deleted

theorem scan (h : Probes C) : C Unit scan := by
  refine h.bind h.listBudgets fun budgets => h.bind (h.tellExcluded budgets []) fun _ => ?_
  refine h.bind (closed_settings h.toClosed) fun st => ?_
  refine h.bind (h.post (·.group _) fun _ => rfl) fun _ => ?_
  exact h.forEach fun group _ => h.forEach fun b _ => h.sort group.1 b

theorem judgeGroup (h : Probes C) (group : Option String × List Budget) :
    C Unit (judgeGroup group) := by
  refine h.bind (h.gather fun b _ => h.bind (h.say _) fun _ => h.selectedPods group.1 b)
    fun pods => Closed.ite ?_ (h.forEach fun b _ => h.lower b .multiple)
  refine h.bind (h.say _) fun _ => h.bind (h.forEach fun b _ => h.mark b) fun _ => ?_
  exact h.forEach fun b _ => h.flag b .multiple (by decide)

theorem markOverlapping (h : Probes C) : C Unit markOverlapping := by
  refine h.bind h.state fun s => Closed.ite ?_ (h.pure ())
  exact h.forEach fun group _ => h.judgeGroup group

theorem report (h : Probes C) (b : Budget) {reason : Reason} (hr : reason ≠ .deleted)
    (verdict : Bool) (pods : List Pod) : C Unit (report b reason verdict pods) := by
  refine Closed.ite (h.bind (h.say _) fun _ => ?_) (h.lower b reason)
  exact h.bind (h.mark b) fun _ => h.flag b reason hr

theorem check (h : Probes C) (space : Option String) (b : Budget) : C Unit (check space b) := by
  rw [check_eq]
  refine h.bind h.state fun s => h.bind (h.say _) fun _ => ?_
  refine h.bind (h.selectedPods space b) fun pods => h.forEach fun reason hr => ?_
  refine h.bind (closed_verdictOf h.toClosed s b pods reason) fun verdict =>
    h.report b ?_ verdict _
  rintro rfl
  exact absurd hr (by decide)

theorem checkBlocking (h : Probes C) : C Unit checkBlocking :=
  h.bind h.state fun _ => h.forEach fun group _ => h.forEach fun b _ => h.check group.1 b

/-- A closed class holds the detection if it holds the steps of the detection. -/
theorem detect (h : Probes C) : C Unit detect := by
  refine h.bind h.state fun s => h.bind (h.say _) fun _ => ?_
  refine h.bind (h.inPhase .scan h.scan) fun _ => ?_
  exact h.bind (h.inPhase .multiple h.markOverlapping) fun _ => h.inPhase .blocking h.checkBlocking

end Probes

/-- What has to obey a law, so that the detection obeys it. -/
structure Probing (P : Law Session) : Prop where
  say : ∀ n, Obeys P (say n)
  post : ∀ change : Ledger → Ledger, (∀ l, (change l).reaped = l.reaped) → Obeys P (post change)
  listBudgets : Obeys P (listBudgets "")
  listPods : ∀ space selector, Obeys P (listPods space selector)
  flag : ∀ b reason, reason ≠ .deleted → Obeys P (announce b reason >>= fun _ => raise b reason)
  lower : ∀ b reason, Obeys P (lower b reason)

namespace Probing

variable {P : Law Session} [P.Composes]

/-- The actions that obey the law hold the steps of the detection. -/
theorem probes (law : Probing P) : Probes fun α => Obeys (α := α) P where
  toClosed := Obeys.closed
  inPhase _ _ h := .rephrase h _
  say := law.say
  post := law.post
  listBudgets := law.listBudgets
  listPods := law.listPods
  flag := law.flag
  lower := law.lower

/-- A detection obeys every law that its steps obey. -/
theorem detect (law : Probing P) : Obeys P detect :=
  law.probes.detect

end Probing

/-- Detection only probes. -/
theorem emits_detect : Emits Effect.IsProbe detect := by
  have probing : Probing (Law.emitting Effect.IsProbe) := by
    refine ⟨fun _ => Emits.say trivial, fun _ _ => Emits.update _, emits_listBudgets trivial,
      fun _ _ => emits_listPods trivial, ?_, ?_⟩
    · intro b reason h
      refine Emits.bind (emits_announce (fun _ => trivial) fun _ _ _ => h) fun _ => ?_
      exact emits_tally (fun _ => trivial) fun _ _ e => absurd e h
    · exact fun b reason => emits_tally (fun _ => trivial) fun _ _ _ => rfl
  exact probing.detect

/-! ### Deletion -/

theorem emits_remove (entry : Key × Budget) : Emits Effect.IsRemoval (remove entry) := by
  refine .bind (.say trivial) fun _ => .bind (.say trivial) fun _ => ?_
  refine .bind (.bind .state fun _ => .pure _) fun s => .ite (.say trivial) ?_
  refine .bind (emits_deleteBudget trivial) fun gone => .ite ?_ (.say trivial)
  refine .bind (.say trivial) fun _ => .bind (emits_announce (fun _ => trivial) fun _ _ _ => rfl) ?_
  exact fun _ => .bind (.update _) fun _ => emits_tally (fun _ => trivial) fun _ _ => ⟨rfl, rfl⟩

/-- The conclusion only removes. -/
theorem emits_conclude : Emits Effect.IsRemoval conclude := by
  refine .bind (.rephrase (.bind .state fun s => .forEach fun entry _ => emits_remove entry) _) ?_
  exact fun _ => .bind .state fun s => .say trivial

/-! ### The marks in the end -/

theorem keeps_deleteBudget {κ : Type} {view : Session → κ}
    (moved : ∀ s cluster, view { s with cluster } = view s) (key : Key) :
    Keeps view (deleteBudget key) := by
  intro s
  rw [deleteBudget_apply]
  split <;> exact moved s _

/-- A removal changes the cluster, the sink and the names of the budgets deleted. -/
theorem keeps_remove {κ : Type} {view : Session → κ}
    (moved : ∀ s cluster, view { s with cluster } = view s)
    (sampled : ∀ s sink, view { s with sink } = view s)
    (reaped : ∀ s name, view { s with ledger := s.ledger.reap name } = view s)
    (entry : Key × Budget) : Keeps view (remove entry) := by
  refine .bind (fun _ => rfl) fun _ => .bind (fun _ => rfl) fun _ => ?_
  refine .bind (fun _ => rfl) fun s => .ite (fun _ => rfl) ?_
  refine .bind (keeps_deleteBudget moved entry.1) fun gone => .ite ?_ fun _ => rfl
  refine .bind (fun _ => rfl) fun _ => ?_
  refine .bind (keeps_announce (fun s _ => moved s _) _ _) fun _ => ?_
  exact .bind (fun s => reaped s _) fun _ => keeps_tally (fun s _ => sampled s _) _ _ _

/-- A detection changes the cluster, the sink and what the ledger holds besides the budgets deleted. -/
theorem keeps_detect {κ : Type} {view : Session → κ}
    (moved : ∀ s cluster, view { s with cluster } = view s)
    (sampled : ∀ s sink, view { s with sink } = view s)
    (entered : ∀ s (change : Ledger → Ledger), (∀ l, (change l).reaped = l.reaped) →
      view { s with ledger := change s.ledger } = view s) : Keeps view detect := by
  have announced (b : Budget) (reason : Reason) : Keeps view (announce b reason) :=
    keeps_announce (fun s _ => moved s _) b reason
  have tallied (b : Budget) (reason : Reason) (value : Value) : Keeps view (tally b reason value) :=
    keeps_tally (fun s _ => sampled s _) b reason value
  have probing : Probing (Law.keeping view) := by
    refine ⟨fun _ _ => rfl, fun change kept s => entered s change kept, fun s => ?_, fun _ _ s => ?_,
      fun b reason _ => .bind (announced b reason) fun _ => tallied b reason _,
      fun b reason => tallied b reason _⟩
    · rw [listBudgets_apply]
      exact moved s _
    · rw [listPods_apply]
      exact moved s _
  exact probing.detect

/-- A conclusion changes the cluster, the sink and the names of the budgets deleted. -/
theorem keeps_conclude {κ : Type} {view : Session → κ}
    (moved : ∀ s cluster, view { s with cluster } = view s)
    (sampled : ∀ s sink, view { s with sink } = view s)
    (reaped : ∀ s name, view { s with ledger := s.ledger.reap name } = view s) :
    Keeps view conclude := by
  have removal : Keeps view removeMarked :=
    .bind (fun _ => rfl) fun s => .forEach (keeps_remove moved sampled reaped) s.ledger.reapable
  exact .bind removal fun _ => fun _ => rfl

/-- A run ends with the marks that its detection has made. -/
theorem reapable_execute (s : Session) :
    (execute s).state.ledger.reapable = (detect s).state.ledger.reapable := by
  have kept : Keeps (fun s : Session => s.ledger.reapable) conclude :=
    keeps_conclude (fun _ _ => rfl) (fun _ _ => rfl) fun _ _ => rfl
  cases h : (detect s).result with
  | error f => rw [execute_of_error h]
  | ok _ =>
      rw [execute_of_ok h]
      exact kept _

/-! ### A shop -/

/-- A budget of a namespace that selects every pod, expects two and permits no disruption now. -/
def blockingBudget (space name : String) (bound : Int) : Budget where
  apiVersion := none
  kind := none
  metadata := some
    { name := some name, space := some space, uid := none, version := none, generation := none,
      labels := none, annotations := none, created := none, finalizers := none }
  spec := some
    { selector := none, maxUnavailable := .int bound, minAvailable := .null,
      evictionPolicy := none }
  status := some
    { disruptionsAllowed := some 0, expectedPods := some 2, currentHealthy := none,
      desiredHealthy := none, observedGeneration := none, disruptedPods := none }

/-- A run over a shop of one pod, which two budgets select, one of them misconfigured; a third
budget stands in a namespace that is left alone. -/
def shop (plan : Plan) (sink : Sink) : Session where
  settings := {}
  cluster :=
    { budgets := [blockingBudget "shop" "web" 0, blockingBudget "shop" "api" 1,
        blockingBudget "kube-system" "dns" 0]
      listings :=
        [((some "shop", ""), [{ name := some "cart", space := some "shop", status := none }])]
      plan := plan
      made := [] }
  sink := sink
  answers := []
  now := default
  runId := "run"
  ledger := {}

end Pass

end BudgetReaper
