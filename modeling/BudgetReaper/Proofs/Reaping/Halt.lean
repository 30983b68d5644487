import BudgetReaper.Proofs.Reaping.Tame

/-!
# Reaping — where a detection halts

A detection that fails in a tame session halts at one step: the listing of budgets is refused, a
budget is not admitted, a budget cannot ask for its pods or is refused them (`Lapse`), or a check of
a blocking budget gives no verdict (`Breach`).  `Halt` tells where in the loops of the marking phases
that step stands, which acts have been done by then and what the ledger holds.

**Halts** (`breaks_detect`).  The failure of a detection is that of such a step, its acts are all
those before the step and none after it, and what was passed over needs nothing that fails.  Only a
budget without metadata ends a detection otherwise, as a failure that is not the program's own.

The ledger that a run begins with is arbitrary: `Evidence.entered` is that ledger with the groups and
the blocking budgets that the scan adds to it.
-/

namespace BudgetReaper

/-! ### What a step needs -/

/-- The text with which a budget asks for its pods. -/
def Budget.query (b : Budget) : Except Failure String :=
  match b.spec with
  | none => .error (.missing "selector")
  | some spec =>
    (Selector.renderOption spec.selector).mapError (.budgetSelector b.fullName spec.selector)

/-- A budget can ask for its pods. -/
def Budget.Asks (b : Budget) : Prop :=
  ∃ text, b.query = .ok text

namespace Evidence

/-- The verdict of a check of a budget that selects `pods`, or the failure to tell. -/
def verdict (e : Evidence) (b : Budget) (pods : List Pod) : Reason → Except Failure Bool
  | .blocking =>
    if e.settings.reapMisconfigured.holds then
      match b.spec with
      | none => .error (.missing "max_unavailable")
      | some spec =>
        (spec.isMisconfigured pods.length (expectedOf b.status)).mapError (.ofBound b.fullName)
    else .ok false
  | .crashLoop =>
    if e.settings.reapCrashLoop.holds then
      (areCrashLooping pods e.settings.crashLoopThreshold
        (.ofAll e.settings.allCrashLoop.holds)).mapError .value
    else .ok false
  | .notReady =>
    if e.settings.reapNotReady.holds then
      (areNotReady pods e.settings.notReadySeconds (.ofAll e.settings.allNotReady.holds)
        e.now).mapError .clock
    else .ok false
  | _ => .ok false

/-- How a check of a budget that selects `pods` can give no verdict. -/
inductive Untold (e : Evidence) (b : Budget) (pods : List Pod) : Reason → Failure → Prop
  | bare (bare : b.spec = none) : Untold e b pods .blocking (.missing "max_unavailable")
  | bound {spec : Spec} {f : BoundFailure} (on : e.settings.reapMisconfigured.holds = true)
      (held : b.spec = some spec)
      (untold : spec.isMisconfigured pods.length (expectedOf b.status) = .error f) :
      Untold e b pods .blocking (.ofBound b.fullName f)
  | restarts {f : Value.Fault}
      (untold : areCrashLooping pods e.settings.crashLoopThreshold
        (.ofAll e.settings.allCrashLoop.holds) = .error f) : Untold e b pods .crashLoop (.value f)
  | clock {f : ClockFault}
      (untold : areNotReady pods e.settings.notReadySeconds (.ofAll e.settings.allNotReady.holds)
        e.now = .error f) : Untold e b pods .notReady (.clock f)

/-- A check of a blocking budget gives a verdict. -/
def Tells (e : Evidence) (entry : Option String × Budget) (reason : Reason) : Prop :=
  ∃ verdict, e.verdict entry.2 (e.selected entry.1 entry.2) reason = .ok verdict

/-- A blocking budget can ask for its pods, and every check of it gives a verdict. -/
def Checked (e : Evidence) (entry : Option String × Budget) : Prop :=
  entry.2.Asks ∧ ∀ reason ∈ Pass.checks, e.Tells entry reason

/-- The acts about the groups that may overlap. -/
def judgings (e : Evidence) (equipped : Bool) (l : Ledger) : List Effect :=
  if e.settings.reapMultiple.holds then l.multiple.flatMap (e.judging equipped) else []

/-- The budgets marked because they overlap. -/
def overlaps (e : Evidence) (l : Ledger) : List Budget :=
  if e.settings.reapMultiple.holds then l.multiple.flatMap e.overlapping else []

/-- The acts about blocking budgets. -/
def checkings (e : Evidence) (equipped : Bool) (entries : List (Option String × Budget)) :
    List Effect :=
  entries.flatMap fun x => e.checking equipped x.1 x.2

/-- The blocking budgets marked, once for each check that finds what it looks for. -/
def offenders (e : Evidence) (entries : List (Option String × Budget)) : List Budget :=
  entries.flatMap fun x => e.offences x.1 x.2

end Evidence

/-- A computation in other words fails where the computation does. -/
theorem error_of_mapError {ε ε' α : Type} {words : ε → ε'} {r : Except ε α} {f : ε'}
    (h : r.mapError words = .error f) : ∃ g, r = .error g ∧ words g = f := by
  cases r with
  | ok _ => cases h
  | error g => exact ⟨g, rfl, Except.error.inj h⟩

theorem Evidence.untold_of_error {e : Evidence} {b : Budget} {pods : List Pod} {r : Reason}
    {f : Failure} (h : e.verdict b pods r = .error f) : e.Untold b pods r f := by
  cases r with
  | blocking =>
      simp only [verdict] at h
      split at h
      · next on =>
          cases hs : b.spec with
          | none =>
              rw [hs] at h
              obtain rfl := Except.error.inj h
              exact .bare hs
          | some spec =>
              rw [hs] at h
              obtain ⟨g, hg, rfl⟩ := error_of_mapError h
              exact .bound on hs hg
      · cases h
  | crashLoop =>
      simp only [verdict] at h
      split at h
      · obtain ⟨g, hg, rfl⟩ := error_of_mapError h
        exact .restarts hg
      · cases h
  | notReady =>
      simp only [verdict] at h
      split at h
      · obtain ⟨g, hg, rfl⟩ := error_of_mapError h
        exact .clock hg
      · cases h
  | deleted | multiple => cases h

/-- A check that gives no verdict fails as the program knows it only for a bound that cannot be read. -/
theorem Evidence.bound_of_reported {e : Evidence} {b : Budget} {pods : List Pod} {r : Reason}
    {f : Failure} (untold : e.verdict b pods r = .error f) (reported : f.isReported = true) :
    ∃ spec fault, b.spec = some spec ∧
      spec.isMisconfigured pods.length (expectedOf b.status) = .error (.fault fault) ∧
      f = .budgetBound b.fullName fault := by
  cases untold_of_error untold with
  | @bound spec g _ held failed =>
      cases g with
      | fault fault => exact ⟨spec, fault, held, failed, rfl⟩
      | value _ => cases reported
  | bare _ | restarts _ | clock _ => cases reported

/-- A failure of a phase: one that the program knows as its own is an abort of the phase. -/
def Phase.wrap (phase : Phase) (f : Failure) : Failure :=
  if f.isReported then .aborted phase f else f

theorem Phase.wrap_of_foreign (phase : Phase) {f : Failure} (h : f.isReported = false) :
    phase.wrap f = f := by
  rw [wrap, h]
  rfl

/-- A failure of a phase is an abort only if the phase has made it one. -/
theorem Phase.wrap_eq_aborted {phase phase' : Phase} {f cause : Failure}
    (h : phase.wrap f = .aborted phase' cause) :
    phase = phase' ∧ f = cause ∧ cause.isReported = true := by
  unfold wrap at h
  split at h
  · next reported =>
      obtain ⟨rfl, rfl⟩ := Failure.aborted.inj h
      exact ⟨rfl, rfl, reported⟩
  · next foreign =>
      subst h
      exact absurd rfl foreign

/-! ### Where a detection halts -/

/-- How the request for the pods of a budget fails, with the acts done for it: the budget has no
query, or the listing is refused. -/
inductive Lapse (p : Plan) (space : Option String) (b : Budget) : Failure → List Effect → Prop
  | query {f : Failure} (unasked : b.query = .error f) : Lapse p space b f []
  | listing {text : String} {fault : Fault} {n : Nat} (asked : b.query = .ok text)
      (refused : p (.listPods space text) n = some fault) :
      Lapse p space b (Pass.failureOf (.listPods space text) fault) [.call (.listPods space text)]

/-- How the checks of a blocking budget break off, with the acts done and the marks made for it: it
is not given its pods, or one of the checks gives no verdict. -/
inductive Breach (e : Evidence) (p : Plan) (equipped : Bool) (x : Option String × Budget) :
    Failure → List Effect → List Budget → Prop
  | lapse {f : Failure} {acts : List Effect} (lapse : Lapse p x.1 x.2 f acts) :
      Breach e p equipped x f acts []
  | verdict {rs rs' : List Reason} {r : Reason} {f : Failure} (asked : x.2.Asks)
      (reasons : Pass.checks = rs ++ r :: rs') (told : ∀ r ∈ rs, e.Tells x r)
      (untold : e.verdict x.2 (e.selected x.1 x.2) r = .error f) :
      Breach e p equipped x f
        (Evidence.inquiry x.1 x.2 ++
          rs.flatMap fun r => e.signals equipped x.2 r (e.finds x.2 (e.selected x.1 x.2) r))
        (rs.flatMap fun r => if e.finds x.2 (e.selected x.1 x.2) r then [x.2] else [])

/-- How a detection halts after its scan, which has led to the ledger `l`: the phase, the failure of
the step, the acts since the scan and the ledger. -/
inductive Halt (e : Evidence) (p : Plan) (equipped : Bool) (l : Ledger) :
    Phase → Failure → List Effect → Ledger → Prop
  /-- A budget of a group is not given its pods. -/
  | overlap {gs gs' : List (Option String × List Budget)} {g : Option String × List Budget}
      {bs bs' : List Budget} {b : Budget} {f : Failure} {acts : List Effect}
      (on : e.settings.reapMultiple.holds = true) (groups : l.multiple = gs ++ g :: gs')
      (members : g.2 = bs ++ b :: bs') (past : ∀ g ∈ gs, ∀ b ∈ g.2, b.Asks)
      (asked : ∀ b ∈ bs, b.Asks) (lapse : Lapse p g.1 b f acts) :
      Halt e p equipped l .multiple f
        (gs.flatMap (e.judging equipped) ++ (bs.flatMap (Evidence.inquiry g.1) ++ acts))
        (l.markAll (gs.flatMap e.overlapping))
  /-- The checks of a blocking budget break off. -/
  | check {xs xs' : List (Option String × Budget)} {x : Option String × Budget} {f : Failure}
      {acts : List Effect} {marks : List Budget}
      (judged : e.settings.reapMultiple.holds = true → ∀ g ∈ l.multiple, ∀ b ∈ g.2, b.Asks)
      (entries : entriesOf l.blocking = xs ++ x :: xs') (past : ∀ y ∈ xs, e.Checked y)
      (breach : Breach e p equipped x f acts marks) :
      Halt e p equipped l .blocking f
        (e.judgings equipped l ++ (e.checkings equipped xs ++ acts))
        (((l.markAll (e.overlaps l)).markAll (e.offenders xs)).markAll marks)

namespace Action

variable {σ α β κ : Type}

/-- A computation whose failures are in the words of the action already. -/
theorem ofExcept_mapError {ε : Type} (words : ε → Failure) (r : Except ε α) :
    (ofExcept id (r.mapError words) : Action σ α) = ofExcept words r := by
  cases r <;> rfl

theorem forEach_append (act : α → Action σ Unit) (xs ys : List α) :
    forEach act (xs ++ ys) = forEach act xs >>= fun _ => forEach act ys := by
  induction xs with
  | nil => rfl
  | cons x rest ih =>
      rw [List.cons_append, forEach, forEach, ih, bind_assoc]

theorem forEach_map (act : α → Action σ Unit) (f : β → α) (xs : List β) :
    forEach act (xs.map f) = forEach (fun x => act (f x)) xs := by
  induction xs with
  | nil => rfl
  | cons x rest ih => rw [List.map_cons, forEach, forEach, ih]

/-- A loop over groups and their members is a loop over the entries of the groups. -/
theorem forEach_entriesOf (act : κ → α → Action σ Unit) (groups : List (κ × List α)) :
    forEach (fun x => act x.1 x.2) (entriesOf groups) =
      forEach (fun g => forEach (act g.1) g.2) groups := by
  induction groups with
  | nil => rfl
  | cons g rest ih =>
      have head : entriesOf (g :: rest) = g.2.map (g.1, ·) ++ entriesOf rest := rfl
      rw [head, forEach_append, forEach_map, ih, forEach]

end Action

namespace Pass

open BudgetReaper.Action

variable {e : Evidence} {l : Ledger} {v : Evidence × Ledger} {p : Plan} {equipped : Bool}
  {D : Failure → List Effect → Evidence × Ledger → Prop}

/-! ### Requests for pods -/

/-- Asks for the pods that a query selects in a namespace, for a budget. -/
def inquire (space : Option String) (b : Budget) (text : String) : Pass (List Pod) := do
  let pods ← listPods space text
  say (.debug "Listed PDB pods" [("pdb", .str b.fullName), ("selector", .str text),
    ("pod_count", .int pods.length)])
  return pods

theorem selectedPods_eq (space : Option String) (b : Budget) :
    selectedPods space b = ofExcept id b.query >>= inquire space b := by
  unfold selectedPods specOf Budget.query
  cases b.spec with
  | none => rfl
  | some spec =>
      dsimp only
      rw [done_bind, ofExcept_mapError]
      rfl

theorem demands_selectedPods (space : Option String) (b : Budget) :
    Demands Session.findings (selectedPods space b) v b.Asks := by
  rw [selectedPods_eq]
  exact (Demands.ofExcept id b.query).first _

theorem breaks_selectedPods {space : Option String} {b : Budget}
    (lapse : ∀ f acts, Lapse p space b f acts → D f acts (e, l)) :
    Breaks Session.findings (Session.Tame p equipped) (selectedPods space b) (e, l) D := by
  rw [selectedPods_eq]
  refine .ofExcept_bind (fun f hf => lapse f [] (.query hf)) fun text ht => ?_
  intro s hs tame f hf
  cases hp : s.cluster.planned (.listPods space text) with
  | none =>
      have listed : (listPods space text s).result = .ok (s.cluster.podsOf space text) := by
        rw [listPods_apply, hp]
        rfl
      rw [inquire, bind_of_ok listed] at hf
      cases hf
  | some fault =>
      have refused : (listPods space text s).result =
          .error (failureOf (.listPods space text) fault) := by
        rw [listPods_apply, hp]
        rfl
      rw [inquire, bind_of_error refused] at hf ⊢
      obtain rfl := Except.error.inj hf
      rw [listPods_apply]
      have counted : (s.counted (.listPods space text)).findings = (e, l) := hs
      rw [Cluster.planned, Cluster.count, tame.plan] at hp
      exact counted ▸ lapse _ _ (.listing ht hp)

/-! ### Checks of blocking budgets -/

theorem verdictOf_eq (s : Session) (b : Budget) (pods : List Pod) (reason : Reason) :
    verdictOf s b pods reason = ofExcept id (s.evidence.verdict b pods reason) := by
  cases reason with
  | blocking =>
      unfold verdictOf Evidence.verdict misconfigured specOf
      change (if s.settings.reapMisconfigured.holds then _ else _) =
        ofExcept id (if s.settings.reapMisconfigured.holds then _ else _)
      split
      · cases b.spec with
        | none => rfl
        | some spec =>
            dsimp only
            rw [done_bind, ofExcept_mapError]
      · rfl
  | crashLoop =>
      unfold verdictOf Evidence.verdict
      change (if s.settings.reapCrashLoop.holds then _ else _) =
        ofExcept id (if s.settings.reapCrashLoop.holds then _ else _)
      split
      · rw [ofExcept_mapError]
        rfl
      · rfl
  | notReady =>
      unfold verdictOf Evidence.verdict
      change (if s.settings.reapNotReady.holds then _ else _) =
        ofExcept id (if s.settings.reapNotReady.holds then _ else _)
      split
      · rw [ofExcept_mapError]
        rfl
      · rfl
  | deleted | multiple => rfl

theorem yields_examine (s : Session) (b : Budget) (pods : List Pod) (reason : Reason) :
    Yields Session.findings (examine s b pods reason) (e, l) ()
      (e, l.markAll (if s.evidence.finds b pods reason then [b] else [])) :=
  .bind (yields_verdictOf b pods reason) (yields_report b reason _ _)

theorem follows_examine (s : Session) (b : Budget) (pods : List Pod) (reason : Reason) :
    Follows Session.findings (Session.Equipped equipped) (examine s b pods reason) (e, l)
      (e.signals equipped b reason (s.evidence.finds b pods reason)) :=
  .quiet_bind (follows_verdictOf b pods reason) (yields_verdictOf b pods reason)
    (follows_report b reason _ _)

theorem replayed_examine (s : Session) (b : Budget) (pods : List Pod) {reason : Reason}
    (checked : reason ∈ checks) : Obeys Replayed (examine s b pods reason) := by
  refine .bind (closed_verdictOf Obeys.closed s b pods reason) fun verdict =>
    probing_replayed.probes.report b ?_ verdict _
  rintro rfl
  exact absurd checked (by decide)

theorem breaks_report (remote : p.Remote) {b : Budget} (reason : Reason) (verdict : Bool)
    (pods : List Pod) (bare : ∀ f acts w, Unnamed b f → D f acts w) :
    Breaks Session.findings (Session.Tame p equipped) (report b reason verdict pods) (e, l) D := by
  refine .ite (fun _ => .say_bind ?_) fun _ => breaks_lower bare
  exact .quiet_bind (breaks_mark bare)
    (follows_of_replayed (follows_mark b) (probing_replayed.probes.mark b)) (yields_mark b)
    (breaks_flag remote bare)

/-- The checks of a blocking budget break off at a breach, if the budget has metadata. -/
theorem breaks_check (remote : p.Remote) (x : Option String × Budget)
    (breach : ∀ f acts marks, Breach e p equipped x f acts marks → D f acts (e, l.markAll marks))
    (bare : ∀ f acts w, Unnamed x.2 f → D f acts w) :
    Breaks Session.findings (Session.Tame p equipped) (check x.1 x.2) (e, l) D := by
  rw [check_eq]
  refine .state_bind fun s hs _ => .say_bind ?_
  obtain ⟨rfl, rfl⟩ := Prod.mk.inj hs
  refine .bind (breaks_selectedPods fun f acts lapse => breach f acts [] (.lapse lapse))
    (follows_of_replayed (follows_selectedPods x.1 x.2)
      (probing_replayed.probes.selectedPods x.1 x.2))
    (yields_selectedPods x.1 x.2) (demands_selectedPods x.1 x.2) fun asked => ?_
  refine .forEach (g := fun l => (s.evidence, l)) (Q := s.evidence.Tells x)
    (fun reason hr l => follows_of_replayed (follows_examine s x.2 _ reason)
      (replayed_examine s x.2 _ hr))
    (fun reason _ l => yields_examine s x.2 _ reason) (fun reason _ l => ?_) _
    fun rs r rs' reasons told => ?_
  · rw [examine, verdictOf_eq]
    exact (Demands.ofExcept id _).first _
  · rw [examine, verdictOf_eq]
    refine .ofExcept_bind (fun f untold => ?_) fun verdict _ =>
      breaks_report remote r verdict _ fun f acts w unnamed => bare f _ w unnamed
    have stopped := breach f _ _ (.verdict asked reasons told untold)
    rwa [List.append_nil]

theorem demands_check (x : Option String × Budget) :
    Demands Session.findings (check x.1 x.2) (e, l) (e.Checked x) := by
  rw [check_eq]
  refine .state_bind fun s hs => ?_
  obtain ⟨rfl, rfl⟩ := Prod.mk.inj hs
  have asked : Demands Session.findings (selectedPods x.1 x.2) s.findings x.2.Asks :=
    demands_selectedPods x.1 x.2
  refine .later (.say _) (.and (asked.first _) (.later (yields_selectedPods x.1 x.2) ?_))
  refine .forEach (g := fun l => (s.evidence, l)) (Q := s.evidence.Tells x)
    (fun reason _ l => yields_examine s x.2 _ reason) (fun reason _ l => ?_) _
  rw [examine, verdictOf_eq]
  exact (Demands.ofExcept id _).first _

theorem checkBlocking_eq :
    checkBlocking = state >>= fun s =>
      forEach (fun x => check x.1 x.2) (entriesOf s.ledger.blocking) :=
  bind_congr fun s => (forEach_entriesOf check s.ledger.blocking).symm

theorem demands_checkBlocking :
    Demands Session.findings checkBlocking (e, l) (∀ x ∈ entriesOf l.blocking, e.Checked x) := by
  rw [checkBlocking_eq]
  refine .state_bind fun s hs => ?_
  obtain ⟨rfl, rfl⟩ := Prod.mk.inj hs
  exact .forEach (g := fun l => (s.evidence, l)) (fun x _ l => yields_check x.1 x.2)
    (fun x _ l => demands_check x) _

theorem breaks_checkBlocking (remote : p.Remote)
    (breach : ∀ xs x xs' f acts marks, entriesOf l.blocking = xs ++ x :: xs' →
      (∀ y ∈ xs, e.Checked y) → Breach e p equipped x f acts marks →
        D f (e.checkings equipped xs ++ acts) (e, (l.markAll (e.offenders xs)).markAll marks))
    (bare : ∀ x ∈ entriesOf l.blocking, ∀ f acts w, Unnamed x.2 f → D f acts w) :
    Breaks Session.findings (Session.Tame p equipped) checkBlocking (e, l) D := by
  rw [checkBlocking_eq]
  refine .state_bind fun s hs _ => ?_
  obtain ⟨rfl, rfl⟩ := Prod.mk.inj hs
  refine .forEach (g := fun l => (s.evidence, l)) (Q := s.evidence.Checked)
    (fun x _ l => follows_of_replayed (follows_check x.1 x.2)
      (probing_replayed.probes.check x.1 x.2))
    (fun x _ l => yields_check x.1 x.2) (fun x _ l => demands_check x) _
    fun xs x xs' entries past => breaks_check remote x (fun f acts marks stopped => ?_)
      fun f acts w unnamed => ?_
  · exact breach xs x xs' f acts marks entries past stopped
  · exact bare x (entries ▸ List.mem_append_right _ (List.mem_cons_self ..)) f _ w unnamed

/-! ### Groups that may overlap -/

theorem demands_judgeGroup (g : Option String × List Budget) :
    Demands Session.findings (judgeGroup g) (e, l) (∀ b ∈ g.2, b.Asks) := by
  have asked (b : Budget) : Demands Session.findings (selectedPods g.1 b) (e, l) b.Asks :=
    demands_selectedPods g.1 b
  refine (Demands.gather (fun b _ => .bind (.say _) (yields_selectedPods g.1 b)) fun b _ => ?_).first _
  exact .later (.say _) (asked b)

theorem breaks_judgeGroup (remote : p.Remote) (g : Option String × List Budget)
    (lapse : ∀ bs b bs' f acts, g.2 = bs ++ b :: bs' → (∀ b ∈ bs, b.Asks) →
      Lapse p g.1 b f acts → D f (bs.flatMap (Evidence.inquiry g.1) ++ acts) (e, l))
    (bare : ∀ b ∈ g.2, ∀ f acts w, Unnamed b f → D f acts w) :
    Breaks Session.findings (Session.Tame p equipped) (judgeGroup g) (e, l) D := by
  have round (b : Budget) : Yields Session.findings (do
      say (.evaluated b.fullName "multiple")
      selectedPods g.1 b) (e, l) (e.selected g.1 b) (e, l) :=
    .bind (.say _) (yields_selectedPods g.1 b)
  have asking (b : Budget) : Follows Session.findings (Session.Tame p equipped) (do
      say (.evaluated b.fullName "multiple")
      selectedPods g.1 b) (e, l) (Evidence.inquiry g.1 b) :=
    .say_bind (follows_of_replayed (follows_selectedPods g.1 b)
      (probing_replayed.probes.selectedPods g.1 b))
  refine .bind (.gather (fun b _ => asking b) (fun b _ => round b)
      (fun b _ => .later (.say _) (demands_selectedPods g.1 b)) ?_)
    (.gather (fun b _ => round b) fun b _ => asking b) (.gather fun b _ => round b)
    (.of_true trivial) fun _ => ?_
  · intro bs b bs' members asked
    exact .say_bind (breaks_selectedPods fun f acts stopped =>
      lapse bs b bs' f acts members asked stopped)
  · -- what is left are marks and signals, which only a budget without metadata breaks off
    have each {act : Budget → Pass Unit} {v : Evidence × Ledger}
        (replayed : ∀ b, Obeys Replayed (act b))
        (signalled : ∀ b ∈ g.2, ∀ v, Breaks Session.findings (Session.Tame p equipped) (act b) v
          fun f _ _ => ∃ b ∈ g.2, Unnamed b f) (script : List Effect) :
        Breaks Session.findings (Session.Tame p equipped) (forEach act g.2) v
          fun f acts w => D f (script ++ acts) w :=
      (Breaks.each (fun b _ s tame => (replayed b s).tame tame) signalled v).mono
        fun f acts w ⟨b, hb, unnamed⟩ => bare b hb f _ w unnamed
    refine .ite (fun _ => .say_bind (.quiet_bind ?_ ?_ (yields_markEach g.2) ?_)) fun _ => ?_
    · exact each (fun b => probing_replayed.probes.mark b)
        (fun b hb v => breaks_mark fun f _ _ unnamed => ⟨b, hb, unnamed⟩) _
    · exact follows_of_replayed (follows_markEach g.2)
        (.forEach fun b _ => probing_replayed.probes.mark b)
    · exact each (fun b => probing_replayed.flag b .multiple (by decide))
        (fun b hb v => breaks_flag remote fun f _ _ unnamed => ⟨b, hb, unnamed⟩) _
    · exact each (fun b => replayed_tally b .multiple _)
        (fun b hb v => breaks_lower fun f _ _ unnamed => ⟨b, hb, unnamed⟩) _

theorem markOverlapping_eq :
    markOverlapping = state >>= fun s =>
      forEach judgeGroup (if s.settings.reapMultiple.holds then s.ledger.multiple else []) :=
  bind_congr fun s => by split <;> rfl

theorem demands_markOverlapping :
    Demands Session.findings markOverlapping (e, l)
      (e.settings.reapMultiple.holds = true → ∀ g ∈ l.multiple, ∀ b ∈ g.2, b.Asks) := by
  rw [markOverlapping_eq]
  refine .state_bind fun s hs => ?_
  obtain ⟨rfl, rfl⟩ := Prod.mk.inj hs
  refine (Demands.forEach (g := fun l => (s.evidence, l)) (fun g _ l => yields_judgeGroup g)
    (fun g _ l => demands_judgeGroup g) _).mono fun asked on g hg => asked g ?_
  have on : s.settings.reapMultiple.holds = true := on
  rwa [if_pos on]

theorem breaks_markOverlapping (remote : p.Remote)
    (lapse : e.settings.reapMultiple.holds = true → ∀ gs g gs' bs b bs' f acts,
      l.multiple = gs ++ g :: gs' → g.2 = bs ++ b :: bs' → (∀ g ∈ gs, ∀ b ∈ g.2, b.Asks) →
      (∀ b ∈ bs, b.Asks) → Lapse p g.1 b f acts →
        D f (gs.flatMap (e.judging equipped) ++ (bs.flatMap (Evidence.inquiry g.1) ++ acts))
          (e, l.markAll (gs.flatMap e.overlapping)))
    (bare : ∀ x ∈ entriesOf l.multiple, ∀ f acts w, Unnamed x.2 f → D f acts w) :
    Breaks Session.findings (Session.Tame p equipped) markOverlapping (e, l) D := by
  rw [markOverlapping_eq]
  refine .state_bind fun s hs _ => ?_
  obtain ⟨rfl, rfl⟩ := Prod.mk.inj hs
  cases on : s.settings.reapMultiple.holds with
  | false => exact .done ()
  | true =>
      rw [if_pos rfl]
      refine .forEach (g := fun l => (s.evidence, l)) (Q := fun g => ∀ b ∈ g.2, b.Asks)
        (fun g _ l => follows_of_replayed (follows_judgeGroup g)
          (probing_replayed.probes.judgeGroup g))
        (fun g _ l => yields_judgeGroup g) (fun g _ l => demands_judgeGroup g) _
        fun gs g gs' groups past => breaks_judgeGroup remote g ?_ ?_
      · intro bs b bs' f acts members asked stopped
        exact lapse on gs g gs' bs b bs' f acts groups members past asked stopped
      · intro b hb f acts w unnamed
        have hg : g ∈ s.ledger.multiple :=
          groups ▸ List.mem_append_right _ (List.mem_cons_self ..)
        exact bare (g.1, b) (mem_entriesOf.mpr ⟨g.2, hg, hb⟩) f _ w unnamed

/-! ### The scan -/

/-- A failure to admit a budget is not one that the program knows as its own. -/
theorem foreign_of_admission {st : Settings} {budgets : List Budget} {f : Failure}
    (h : st.admission budgets = .error f) : f.isReported = false := by
  induction budgets with
  | nil => cases h
  | cons b rest ih =>
      rw [Settings.admission] at h
      split at h
      · obtain rfl := Except.error.inj h
        rfl
      · split at h
        · obtain rfl := Except.error.inj h
          rfl
        · exact ih h

/-- What the scan groups has metadata. -/
theorem named_of_mem_groups {g : Option String × List Budget} (hg : g ∈ e.groups) {b : Budget}
    (hb : b ∈ g.2) : b.metadata ≠ none := by
  obtain ⟨space, bs⟩ := g
  obtain ⟨-, rfl, -⟩ := Evidence.mem_groups.mp hg
  obtain ⟨-, m, hm, -⟩ := Evidence.mem_budgetsOf.mp hb
  rw [hm]
  nofun

theorem acts_tellExcluded (told : List (Option String)) (budgets : List Budget) (s : Session) :
    (tellExcluded told budgets s).trace.filter Effect.isAct = [] := by
  refine Effect.filter_acts_notices fun x hx => ?_
  obtain ⟨space, rfl⟩ := (tellExcluded_apply told budgets s).2.2 x hx
  exact ⟨_, rfl⟩

/-- What is grouped has metadata, so its samples go through: entering the groups breaks nothing off. -/
theorem breaks_enter :
    Breaks Session.findings (Session.Tame p equipped) (enter e.groups) (e, l)
      fun _ _ _ => False := by
  refine .quiet_bind (.update _) (follows_of_replayed (follows_post _) (replayed_post _))
    (yields_post _) ?_
  have sorted (g : Option String × List Budget) (hg : g ∈ e.groups) (v : Evidence × Ledger) :
      Breaks Session.findings (Session.Tame p equipped) (forEach (sort g.1) g.2) v
        fun _ _ _ => False := by
    refine .each (fun b _ s tame => (probing_replayed.probes.sort g.1 b s).tame tame)
      (fun b hb v => ?_) v
    refine .ite (fun _ => ?_) fun _ => .say _
    intro s hs tame f hf
    exact breaks_lower (fun f _ _ unnamed => named_of_mem_groups hg hb unnamed.1) _ rfl
      ((replayed_post _ s).tame tame) f hf
  refine Breaks.each (fun g _ s tame => ?_) (fun g hg v => sorted g hg v) _
  exact (Obeys.forEach (fun b _ => probing_replayed.probes.sort g.1 b) s).tame tame

/-- The scan breaks off at its listing, or at a budget that is not admitted. -/
theorem breaks_scan
    (refused : ∀ fault n, p .listAll n = some fault →
      D (failureOf (.listBudgets "") fault) [.call .listAll] (e, l))
    (unadmitted : ∀ f, e.settings.admission e.budgets = .error f → D f [.call .listAll] (e, l)) :
    Breaks Session.findings (Session.Tame p equipped) scan (e, l) D := by
  have counted : Follows Session.findings (Session.Tame p equipped) (listBudgets "") (e, l)
      [.call .listAll] :=
    follows_of_replayed follows_listBudgets replayed_listBudgets
  refine .bind ?_ counted yields_listBudgets (.of_true trivial) fun _ => .quiet_bind ?_
    (follows_of_replayed (follows_tellExcluded e.budgets [])
      (probing_replayed.probes.tellExcluded e.budgets []))
    (yields_tellExcluded e.budgets []) ?_
  · intro s hs tame f hf
    rw [listBudgets_apply] at hf ⊢
    cases hp : s.cluster.planned .listAll with
    | none =>
        rw [hp] at hf
        cases hf
    | some fault =>
        rw [hp] at hf
        obtain rfl := Except.error.inj hf
        have same : (s.counted .listAll).findings = (e, l) := hs
        rw [Cluster.planned, Cluster.count, tame.plan] at hp
        exact same ▸ refused fault _ hp
  · intro s hs tame f hf
    obtain ⟨rfl, rfl⟩ := Prod.mk.inj hs
    obtain ⟨result, state, -⟩ := tellExcluded_apply [] s.evidence.budgets s
    rw [result] at hf
    rw [acts_tellExcluded, state]
    exact unadmitted f hf
  · exact .quiet_bind (.state_bind fun _ _ _ => .pure _)
      (follows_of_replayed follows_settings (closed_settings Obeys.closed)) yields_settings
      (breaks_enter.mono fun f _ _ never => never.elim)

/-! ### The whole detection -/

theorem Unnamed.wrap {b : Budget} {f : Failure} (h : Unnamed b f) (phase : Phase) :
    Unnamed b (phase.wrap f) := by
  rwa [Phase.wrap_of_foreign phase h.2]

/-- The blocking budgets of a ledger do not change when budgets are marked. -/
theorem blocking_markAll (l : Ledger) (bs : List Budget) : (l.markAll bs).blocking = l.blocking := by
  rw [Ledger.markAll_eq]

theorem demands_detect :
    Demands Session.findings detect (e, l)
      ((e.settings.reapMultiple.holds = true →
          ∀ g ∈ (e.entered l).multiple, ∀ b ∈ g.2, b.Asks) ∧
        ∀ x ∈ entriesOf (e.entered l).blocking, e.Checked x) := by
  refine .state_bind fun s _ => .later (.say _) (.later (.rephrase (yields_scan_onto l) _) ?_)
  refine .and ((demands_markOverlapping.rephrase _).first _)
    (.later (.rephrase yields_markOverlapping _) (.rephrase ?_ _))
  have checked := demands_checkBlocking (e := e)
    (l := (e.entered l).markAll (e.overlaps (e.entered l)))
  rwa [blocking_markAll] at checked

/-- A detection in a tame session breaks off in its scan, or it halts after it. -/
theorem breaks_detect (remote : p.Remote)
    (refused : ∀ fault n, p .listAll n = some fault →
      D (Phase.scan.wrap (failureOf (.listBudgets "") fault)) [.call .listAll] (e, l))
    (unadmitted : ∀ f, e.settings.admission e.budgets = .error f → D f [.call .listAll] (e, l))
    (halted : ∀ phase f acts reached, Halt e p equipped (e.entered l) phase f acts reached →
      D (phase.wrap f) (e.scanning equipped ++ acts) (e, reached))
    (bare : ∀ x, x ∈ entriesOf (e.entered l).multiple ∨ x ∈ entriesOf (e.entered l).blocking →
      ∀ f acts w, Unnamed x.2 f → D f acts w) :
    Breaks Session.findings (Session.Tame p equipped) detect (e, l) D := by
  refine .state_bind fun s _ _ => .say_bind ?_
  refine .bind (.rephrase (breaks_scan refused fun f hf => ?_))
    (follows_of_replayed (.rephrase follows_scan _) (.rephrase probing_replayed.probes.scan _))
    (.rephrase (yields_scan_onto l) _) (.of_true trivial) fun _ => ?_
  · have kept := unadmitted f hf
    rwa [← Phase.wrap_of_foreign .scan (foreign_of_admission hf)] at kept
  refine .bind (.rephrase (breaks_markOverlapping remote ?_ ?_))
    (follows_of_replayed (.rephrase follows_markOverlapping _)
      (.rephrase probing_replayed.probes.markOverlapping _))
    (.rephrase yields_markOverlapping _) (demands_markOverlapping.rephrase _) fun judged =>
      .rephrase (breaks_checkBlocking remote ?_ ?_)
  · intro on gs g gs' bs b bs' f acts groups members past asked lapse
    exact halted _ _ _ _ (.overlap on groups members past asked lapse)
  · intro x hx f acts w unnamed
    exact bare x (Or.inl hx) _ _ w (unnamed.wrap .multiple)
  · intro xs x xs' f acts marks entries past breach
    rw [blocking_markAll] at entries
    exact halted _ _ _ _ (.check judged entries past breach)
  · intro x hx f acts w unnamed
    rw [blocking_markAll] at hx
    exact bare x (Or.inr hx) _ _ w (unnamed.wrap .blocking)

end Pass

end BudgetReaper
