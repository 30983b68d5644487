import BudgetReaper.Proofs.Reaping.Verdict

/-!
# Reaping — looser settings only add victims

Settings are *looser* than others when every check that the others switch on is switched on, at
thresholds that are not higher, and no namespace is left alone that the others do not leave alone; the
modes in which pods are judged are the same (`Settings.Loosens`).  The other settings may be anything.

Every part of what it is to offend is monotone in the settings: the namespaces watched
(`Loosens.watches`), the verdicts of the checks (`Loosens.finds`), and so the budgets that offend
(`Loosens.offends`).  What a detection needs is monotone the other way round: stricter settings ask
for nothing that looser ones do not ask for (`Loosens.tractable`).

**Loosening** (`loosened`).  Where no call fails, a run that gets past its detection under looser
settings does so under stricter ones as well, and marks no key then that it does not mark under the
looser ones.
-/

namespace BudgetReaper

/-- The settings `loose` are looser than `strict`. -/
structure Settings.Loosens (loose strict : Settings) : Prop where
  multiple : strict.reapMultiple.holds = true → loose.reapMultiple.holds = true
  misconfigured : strict.reapMisconfigured.holds = true → loose.reapMisconfigured.holds = true
  crashLoop : strict.reapCrashLoop.holds = true → loose.reapCrashLoop.holds = true
  notReady : strict.reapNotReady.holds = true → loose.reapNotReady.holds = true
  allCrashLoop : loose.allCrashLoop.holds = strict.allCrashLoop.holds
  allNotReady : loose.allNotReady.holds = strict.allNotReady.holds
  restarts : ∃ n n', strict.crashLoopThreshold = .int n ∧ loose.crashLoopThreshold = .int n' ∧ n' ≤ n
  seconds : ∃ n n', strict.notReadySeconds = .int n ∧ loose.notReadySeconds = .int n' ∧ n' ≤ n
  excluded : ∃ spaces fewer, strict.excludedSpaces = .texts spaces ∧
    loose.excludedSpaces = .texts fewer ∧ fewer ⊆ spaces

/-- The evidence under other settings. -/
def Evidence.under (e : Evidence) (settings : Settings) : Evidence :=
  { e with settings }

/-- The session under other settings. -/
def Session.under (s : Session) (settings : Settings) : Session :=
  { s with settings }

/-- A check that is made less often still gives a verdict, if it can be told what it looks for. -/
theorem told_of_fewer {on on' : Bool} {r r' : Except Failure Bool} (fewer : on = true → on' = true)
    (given : ∀ verdict, r' = .ok verdict → ∃ verdict', r = .ok verdict')
    (told : ∃ verdict, (if on' = true then r' else .ok false) = .ok verdict) :
    ∃ verdict, (if on = true then r else .ok false) = .ok verdict := by
  obtain ⟨verdict, told⟩ := told
  cases on with
  | false => exact ⟨false, rfl⟩
  | true =>
      rw [fewer rfl, if_pos rfl] at told
      exact given verdict told

namespace Settings.Loosens

variable {loose strict : Settings} (h : loose.Loosens strict) {e : Evidence}

include h

/-- What stricter settings watch is watched under looser ones. -/
theorem watches {space : Option String} (watched : (e.under strict).Watches space) :
    (e.under loose).Watches space := by
  obtain ⟨spaces, fewer, all, some_of, sub⟩ := h.excluded
  unfold Evidence.Watches at *
  rw [Evidence.under, isExcluded_texts all] at watched
  rw [Evidence.under, isExcluded_texts some_of]
  cases space with
  | none => rfl
  | some name =>
      have missing : name ∉ spaces := by simpa using watched
      have missing' : name ∉ fewer := fun hn => missing (sub hn)
      simpa using missing'

/-- What a check finds under stricter settings it finds under looser ones. -/
theorem finds {b : Budget} {pods : List Pod} {reason : Reason}
    (found : (e.under strict).finds b pods reason = true) :
    (e.under loose).finds b pods reason = true := by
  cases reason with
  | blocking =>
      obtain ⟨on, found⟩ := (Bool.and_eq_true _ _).mp found
      exact (Bool.and_eq_true _ _).mpr ⟨h.misconfigured on, found⟩
  | crashLoop =>
      obtain ⟨n, n', high, low, le⟩ := h.restarts
      simp only [Evidence.finds, Evidence.under, high, low, h.allCrashLoop, Bool.and_eq_true,
        affirms_eq_true_iff] at found ⊢
      exact ⟨h.crashLoop found.1, areCrashLooping_mono le found.2⟩
  | notReady =>
      obtain ⟨n, n', high, low, le⟩ := h.seconds
      simp only [Evidence.finds, Evidence.under, high, low, h.allNotReady, Bool.and_eq_true,
        affirms_eq_true_iff] at found ⊢
      have lower : (Number.whole n').le (.whole n) = true := decide_eq_true le
      exact ⟨h.notReady found.1,
        areNotReady_mono (Value.number?_int n) (Value.number?_int n') lower found.2⟩
  | deleted | multiple => exact found

/-- What offends under stricter settings offends under looser ones. -/
theorem offends {b : Budget} (offends : (e.under strict).Offends b) :
    (e.under loose).Offends b := by
  obtain ⟨m, hm, watched, crowds | ⟨blocks, reason, checked, found⟩⟩ := offends
  · exact ⟨m, hm, h.watches watched,
      Or.inl ⟨h.multiple crowds.enabled, crowds.several, crowds.repeated⟩⟩
  · exact ⟨m, hm, h.watches watched, Or.inr ⟨blocks, reason, checked, h.finds found⟩⟩

/-- A check that gives a verdict under looser settings gives one under stricter ones. -/
theorem tells {entry : Option String × Budget} {reason : Reason}
    (told : (e.under loose).Tells entry reason) : (e.under strict).Tells entry reason := by
  cases reason with
  | blocking => exact told_of_fewer h.misconfigured (fun verdict given => ⟨verdict, given⟩) told
  | crashLoop =>
      obtain ⟨n, -, high, -, -⟩ := h.restarts
      refine told_of_fewer h.crashLoop (fun _ _ => ?_) told
      change ∃ verdict, (areCrashLooping _ strict.crashLoopThreshold _).mapError _ = .ok verdict
      rw [high]
      exact ⟨_, rfl⟩
  | notReady =>
      obtain ⟨n, n', high, low, -⟩ := h.seconds
      refine told_of_fewer h.notReady (fun verdict given => ?_) told
      change (areNotReady _ loose.notReadySeconds (.ofAll loose.allNotReady.holds) _).mapError _ =
        .ok verdict at given
      change ∃ verdict, (areNotReady _ strict.notReadySeconds _ _).mapError _ = .ok verdict
      rw [low, h.allNotReady, mapError_eq_ok_iff] at given
      obtain ⟨verdict', given'⟩ := areNotReady_told (Value.number?_int n) given
      exact ⟨verdict', mapError_eq_ok_iff.mpr (high ▸ given')⟩
  | deleted | multiple => exact told

/-- Stricter settings need nothing that looser ones do not need. -/
theorem tractable (tractable : (e.under loose).Tractable) : (e.under strict).Tractable where
  admitted := by
    obtain ⟨spaces, -, all, -, -⟩ := h.excluded
    refine admission_eq_ok_iff.mpr fun b hb => ?_
    obtain ⟨m, -, hm, -⟩ := admission_eq_ok_iff.mp tractable.admitted b hb
    exact ⟨m, _, hm, isExcluded_texts all m.space⟩
  judged on space watched := tractable.judged (h.multiple on) space (h.watches watched)
  checked space watched b hb blocks := by
    obtain ⟨asks, told⟩ := tractable.checked space (h.watches watched) b hb blocks
    exact ⟨asks, fun reason checked => h.tells (told reason checked)⟩

end Settings.Loosens

namespace Pass

open BudgetReaper.Action

/-- What a run under looser settings tells of one under stricter ones. -/
structure Loosened (loose strict : Session) : Prop where
  /-- The stricter run gets to its deletions if the looser one does. -/
  detected : (detect loose).result = .ok () → (detect strict).result = .ok ()
  /-- What the stricter run marks the looser one marks as well. -/
  marked : (detect loose).result = .ok () →
    Assoc.keys (execute strict).state.ledger.reapable ⊆
      Assoc.keys (execute loose).state.ledger.reapable

/-- Where no call fails, looser settings only add victims. -/
theorem loosened {s : Session} (fresh : s.ledger = {})
    (faultless : s.cluster.plan = Cluster.faultless) (lenient : s.sink.Lenient)
    {loose strict : Settings} (looser : loose.Loosens strict) :
    Loosened (s.under loose) (s.under strict) := by
  have detected (past : (detect (s.under loose)).result = .ok ()) :
      (detect (s.under strict)).result = .ok () := by
    have tractable : (s.evidence.under loose).Tractable :=
      tractable_of_detected (s := s.under loose) fresh past
    exact detected_of_tractable (s := s.under strict) fresh faultless lenient
      (looser.tractable tractable)
  refine ⟨detected, fun past key hk => ?_⟩
  rw [reapable_execute, (ledger_detect (s := s.under strict) fresh (detected past)).2,
    Ledger.mem_keys_markAll, Evidence.scanned_eq] at hk
  rw [reapable_execute, (ledger_detect (s := s.under loose) fresh past).2,
    Ledger.mem_keys_markAll]
  obtain hk | ⟨b, marked, own⟩ := hk
  · cases hk
  · obtain ⟨listed, offends⟩ := Evidence.mem_marked.mp marked
    exact Or.inr ⟨b, Evidence.mem_marked.mpr ⟨listed, looser.offends (e := s.evidence) offends⟩, own⟩

/-- Settings that make every check, at low thresholds, and leave one namespace alone. -/
def eager : Settings where
  reapCrashLoop := .bool true
  crashLoopThreshold := .int 1
  reapNotReady := .bool true
  notReadySeconds := .int 0
  excludedSpaces := .texts ["kube-system"]

/-- Settings that do not look for overlaps, and leave a second namespace alone. -/
def cautious : Settings where
  reapMultiple := .bool false
  excludedSpaces := .texts ["kube-public", "kube-system"]

theorem eager_loosens_cautious : eager.Loosens cautious where
  multiple _ := rfl
  misconfigured _ := rfl
  crashLoop _ := rfl
  notReady _ := rfl
  allCrashLoop := rfl
  allNotReady := rfl
  restarts := ⟨5, 1, rfl, rfl, by decide⟩
  seconds := ⟨1800, 0, rfl, rfl, by decide⟩
  excluded := ⟨_, _, rfl, rfl, by decide⟩

/-- In the shop the cautious run marks the budget that is misconfigured, and the eager one marks the
other one as well. -/
theorem loosened_shop :
    (shop Cluster.faultless .absent).ledger = {} ∧
      (shop Cluster.faultless .absent).cluster.plan = Cluster.faultless ∧
      (shop Cluster.faultless .absent).sink.Lenient ∧ eager.Loosens cautious ∧
      (detect ((shop Cluster.faultless .absent).under eager)).result = .ok () ∧
      Assoc.keys (execute ((shop Cluster.faultless .absent).under cautious)).state.ledger.reapable =
        [(some "shop", some "web")] ∧
      Assoc.keys (execute ((shop Cluster.faultless .absent).under eager)).state.ledger.reapable =
        [(some "shop", some "web"), (some "shop", some "api")] ∧
      Loosened ((shop Cluster.faultless .absent).under eager)
        ((shop Cluster.faultless .absent).under cautious) :=
  ⟨rfl, rfl, Sink.lenient_absent, eager_loosens_cautious, by rfl, by rfl, by rfl,
    loosened rfl rfl Sink.lenient_absent eager_loosens_cautious⟩

end Pass

end BudgetReaper
