import BudgetReaper.Proofs.Reaping.Verdict

/-!
# Crash loops — what the verdict about a list of pods says

A pod loops if one of the containers that it reports waits in a crash loop and has restarted often enough
(`Pod.Loops`).  However many of its containers do, it is counted once.

**Verdicts** (`looped`).  In one mode every pod has to loop, so that a single healthy pod decides; in the
other some pod has to.  Nothing depends on the order of the pods and of what they report, nor on whether a
container is an init or a regular one.  A verdict that pods loop is kept if they restart more often, if
the threshold is lowered, and, as the mode is, if pods are left out or added.
-/

namespace BudgetReaper

/-! ### Containers and pods -/

/-- The container waits in a crash loop and has restarted at least `n` times; an absent count is zero. -/
structure ContainerStatus.Loops (c : ContainerStatus) (n : Int) : Prop where
  waits : ∃ state waiting, c.state = some state ∧ state.waiting = some waiting ∧
    waiting.reason = some "CrashLoopBackOff"
  reached : n ≤ c.restarts.getD 0

theorem ContainerStatus.isCrashLooping_iff {c : ContainerStatus} {n : Int} :
    c.isCrashLooping (.whole n) = true ↔ c.Loops n := by
  rw [isCrashLooping_whole]
  constructor
  · intro looping
    split at looping
    · cases looping
    · next waiting given =>
        obtain ⟨state, reported, waits⟩ := Option.bind_eq_some_iff.mp given
        obtain ⟨reached, reason⟩ := (Bool.and_eq_true _ _).mp looping
        exact ⟨⟨state, waiting, reported, waits, eq_of_beq reason⟩, of_decide_eq_true reached⟩
  · rintro ⟨⟨state, waiting, reported, waits, reason⟩, reached⟩
    simp [reported, waits, reason, reached, crashLoopReason]

/-- The pod reports the container, as an init or as a regular one. -/
def Pod.Reports (p : Pod) (c : ContainerStatus) : Prop :=
  ∃ status, p.status = some status ∧
    ((∃ cs, status.init = some cs ∧ c ∈ cs) ∨ ∃ cs, status.containers = some cs ∧ c ∈ cs)

theorem Pod.mem_containers_iff {p : Pod} {c : ContainerStatus} : c ∈ p.containers ↔ p.Reports c := by
  have listed (cs? : Option (List ContainerStatus)) :
      c ∈ cs?.getD [] ↔ ∃ cs, cs? = some cs ∧ c ∈ cs := by
    cases cs? <;> simp
  unfold containers Reports
  cases p.status with
  | none => simp
  | some status => simp [PodStatus.allContainers, listed]

/-- Some container that the pod reports waits in a crash loop and has restarted at least `n` times. -/
def Pod.Loops (p : Pod) (n : Int) : Prop :=
  ∃ c, p.Reports c ∧ c.Loops n

theorem Pod.isCrashLooping_iff {p : Pod} {n : Int} : p.isCrashLooping (.whole n) = true ↔ p.Loops n := by
  simp only [isCrashLooping, List.any_eq_true, Loops, mem_containers_iff,
    ContainerStatus.isCrashLooping_iff]

instance (p : Pod) (n : Int) : Decidable (p.Loops n) :=
  decidable_of_iff _ Pod.isCrashLooping_iff

/-! ### Lists of pods -/

/-- Each pod that loops is counted once. -/
theorem areCrashLooping_int (pods : List Pod) (n : Int) (mode : Mode) :
    areCrashLooping pods (.int n) mode =
      .ok (mode.judge (pods.countP fun p => decide (p.Loops n)) pods.length) := by
  have same (p : Pod) : p.isCrashLooping (.whole n) = decide (p.Loops n) :=
    Bool.eq_iff_iff.mpr (Pod.isCrashLooping_iff.trans decide_eq_true_iff.symm)
  simp only [← same]
  rfl

theorem areCrashLooping_every (pods : List Pod) (n : Int) :
    areCrashLooping pods (.int n) .every = .ok (decide (∀ p ∈ pods, p.Loops n)) := by
  rw [areCrashLooping_int, Mode.judge, Except.ok.injEq, Bool.eq_iff_iff, beq_iff_eq,
    List.countP_eq_length, decide_eq_true_iff]
  simp only [decide_eq_true_iff]

theorem areCrashLooping_some (pods : List Pod) (n : Int) :
    areCrashLooping pods (.int n) .some = .ok (decide (∃ p ∈ pods, p.Loops n)) := by
  rw [areCrashLooping_int, Mode.judge, Except.ok.injEq, Bool.eq_iff_iff, decide_eq_true_iff,
    List.countP_pos_iff, decide_eq_true_iff]
  simp only [decide_eq_true_iff]

/-! ### More restarts -/

/-- The same container after as many restarts or more. -/
structure ContainerStatus.Raises (c c' : ContainerStatus) : Prop where
  state : c'.state = c.state
  restarts : c.restarts.getD 0 ≤ c'.restarts.getD 0

theorem ContainerStatus.Raises.loops {c c' : ContainerStatus} {n n' : Int} (h : c.Raises c')
    (lower : n' ≤ n) (loops : c.Loops n) : c'.Loops n' where
  waits := h.state ▸ loops.waits
  reached := Int.le_trans lower (Int.le_trans loops.reached h.restarts)

/-- The same pod, each of its containers after as many restarts or more. -/
structure Pod.Raises (p p' : Pod) : Prop where
  containers : List.Forall₂ ContainerStatus.Raises p.containers p'.containers

/-- What is in a list has its counterpart in a related one. -/
theorem exists_mem_of_forall₂ {α β : Type} {R : α → β → Prop} {l : List α} {l' : List β}
    (h : List.Forall₂ R l l') {a : α} (ha : a ∈ l) : ∃ b ∈ l', R a b := by
  induction h with
  | nil => cases ha
  | cons first _ ih =>
      rcases List.mem_cons.mp ha with rfl | ha
      · exact ⟨_, List.mem_cons_self, first⟩
      · obtain ⟨b, hb, related⟩ := ih ha
        exact ⟨b, List.mem_cons_of_mem _ hb, related⟩

theorem Pod.Raises.loops {p p' : Pod} {n n' : Int} (h : p.Raises p') (lower : n' ≤ n)
    (loops : p.Loops n) : p'.Loops n' := by
  obtain ⟨c, reported, looping⟩ := loops
  obtain ⟨c', reported', raised⟩ := exists_mem_of_forall₂ h.containers (mem_containers_iff.mpr reported)
  exact ⟨c', mem_containers_iff.mp reported', raised.loops lower looping⟩

/-- Pods that loop still do after more restarts and at a lower threshold. -/
theorem areCrashLooping_raised {pods pods' : List Pod} {n n' : Int} {mode : Mode}
    (raised : List.Forall₂ Pod.Raises pods pods') (lower : n' ≤ n)
    (h : areCrashLooping pods (.int n) mode = .ok true) :
    areCrashLooping pods' (.int n') mode = .ok true := by
  cases mode with
  | every =>
      rw [areCrashLooping_every, Except.ok.injEq, decide_eq_true_iff] at h ⊢
      intro p' hp'
      obtain ⟨p, hp, more⟩ := exists_mem_of_forall₂ raised.flip hp'
      exact more.loops lower (h p hp)
  | some =>
      rw [areCrashLooping_some, Except.ok.injEq, decide_eq_true_iff] at h ⊢
      obtain ⟨p, hp, loops⟩ := h
      obtain ⟨p', hp', more⟩ := exists_mem_of_forall₂ raised hp
      exact ⟨p', hp', more.loops lower loops⟩

/-! ### The meaning of a verdict -/

/-- What a verdict about crash loops says, and what changes nothing about it. -/
structure Looped (pods : List Pod) (n : Int) : Prop where
  /-- In one mode every pod has to loop. -/
  every : areCrashLooping pods (.int n) .every = .ok (decide (∀ p ∈ pods, p.Loops n))
  /-- In the other some pod has to. -/
  some : areCrashLooping pods (.int n) .some = .ok (decide (∃ p ∈ pods, p.Loops n))
  /-- Without pods every pod loops, and none does. -/
  empty : areCrashLooping [] (.int n) .every = .ok true ∧ areCrashLooping [] (.int n) .some = .ok false
  /-- What counts is the number of pods that loop, whatever the number of their containers. -/
  counted (mode : Mode) : areCrashLooping pods (.int n) mode =
    .ok (mode.judge (pods.countP fun p => decide (p.Loops n)) pods.length)
  /-- Nothing makes up for a healthy pod. -/
  healthy : (∃ p ∈ pods, ¬ p.Loops n) → areCrashLooping pods (.int n) .every = .ok false
  /-- No order counts, nor whether a container is an init or a regular one. -/
  regrouped (mode : Mode) (pods' : List Pod) : Pods.Regroup pods pods' →
    areCrashLooping pods' (.int n) mode = areCrashLooping pods (.int n) mode
  /-- Pods that loop still do after more restarts and at a lower threshold. -/
  raised (mode : Mode) (pods' : List Pod) (n' : Int) : List.Forall₂ Pod.Raises pods pods' → n' ≤ n →
    areCrashLooping pods (.int n) mode = .ok true → areCrashLooping pods' (.int n') mode = .ok true
  /-- Some of them still do with more pods. -/
  added (pods' : List Pod) : pods ⊆ pods' →
    areCrashLooping pods (.int n) .some = .ok true → areCrashLooping pods' (.int n) .some = .ok true
  /-- All of them still do with fewer pods. -/
  removed (pods' : List Pod) : pods' ⊆ pods →
    areCrashLooping pods (.int n) .every = .ok true → areCrashLooping pods' (.int n) .every = .ok true

/-- A verdict about crash loops is one about every pod or about some pod. -/
theorem looped (pods : List Pod) (n : Int) : Looped pods n where
  every := areCrashLooping_every pods n
  some := areCrashLooping_some pods n
  empty := ⟨rfl, rfl⟩
  counted := areCrashLooping_int pods n
  healthy := by
    rintro ⟨p, hp, healthy⟩
    rw [areCrashLooping_every, decide_eq_false fun all => healthy (all p hp)]
  regrouped mode _ moved := (areCrashLooping_regroup moved (.int n) mode).symm
  raised _ _ _ raised lower := areCrashLooping_raised raised lower
  added pods' more h := by
    rw [areCrashLooping_some, Except.ok.injEq, decide_eq_true_iff] at h ⊢
    obtain ⟨p, hp, loops⟩ := h
    exact ⟨p, more hp, loops⟩
  removed pods' fewer h := by
    rw [areCrashLooping_every, Except.ok.injEq, decide_eq_true_iff] at h ⊢
    exact fun p hp => h p (fewer hp)

/-- A container that waits in a crash loop. -/
def loopingContainer (restarts : Option Int) : ContainerStatus :=
  { restarts, state := some { waiting := some { reason := some "CrashLoopBackOff" } } }

/-- A pod with two containers in a crash loop, one of them an init container. -/
def twinPod : Pod :=
  { name := some "cart", space := some "shop"
    status := some
      { init := some [loopingContainer (some 5)]
        containers := some [loopingContainer (some 7)]
        conditions := none } }

/-- The same pod with both containers regular ones, in the other order. -/
def mergedPod : Pod :=
  { twinPod with
    status := some
      { init := none
        containers := some [loopingContainer (some 7), loopingContainer (some 5)]
        conditions := none } }

/-- A pod whose container has never restarted. -/
def freshPod : Pod :=
  { name := some "till", space := some "shop"
    status := some { init := none, containers := some [loopingContainer none], conditions := none } }

/-- Of two pods one has two containers in a crash loop, and still only some pod loops; without the other
one every pod does, and also with its containers regrouped. -/
theorem looped_twin :
    areCrashLooping [twinPod, freshPod] (.int 5) .every = .ok false ∧
      areCrashLooping [twinPod, freshPod] (.int 5) .some = .ok true ∧
      areCrashLooping [twinPod] (.int 5) .every = .ok true ∧
      areCrashLooping [mergedPod] (.int 5) .every = .ok true ∧
      areCrashLooping [twinPod, freshPod] (.int 0) .every = .ok true := by
  have regroup : Pods.Regroup [twinPod] [mergedPod] :=
    ⟨[twinPod], .refl _, .cons (.swap _ _ _) .nil⟩
  have both := looped [twinPod, freshPod] 5
  have one := (looped [twinPod] 5).every
  have all := (looped [twinPod, freshPod] 0).every
  refine ⟨both.healthy ⟨freshPod, by simp, by decide⟩, both.some.trans (congrArg _ ?_), one.trans ?_,
    ((looped [twinPod] 5).regrouped .every _ regroup).trans (one.trans ?_), all.trans ?_⟩
  all_goals decide

end BudgetReaper
