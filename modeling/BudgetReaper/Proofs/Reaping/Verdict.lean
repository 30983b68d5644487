import Mathlib.Data.List.Perm.Basic
import BudgetReaper.Proofs.Number
import BudgetReaper.Proofs.Reaping.Containment

/-!
# Reaping — verdicts about pods

A check counts the pods with a defect, and its verdict depends on that count and on the number of
pods alone.  Where the check of readiness gives a verdict at all, it counts the pods of which some
condition has lasted (`areNotReady_eq_ok`), whichever condition it came to first.

**Thresholds** (`areCrashLooping_mono`, `areNotReady_mono`).  A defect found at a threshold is found at
every lower one.

**Order** (`areCrashLooping_alike`, `areNotReady_alike`).  Pods that differ in their order, and in the
order of what they report of themselves, are given the same verdict.  For readiness that needs a clock
with a zone and a threshold that is an integer: a condition that cannot be dated ends a check that
comes to it, and the check does not come to it once an earlier one has decided about the pod.
-/

namespace BudgetReaper

theorem affirms_eq_true_iff {ε : Type} {r : Except ε Bool} :
    affirms r = true ↔ r = .ok true := by
  cases r with
  | ok verdict => simp [affirms]
  | error f => simp [affirms]

theorem mapError_eq_ok_iff {ε ε' α : Type} {words : ε → ε'} {r : Except ε α} {x : α} :
    r.mapError words = .ok x ↔ r = .ok x := by
  cases r <;> simp [Except.mapError]

/-- A check finds what its verdict affirms. -/
theorem Evidence.affirms_verdict (e : Evidence) (b : Budget) (pods : List Pod) (reason : Reason) :
    affirms (e.verdict b pods reason) = e.finds b pods reason := by
  have worded {ε : Type} (words : ε → Failure) (r : Except ε Bool) :
      affirms (r.mapError words) = affirms r := by
    cases r <;> rfl
  cases reason with
  | blocking =>
      rw [verdict, finds]
      cases e.settings.reapMisconfigured.holds with
      | false => rfl
      | true =>
          cases b.spec with
          | none => rfl
          | some spec => simp [worded]
  | crashLoop =>
      rw [verdict, finds]
      cases e.settings.reapCrashLoop.holds with
      | false => rfl
      | true => simp [worded]
  | notReady =>
      rw [verdict, finds]
      cases e.settings.reapNotReady.holds with
      | false => rfl
      | true => simp [worded]
  | deleted | multiple => rfl

/-! ### Counting -/

/-- More pods with a defect do not make the defect of the list go away. -/
theorem Mode.judge_mono {mode : Mode} {n n' total : Nat} (le : n ≤ n') (bound : n' ≤ total)
    (h : mode.judge n total = true) : mode.judge n' total = true := by
  cases mode with
  | every =>
      have all : n = total := by simpa [judge] using h
      have all' : n' = total := by omega
      simp [judge, all']
  | some =>
      have one : 0 < n := by simpa [judge] using h
      simpa [judge] using Nat.lt_of_lt_of_le one le

section Readiness

variable {threshold : Value} {now : Stamp}

/-- A verdict about conditions is whether one of them says so and has lasted. -/
theorem anyNotReady_eq_ok {conditions : List Condition} {found : Bool}
    (told : anyNotReady threshold now conditions = .ok found) :
    found = conditions.any fun c => c.isNotReady && affirms (isPast c.since threshold now) := by
  induction conditions with
  | nil => exact (Except.ok.inj told).symm
  | cons c rest ih =>
      rw [anyNotReady] at told
      rw [List.any_cons]
      cases hc : c.isNotReady with
      | false =>
          rw [hc] at told
          simpa using ih told
      | true =>
          rw [hc] at told
          cases hp : isPast c.since threshold now with
          | error f =>
              rw [hp] at told
              cases told
          | ok past =>
              rw [hp] at told
              cases past with
              | true => simpa [affirms] using (Except.ok.inj told).symm
              | false => simpa [affirms] using ih told

/-- A count of pods is that of the pods found not ready. -/
theorem countNotReady_eq_ok {pods : List Pod} {n : Nat}
    (told : countNotReady threshold now pods = .ok n) :
    n = pods.countP fun p => affirms (p.isNotReady threshold now) := by
  induction pods generalizing n with
  | nil => exact (Except.ok.inj told).symm
  | cons p rest ih =>
      rw [countNotReady] at told
      cases hp : p.isNotReady threshold now with
      | error f =>
          rw [hp] at told
          cases told
      | ok here =>
          cases hr : countNotReady threshold now rest with
          | error f =>
              rw [hp, hr] at told
              cases told
          | ok later =>
              rw [hp, hr] at told
              obtain rfl : (if here then 1 else 0) + later = n := Except.ok.inj told
              rw [ih hr, List.countP_cons, hp, Nat.add_comm]
              rfl

/-- A verdict about readiness is judged by the pods found not ready. -/
theorem areNotReady_eq_ok {pods : List Pod} {mode : Mode} {verdict : Bool}
    (told : areNotReady pods threshold mode now = .ok verdict) :
    verdict = mode.judge (pods.countP fun p => affirms (p.isNotReady threshold now))
      pods.length := by
  rw [areNotReady] at told
  cases hn : countNotReady threshold now pods with
  | error f =>
      rw [hn] at told
      cases told
  | ok n =>
      rw [hn] at told
      rw [← countNotReady_eq_ok hn]
      exact (Except.ok.inj told).symm

/-- What is told of a pod is whether one of its conditions has lasted. -/
theorem isNotReady_eq_ok {p : Pod} {found : Bool} (told : p.isNotReady threshold now = .ok found) :
    found = ((p.status.bind PodStatus.conditions).getD []).any fun c =>
      c.isNotReady && affirms (isPast c.since threshold now) := by
  unfold Pod.isNotReady at told
  cases hs : p.status with
  | none =>
      rw [hs] at told
      exact (Except.ok.inj told).symm
  | some status =>
      rw [hs] at told
      exact anyNotReady_eq_ok told

end Readiness

/-! ### Lower thresholds -/

section Thresholds

variable {n n' : Int} (le : n' ≤ n)

include le

theorem ContainerStatus.isCrashLooping_mono {c : ContainerStatus}
    (h : c.isCrashLooping (.whole n) = true) : c.isCrashLooping (.whole n') = true := by
  rw [isCrashLooping_whole] at h ⊢
  split at h
  · cases h
  · obtain ⟨reached, reason⟩ := (Bool.and_eq_true _ _).mp h
    have reached' := Int.le_trans le (of_decide_eq_true reached)
    rw [reason, decide_eq_true reached']
    rfl

/-- Pods in a crash loop at a threshold are in one at every lower threshold. -/
theorem areCrashLooping_mono {pods : List Pod} {mode : Mode}
    (h : areCrashLooping pods (.int n) mode = .ok true) :
    areCrashLooping pods (.int n') mode = .ok true := by
  have more : pods.countP (·.isCrashLooping (.whole n)) ≤
      pods.countP (·.isCrashLooping (.whole n')) := by
    refine List.countP_mono_left fun p _ looping => ?_
    obtain ⟨c, hc, looping⟩ := List.any_eq_true.mp looping
    exact List.any_eq_true.mpr ⟨c, hc, c.isCrashLooping_mono le looping⟩
  exact congrArg Except.ok (Mode.judge_mono more List.countP_le_length (Except.ok.inj h))

end Thresholds

/-- A time that is past a threshold is past every lower one. -/
theorem isPast_mono {threshold threshold' : Value} {limit limit' : Number}
    (number : threshold.number? = some limit) (number' : threshold'.number? = some limit')
    (le : limit'.le limit = true) {since : Option Stamp} {now : Stamp}
    (h : affirms (isPast since threshold now) = true) :
    affirms (isPast since threshold' now) = true := by
  cases since with
  | none => rfl
  | some t =>
      cases elapsed : now.elapsed? t with
      | none =>
          simp only [isPast, elapsed] at h
          cases h
      | some micros =>
          rw [isPast_of_elapsed number elapsed] at h
          rw [isPast_of_elapsed number' elapsed]
          exact Number.le_trans le h

/-- Without a zone for the clock no threshold makes a difference. -/
theorem isPast_of_unzoned {now : Stamp} (unzoned : now.offset = none) (since : Option Stamp)
    (v w : Value) : isPast since v now = isPast since w now := by
  cases since with
  | none => rfl
  | some t => simp only [isPast, (Stamp.elapsed?_eq_none_iff now t).mpr unzoned]

theorem areNotReady_of_unzoned {now : Stamp} (unzoned : now.offset = none) (pods : List Pod)
    (mode : Mode) (v w : Value) : areNotReady pods v mode now = areNotReady pods w mode now := by
  have conditions (cs : List Condition) : anyNotReady v now cs = anyNotReady w now cs := by
    induction cs with
    | nil => rfl
    | cons c rest ih => rw [anyNotReady, anyNotReady, isPast_of_unzoned unzoned c.since v w, ih]
  have count : countNotReady v now pods = countNotReady w now pods := by
    induction pods with
    | nil => rfl
    | cons p rest ih => simp only [countNotReady, Pod.isNotReady, conditions, ih]
  rw [areNotReady, areNotReady, count]

section Numbers

variable {now : Stamp} {threshold threshold' : Value} {limit limit' : Number}
  (number : threshold.number? = some limit) (number' : threshold'.number? = some limit')

include number'

/-- Readiness is told at every number if it is told at all. -/
theorem areNotReady_told {pods : List Pod} {mode : Mode} {verdict : Bool}
    (told : areNotReady pods threshold mode now = .ok verdict) :
    ∃ verdict', areNotReady pods threshold' mode now = .ok verdict' := by
  by_cases zoned : now.offset = none
  · exact ⟨verdict, (areNotReady_of_unzoned zoned pods mode _ _).trans told⟩
  · exact exists_areNotReady zoned number' pods mode

omit number'

include number

/-- With a zone for the clock and a number for a threshold, a pod is not ready exactly if one of its
conditions has lasted. -/
theorem affirms_isNotReady (zoned : now.offset ≠ none) (p : Pod) :
    affirms (p.isNotReady threshold now) =
      ((p.status.bind PodStatus.conditions).getD []).any fun c =>
        c.isNotReady && affirms (isPast c.since threshold now) := by
  obtain ⟨found, told⟩ := p.exists_isNotReady zoned number
  rw [← isNotReady_eq_ok told, told]
  rfl

include number'

/-- Pods that are not ready at a threshold are not ready at every lower threshold. -/
theorem areNotReady_mono (le : limit'.le limit = true) {pods : List Pod} {mode : Mode}
    (h : areNotReady pods threshold mode now = .ok true) :
    areNotReady pods threshold' mode now = .ok true := by
  by_cases zoned : now.offset = none
  · exact (areNotReady_of_unzoned zoned pods mode _ _).trans h
  · obtain ⟨verdict', told⟩ := exists_areNotReady zoned number' pods mode
    have more : pods.countP (fun p => affirms (p.isNotReady threshold now)) ≤
        pods.countP fun p => affirms (p.isNotReady threshold' now) := by
      refine List.countP_mono_left fun p _ lasted => ?_
      rw [affirms_isNotReady number zoned] at lasted
      rw [affirms_isNotReady number' zoned]
      obtain ⟨c, hc, lasted⟩ := List.any_eq_true.mp lasted
      obtain ⟨unready, past⟩ := (Bool.and_eq_true _ _).mp lasted
      refine List.any_eq_true.mpr ⟨c, hc, (Bool.and_eq_true _ _).mpr ⟨unready, ?_⟩⟩
      exact isPast_mono number number' le past
    have found := (areNotReady_eq_ok h).symm
    rw [told, areNotReady_eq_ok told, Mode.judge_mono more List.countP_le_length found]

end Numbers

/-! ### Another order -/

/-- What is the same of related items is counted alike. -/
theorem countP_eq_of_forall₂ {α : Type} {R : α → α → Prop} {l l' : List α} (h : List.Forall₂ R l l')
    {p : α → Bool} (same : ∀ a b, R a b → p a = p b) : l.countP p = l'.countP p := by
  induction h with
  | nil => rfl
  | cons first _ ih => rw [List.countP_cons, List.countP_cons, ih, same _ _ first]

/-- A pod reports the same of itself in another order. -/
structure PodStatus.Alike (s s' : PodStatus) : Prop where
  init : (s.init.getD []).Perm (s'.init.getD [])
  containers : (s.containers.getD []).Perm (s'.containers.getD [])
  conditions : (s.conditions.getD []).Perm (s'.conditions.getD [])

/-- Pods of one name that report the same of themselves in another order. -/
structure Pod.Alike (p q : Pod) : Prop where
  name : p.name = q.name
  space : p.space = q.space
  status : Option.Rel PodStatus.Alike p.status q.status

/-- Pods in another order, each of them reporting the same of itself in another order. -/
def Pods.Alike (pods pods' : List Pod) : Prop :=
  ∃ mid, pods.Perm mid ∧ List.Forall₂ Pod.Alike mid pods'

theorem PodStatus.Alike.symm {s s' : PodStatus} (h : s.Alike s') : s'.Alike s :=
  ⟨h.init.symm, h.containers.symm, h.conditions.symm⟩

namespace Pod.Alike

variable {p q : Pod}

theorem symm (h : p.Alike q) : q.Alike p where
  name := h.name.symm
  space := h.space.symm
  status := by
    obtain ⟨_, _, status⟩ := p
    obtain ⟨_, _, status'⟩ := q
    have reported : Option.Rel PodStatus.Alike status status' := h.status
    cases reported with
    | none => exact .none
    | some alike => exact .some alike.symm

theorem containers (h : p.Alike q) : p.containers.Perm q.containers := by
  obtain ⟨_, _, status⟩ := p
  obtain ⟨_, _, status'⟩ := q
  have reported : Option.Rel PodStatus.Alike status status' := h.status
  cases reported with
  | none => exact .refl _
  | some alike => exact alike.init.append alike.containers

theorem conditions (h : p.Alike q) :
    ((p.status.bind PodStatus.conditions).getD []).Perm
      ((q.status.bind PodStatus.conditions).getD []) := by
  obtain ⟨_, _, status⟩ := p
  obtain ⟨_, _, status'⟩ := q
  have reported : Option.Rel PodStatus.Alike status status' := h.status
  cases reported with
  | none => exact .refl _
  | some alike => exact alike.conditions

end Pod.Alike

namespace Pods.Alike

variable {pods pods' : List Pod}

theorem symm (h : Pods.Alike pods pods') : Pods.Alike pods' pods := by
  obtain ⟨mid, perm, alike⟩ := h
  have flipped : List.Forall₂ Pod.Alike pods' mid := alike.flip.imp fun _ _ => Pod.Alike.symm
  have moved : Relation.Comp (List.Forall₂ Pod.Alike) List.Perm pods' pods :=
    ⟨mid, flipped, perm.symm⟩
  rw [List.forall₂_comp_perm_eq_perm_comp_forall₂] at moved
  exact moved

/-- What is the same of pods that are alike is counted alike. -/
theorem countP_eq (h : Pods.Alike pods pods') {defect : Pod → Bool}
    (same : ∀ p q : Pod, p.Alike q → defect p = defect q) :
    pods.countP defect = pods'.countP defect := by
  obtain ⟨mid, perm, alike⟩ := h
  exact perm.countP_eq _ |>.trans (countP_eq_of_forall₂ alike same)

theorem length_eq (h : Pods.Alike pods pods') : pods.length = pods'.length := by
  obtain ⟨mid, perm, alike⟩ := h
  exact perm.length_eq.trans alike.length_eq

theorem names (h : Pods.Alike pods pods') : (pods.map Pod.name).Perm (pods'.map Pod.name) := by
  obtain ⟨mid, perm, alike⟩ := h
  have same : mid.map Pod.name = pods'.map Pod.name := by
    clear perm
    induction alike with
    | nil => rfl
    | cons first _ ih => rw [List.map_cons, List.map_cons, first.name, ih]
  exact same ▸ perm.map Pod.name

end Pods.Alike

/-- Pods in another order, each of them reporting the same containers, in another order and each as an
init or as a regular one. -/
def Pods.Regroup (pods pods' : List Pod) : Prop :=
  ∃ mid, pods.Perm mid ∧ List.Forall₂ (fun p q => p.containers.Perm q.containers) mid pods'

/-- Pods that report the same containers are in a crash loop together. -/
theorem areCrashLooping_regroup {pods pods' : List Pod} (h : Pods.Regroup pods pods')
    (threshold : Value) (mode : Mode) :
    areCrashLooping pods threshold mode = areCrashLooping pods' threshold mode := by
  obtain ⟨mid, perm, regrouped⟩ := h
  have counted (defect : ContainerStatus → Bool) :
      pods.countP (·.containers.any defect) = pods'.countP (·.containers.any defect) :=
    (perm.countP_eq _).trans (countP_eq_of_forall₂ regrouped fun _ _ moved => moved.any_eq)
  have waiting : pods.any Pod.isWaiting = pods'.any Pod.isWaiting := by
    rw [Bool.eq_iff_iff, List.any_eq_true, List.any_eq_true, ← List.countP_pos_iff,
      ← List.countP_pos_iff]
    exact iff_of_eq (congrArg (0 < ·) (counted ContainerStatus.isWaiting))
  unfold areCrashLooping
  rw [perm.length_eq.trans regrouped.length_eq, waiting]
  split
  · exact congrArg (fun n => Except.ok (mode.judge n _)) (counted _)
  · rfl

/-- Pods that are alike are in a crash loop together. -/
theorem areCrashLooping_alike {pods pods' : List Pod} (h : Pods.Alike pods pods')
    (threshold : Value) (mode : Mode) :
    areCrashLooping pods threshold mode = areCrashLooping pods' threshold mode := by
  obtain ⟨mid, perm, alike⟩ := h
  exact areCrashLooping_regroup ⟨mid, perm, alike.imp fun _ _ => Pod.Alike.containers⟩ threshold mode

/-- Pods that are alike are not ready together. -/
theorem areNotReady_alike {pods pods' : List Pod} (h : Pods.Alike pods pods') {now : Stamp}
    (zoned : now.offset ≠ none) (n : Int) (mode : Mode) :
    areNotReady pods (.int n) mode now = areNotReady pods' (.int n) mode now := by
  have number := Value.number?_int n
  obtain ⟨verdict, told⟩ := exists_areNotReady zoned number pods mode
  obtain ⟨verdict', told'⟩ := exists_areNotReady zoned number pods' mode
  have lasted (p q : Pod) (alike : p.Alike q) :
      affirms (p.isNotReady (.int n) now) = affirms (q.isNotReady (.int n) now) := by
    rw [affirms_isNotReady number zoned, affirms_isNotReady number zoned]
    exact alike.conditions.any_eq
  rw [told, told', areNotReady_eq_ok told, areNotReady_eq_ok told', h.length_eq,
    h.countP_eq lasted]

end BudgetReaper
