import BudgetReaper.Proofs.Reaping.Verdict
import BudgetReaper.Proofs.Stamp

/-!
# Readiness — how long a condition has lasted

The age of a condition is the difference of two instants in microseconds, or that of two clocks if they
show the time of one zone.  It is turned into seconds, a double, before it is compared with a threshold.

**Timing** (`timed`).  Up to `2 ^ 34` seconds the comparison with a whole number of seconds is exact all
the same: half a unit of the double is worth less than a microsecond.  A threshold that is a double itself
is never reached too late, but it may be reached too early, by less than that.  A greater age is past no
fewer thresholds, at any age (`Stamp.seconds_mono`).  So pods that are not ready stay so as time passes and
as the threshold is lowered (`areNotReady_later`), and the verdict about a list is that about every pod of
it, or about some pod (`told_every`, `told_some`).

**Zones** (`not_always_timed`).  All this is about instants as long as no zone has changed its offset
between a transition and a clock that shares the zone (`Stamp.Steady`); a clock with a fixed offset shares
none.  Where a shared zone has, the clocks are compared, and neither is the verdict that about the
instants, nor is it kept as time passes.
-/

namespace BudgetReaper

namespace Stamp

section Near

variable {micros : Int} (near : |micros| < 2 ^ 34 * 1000000)

include near

theorem natAbs_lt : micros.natAbs < 2 ^ 34 * microsPerSecond := by
  rw [Int.abs_eq_natAbs] at near
  rw [microsPerSecond]
  omega

/-- An age of less than `2 ^ 34` seconds is rounded by less than a microsecond, and not across a whole
second. -/
theorem value?_seconds :
    ∃ w, (Number.real (seconds micros)).value? = some w ∧ |w * 1000000 - micros| < 1 ∧
      ∀ n : Int, n ≤ w ↔ n * 1000000 ≤ micros := by
  have spaced : 0 < microsPerSecond := by decide
  have narrow : microsPerSecond < 2 ^ (54 - 34) := by decide
  obtain ⟨w, number, close⟩ := Binary64.close_ofIntRatio spaced (by decide) narrow (natAbs_lt near)
  refine ⟨w, number, close, fun n => ?_⟩
  rw [← Binary64.atLeast_iff number,
    Binary64.atLeast_ofIntRatio_iff spaced (by decide) narrow (natAbs_lt near).le, microsPerSecond]
  norm_cast

variable {limit : Number}

/-- Such an age reaches a whole number of seconds exactly if it is that long. -/
theorem whole_le_seconds {n : Int} (worth : limit.value? = some (n : ℚ)) :
    limit.le (.real (seconds micros)) = decide (n * 1000000 ≤ micros) := by
  obtain ⟨w, number, -, whole⟩ := value?_seconds near
  have reached := (Number.le_iff_of_value? worth number).trans (whole n)
  exact Bool.eq_iff_iff.mpr (reached.trans decide_eq_true_iff.symm)

variable {v : ℚ} (worth : limit.value? = some v)

include worth

/-- It does not reach a number of seconds that is longer by a microsecond. -/
theorem lt_of_le_seconds (reached : limit.le (.real (seconds micros)) = true) :
    v * 1000000 < micros + 1 := by
  obtain ⟨w, number, close, -⟩ := value?_seconds near
  have below : v ≤ w := (Number.le_iff_of_value? worth number).mp reached
  have := (abs_lt.mp close).2
  linarith

/-- It reaches every number of seconds that is not longer. -/
theorem le_seconds (proper : limit.Proper) (long : v * 1000000 ≤ micros) :
    limit.le (.real (seconds micros)) = true := by
  cases limit with
  | whole n =>
      obtain rfl := Option.some.inj worth
      rw [whole_le_seconds near rfl, decide_eq_true_iff]
      exact_mod_cast long
  | real x =>
      have far : 2 ^ 34 ≤ Binary64.limit :=
        (by decide : 2 ^ 34 ≤ 2 ^ 54 - 1).trans (Nat.le_mul_of_pos_right _ Binary64.halfUnit_pos)
      have within : micros.natAbs < Binary64.limit * microsPerSecond :=
        (natAbs_lt near).trans_le (Nat.mul_le_mul_right _ far)
      have number := Binary64.toRat?_ofIntRatio (by decide) within
      exact (Number.le_iff_of_value? (b := .real (seconds micros)) worth number).mpr
        (Binary64.le_extent proper worth (by decide) (by exact_mod_cast long))

end Near

/-- A greater age reaches every number of seconds that a smaller one reaches. -/
theorem seconds_mono {micros micros' : Int} (le : micros ≤ micros') {limit : Number}
    (reached : limit.le (.real (seconds micros)) = true) :
    limit.le (.real (seconds micros')) = true := by
  have rounded : (seconds micros).le (seconds micros') = true :=
    Binary64.ofIntRatio_mono (by decide) le
  exact Number.le_trans (b := .real (seconds micros)) reached rounded

end Stamp

/-! ### Conditions and pods -/

section Pods

variable {now now' : Stamp} {threshold threshold' : Value} {limit limit' : Number}

/-- With a zone for the clock, the age of a transition is what is compared. -/
theorem isPast_some (zoned : now.offset ≠ none) (number : threshold.number? = some limit) (t : Stamp) :
    isPast (some t) threshold now = .ok (limit.le (.real (Stamp.seconds (now.age t)))) :=
  isPast_of_elapsed number (Stamp.elapsed?_eq zoned t)

/-- The pod reports the condition, which says that its containers are not ready. -/
def Pod.Complains (p : Pod) (c : Condition) : Prop :=
  ∃ status conditions, p.status = some status ∧ status.conditions = some conditions ∧
    c ∈ conditions ∧ c.kind = some "ContainersReady" ∧ c.status = some "False"

/-- Some condition of the pod has said for at least `threshold` seconds that its containers are not
ready. -/
def Pod.HasLapsed (p : Pod) (threshold : Value) (now : Stamp) : Prop :=
  ∃ c, p.Complains c ∧ isPast c.since threshold now = .ok true

theorem Pod.complains_iff {p : Pod} {c : Condition} :
    p.Complains c ↔ c ∈ (p.status.bind PodStatus.conditions).getD [] ∧ c.isNotReady = true := by
  unfold Pod.Complains
  cases p.status with
  | none => simp
  | some s => cases h : s.conditions <;> simp [h, Condition.isNotReady]

theorem affirms_isNotReady_iff (zoned : now.offset ≠ none) (number : threshold.number? = some limit)
    (p : Pod) : affirms (p.isNotReady threshold now) = true ↔ p.HasLapsed threshold now := by
  simp only [affirms_isNotReady number zoned, List.any_eq_true, Bool.and_eq_true, affirms_eq_true_iff,
    Pod.HasLapsed, Pod.complains_iff, and_assoc]

/-- No zone that either clock shares with a transition of the pod has changed its offset since. -/
def Pod.Settled (p : Pod) (now now' : Stamp) : Prop :=
  ∀ c t, p.Complains c → c.since = some t → now.Steady t ∧ now'.Steady t

/-- A pod that is not ready stays so under a lower threshold and a later clock. -/
theorem Pod.HasLapsed.mono {p : Pod} (lapsed : p.HasLapsed threshold now)
    (zoned : now.offset ≠ none) (zoned' : now'.offset ≠ none)
    (number : threshold.number? = some limit) (number' : threshold'.number? = some limit')
    (lower : limit'.le limit = true) (later : now.instant ≤ now'.instant)
    (settled : p.Settled now now') : p.HasLapsed threshold' now' := by
  obtain ⟨c, complains, past⟩ := lapsed
  refine ⟨c, complains, ?_⟩
  cases since : c.since with
  | none => rfl
  | some t =>
      obtain ⟨steady, steady'⟩ := settled c t complains since
      have older : now.age t ≤ now'.age t := by
        rw [Stamp.age_of_steady steady, Stamp.age_of_steady steady']
        exact Int.sub_le_sub_right later t.instant
      rw [since, isPast_some zoned number] at past
      rw [isPast_some zoned' number']
      exact congrArg _ (Number.le_trans lower (Stamp.seconds_mono older (Except.ok.inj past)))

/-! ### Lists of pods -/

/-- A verdict is given, and it is true exactly if `p` holds. -/
def Told (verdict : Except ClockFault Bool) (p : Prop) : Prop :=
  ∃ b, verdict = .ok b ∧ (b = true ↔ p)

theorem Told.eq_ok_iff {verdict : Except ClockFault Bool} {p : Prop} (told : Told verdict p) :
    verdict = .ok true ↔ p := by
  obtain ⟨b, rfl, truth⟩ := told
  rw [Except.ok.injEq, truth]

section Lists

variable (zoned : now.offset ≠ none) (number : threshold.number? = some limit) (pods : List Pod)

include zoned number

theorem told_every :
    Told (areNotReady pods threshold .every now) (∀ p ∈ pods, p.HasLapsed threshold now) := by
  obtain ⟨verdict, told⟩ := exists_areNotReady zoned number pods .every
  refine ⟨verdict, told, ?_⟩
  rw [areNotReady_eq_ok told, Mode.judge, beq_iff_eq, List.countP_eq_length]
  simp only [affirms_isNotReady_iff zoned number]

theorem told_some :
    Told (areNotReady pods threshold .some now) (∃ p ∈ pods, p.HasLapsed threshold now) := by
  obtain ⟨verdict, told⟩ := exists_areNotReady zoned number pods .some
  refine ⟨verdict, told, ?_⟩
  rw [areNotReady_eq_ok told, Mode.judge, decide_eq_true_iff, List.countP_pos_iff]
  simp only [affirms_isNotReady_iff zoned number]

end Lists

/-- Pods that are not ready stay so under a lower threshold and a later clock. -/
theorem areNotReady_later {pods : List Pod} {mode : Mode} (zoned : now.offset ≠ none)
    (zoned' : now'.offset ≠ none) (number : threshold.number? = some limit)
    (number' : threshold'.number? = some limit') (lower : limit'.le limit = true)
    (later : now.instant ≤ now'.instant) (settled : ∀ p ∈ pods, p.Settled now now')
    (h : areNotReady pods threshold mode now = .ok true) :
    areNotReady pods threshold' mode now' = .ok true := by
  have stays {p : Pod} (hp : p ∈ pods) (lapsed : p.HasLapsed threshold now) :
      p.HasLapsed threshold' now' :=
    lapsed.mono zoned zoned' number number' lower later (settled p hp)
  cases mode with
  | every =>
      have all := (told_every zoned number pods).eq_ok_iff.mp h
      exact (told_every zoned' number' pods).eq_ok_iff.mpr fun p hp => stays hp (all p hp)
  | some =>
      obtain ⟨p, hp, lapsed⟩ := (told_some zoned number pods).eq_ok_iff.mp h
      exact (told_some zoned' number' pods).eq_ok_iff.mpr ⟨p, hp, stays hp lapsed⟩

end Pods

/-! ### The meaning of a verdict -/

/-- How ages and thresholds decide about the readiness of pods. -/
structure Timed (now : Stamp) (threshold : Value) (limit : Number) (pods : List Pod) : Prop where
  /-- Up to `2 ^ 34` seconds to either side, a transition is past a whole number of seconds exactly if
  its instant lies back that long, to the microsecond, whatever the zones, unless they share one that
  has changed its offset. -/
  exact (n : Int) (t : Stamp) : limit.value? = some (n : ℚ) → now.Steady t →
    |now.instant - t.instant| < 2 ^ 34 * 1000000 →
      isPast (some t) threshold now = .ok (decide (n * 1000000 ≤ now.instant - t.instant))
  /-- It is past any other number of seconds if its instant lies back that long, and only if less than a
  microsecond is missing. -/
  close (v : ℚ) (t : Stamp) : limit.value? = some v → limit.Proper → now.Steady t →
    |now.instant - t.instant| < 2 ^ 34 * 1000000 →
      (v * 1000000 ≤ (now.instant - t.instant : Int) → isPast (some t) threshold now = .ok true) ∧
      (isPast (some t) threshold now = .ok true → v * 1000000 < (now.instant - t.instant : Int) + 1)
  /-- In a zone that they share it is past if the clock has gone on for that long. -/
  shared (n : Int) (t : Stamp) : limit.value? = some (n : ℚ) → now.sharesZone t = true →
    |now.reading - t.reading| < 2 ^ 34 * 1000000 →
      isPast (some t) threshold now = .ok (decide (n * 1000000 ≤ now.reading - t.reading))
  /-- At any age and any number, the double nearest to the age in seconds is compared. -/
  rounded (t : Stamp) : isPast (some t) threshold now =
    .ok (limit.le (.real (Binary64.ofIntRatio (now.age t) 1000000)))
  /-- An unknown time is past every threshold. -/
  unknown : isPast none threshold now = .ok true
  /-- A time without a zone is one of UTC. -/
  unzoned (t : Stamp) : t.zone = none →
    isPast (some t) threshold now = isPast (some { t with zone := some .utc }) threshold now
  /-- Zones matter only through the instants, unless one that is shared has changed its offset. -/
  instants (t t' now' : Stamp) : now'.offset ≠ none → now.Steady t → now'.Steady t' →
    t'.instant = t.instant → now'.instant = now.instant →
      isPast (some t') threshold now' = isPast (some t) threshold now
  /-- Every pod has to be not ready for as long as the threshold, in one mode. -/
  every : Told (areNotReady pods threshold .every now) (∀ p ∈ pods, p.HasLapsed threshold now)
  /-- Some pod has to be, in the other. -/
  some : Told (areNotReady pods threshold .some now) (∃ p ∈ pods, p.HasLapsed threshold now)
  /-- Without pods every pod is not ready, and none is. -/
  empty : areNotReady [] threshold .every now = .ok true ∧
    areNotReady [] threshold .some now = .ok false
  /-- Pods that are not ready stay so under a lower threshold and a later clock, unless a zone that a
  clock shares with a transition of theirs has changed its offset. -/
  monotone (mode : Mode) (threshold' : Value) (limit' : Number) (now' : Stamp) :
    threshold'.number? = .some limit' → limit'.le limit = true → now'.offset ≠ none →
      now.instant ≤ now'.instant → (∀ p ∈ pods, p.Settled now now') →
        areNotReady pods threshold mode now = .ok true →
          areNotReady pods threshold' mode now' = .ok true

/-- With a zone for the clock and a number for a threshold, readiness is timed to the microsecond, and an
age that grows is past no fewer thresholds. -/
theorem timed {now : Stamp} {threshold : Value} {limit : Number} (zoned : now.offset ≠ none)
    (number : threshold.number? = some limit) (pods : List Pod) : Timed now threshold limit pods where
  exact n t worth steady near := by
    rw [isPast_some zoned number, Stamp.age_of_steady steady, Stamp.whole_le_seconds near worth]
  close v t worth proper steady near := by
    rw [isPast_some zoned number, Stamp.age_of_steady steady]
    exact ⟨fun long => congrArg _ (Stamp.le_seconds near worth proper long),
      fun past => Stamp.lt_of_le_seconds near worth (Except.ok.inj past)⟩
  shared n t worth shared near := by
    rw [isPast_some zoned number, Stamp.age, if_pos shared, Stamp.whole_le_seconds near worth]
  rounded := isPast_some zoned number
  unknown := rfl
  unzoned t unknown := by
    rw [isPast_some zoned number, isPast_some zoned number, Stamp.age_unzoned unknown]
  instants t t' now' zoned' steady steady' same same' := by
    rw [isPast_some zoned number, isPast_some zoned' number, Stamp.age_of_steady steady,
      Stamp.age_of_steady steady', same, same']
  every := told_every zoned number pods
  some := told_some zoned number pods
  empty := ⟨rfl, rfl⟩
  monotone _ _ _ _ number' lower zoned' later settled :=
    areNotReady_later zoned zoned' number number' lower later settled

/-- Half past one in the morning of the first of March, two hours before the clock of UTC. -/
def marchNight : Stamp :=
  { year := 2028, month := 3, day := 1, hour := 1, minute := 30, second := 0, micro := 0,
    zone := some (.fixed (2 * 3600 * 1000000)) }

/-- Ten minutes before, on the leap day, without a zone. -/
def leapNight : Stamp :=
  { year := 2028, month := 2, day := 29, hour := 23, minute := 20, second := 0, micro := 0,
    zone := none }

/-- A pod that has not been ready since a transition. -/
def podSince (t : Stamp) : Pod :=
  { name := some "cart", space := some "shop"
    status := some
      { init := none, containers := none
        conditions := some
          [{ kind := some "ContainersReady", status := some "False", since := some t }] } }

/-- A pod that has not been ready for ten minutes is so at a threshold of as many seconds, not if a
microsecond is missing, and still a day later at a lower threshold. -/
theorem timed_marchNight :
    marchNight.offset ≠ none ∧ (Value.int 600).number? = some (.whole 600) ∧
      isPast (some leapNight) (.int 600) marchNight = .ok true ∧
      isPast (some { leapNight with micro := 1 }) (.int 600) marchNight = .ok false ∧
      areNotReady [podSince leapNight] (.int 600) .every marchNight = .ok true ∧
      areNotReady [podSince leapNight] (.float (.ofInt 599)) .every { marchNight with day := 2 } =
        .ok true := by
  have zoned : marchNight.offset ≠ none := by decide
  have steady : ∀ t, marchNight.Steady t := Stamp.steady_of_fixed rfl
  have apart : marchNight.instant - leapNight.instant = 600 * 1000000 := by
    simp only [Stamp.instant, ← Stamp.clock_eq]
    decide
  have apart' : marchNight.instant - { leapNight with micro := 1 }.instant = 600 * 1000000 - 1 := by
    simp only [Stamp.instant, ← Stamp.clock_eq]
    decide
  have later : marchNight.instant ≤ { marchNight with day := 2 }.instant := by
    simp only [Stamp.instant, ← Stamp.clock_eq]
    decide
  have timing := timed zoned (Value.number?_int 600) [podSince leapNight]
  have past : isPast (some leapNight) (.int 600) marchNight = .ok true :=
    (timing.exact 600 leapNight rfl (steady _) (by rw [apart]; decide)).trans (by rw [apart]; rfl)
  have missed : isPast (some { leapNight with micro := 1 }) (.int 600) marchNight = .ok false :=
    (timing.exact 600 _ rfl (steady _) (by rw [apart']; decide)).trans (by rw [apart']; rfl)
  have unready : areNotReady [podSince leapNight] (.int 600) .every marchNight = .ok true := by
    refine timing.every.eq_ok_iff.mpr fun p hp => ?_
    obtain rfl := List.mem_singleton.mp hp
    exact ⟨_, ⟨_, _, rfl, rfl, List.mem_singleton_self _, rfl, rfl⟩, past⟩
  exact ⟨zoned, rfl, past, missed, unready,
    timing.monotone .every (.float (.ofInt 599)) _ _ rfl (by decide) (by decide) later
      (fun _ _ _ t _ _ => ⟨steady t, Stamp.steady_of_fixed rfl t⟩) unready⟩

/-- The time of a zone that is one hour before UTC in winter and two hours in summer. -/
def cityTime (month day hour minute offset : Nat) : Stamp :=
  { year := 2026, month, day, hour, minute, second := 0, micro := 0,
    zone := some (.regional "Europe/Berlin" (offset * 3600 * 1000000)) }

/-- The first of January of the year 2000, in UTC. -/
def newYear : Stamp :=
  { year := 2000, month := 1, day := 1, hour := 0, minute := 0, second := 0, micro := 0,
    zone := some .utc }

/-- `2 ^ 33` seconds and a microsecond later. -/
def farOff : Stamp :=
  { year := 2272, month := 3, day := 15, hour := 12, minute := 56, second := 32, micro := 1,
    zone := some .utc }

/-- The least double above `2 ^ 33`. -/
def slightlyMore : Binary64 :=
  .finite false (2 ^ 52 + 1) (-19)

/-- Ages are not always those of the instants.  An hour after a transition, the clock of its zone having
been put forward in between, two hours count as past; and having been put back, less counts as past half
an hour later.  Nor are they always exact: almost two microseconds of a threshold that is a double count
as past after one. -/
theorem not_always_timed :
    (¬ ∀ (now t : Stamp) (n : Int), now.offset ≠ none → |now.instant - t.instant| < 2 ^ 34 * 1000000 →
      isPast (some t) (.int n) now = .ok (decide (n * 1000000 ≤ now.instant - t.instant))) ∧
    (¬ ∀ (now now' : Stamp) (n : Int) (pods : List Pod), now.offset ≠ none → now'.offset ≠ none →
      now.instant ≤ now'.instant → areNotReady pods (.int n) .every now = .ok true →
        areNotReady pods (.int n) .every now' = .ok true) ∧
    ¬ ∀ (now t : Stamp) (x : Binary64) (v : ℚ), now.offset ≠ none → now.Steady t → x.Proper →
      x.toRat? = some v → |now.instant - t.instant| < 2 ^ 34 * 1000000 →
        isPast (some t) (.float x) now =
          .ok (decide (v * 1000000 ≤ ((now.instant - t.instant : Int) : ℚ))) := by
  refine ⟨fun exact => ?forward, fun monotone => ?back, fun exact => ?rounded⟩
  case forward =>
    have apart : (cityTime 3 29 3 30 2).instant - (cityTime 3 29 1 30 1).instant = 3600 * 1000000 := by
      simp only [Stamp.instant, ← Stamp.clock_eq]
      decide
    have past : isPast (some (cityTime 3 29 1 30 1)) (.int 7200) (cityTime 3 29 3 30 2) = .ok true := by
      decide
    have early := exact (cityTime 3 29 3 30 2) (cityTime 3 29 1 30 1) 7200 (by decide)
      (by rw [apart]; decide)
    rw [past, apart] at early
    exact absurd early (by decide)
  case back =>
    have later : (cityTime 10 25 2 50 2).instant ≤ (cityTime 10 25 2 20 1).instant := by
      simp only [Stamp.instant, ← Stamp.clock_eq]
      decide
    have stays := monotone (cityTime 10 25 2 50 2) (cityTime 10 25 2 20 1) 4800
      [podSince (cityTime 10 25 1 30 2)] (by decide) (by decide) later (by decide)
    exact absurd stays (by decide)
  case rounded =>
    have apart : farOff.instant - newYear.instant = 2 ^ 33 * 1000000 + 1 := by
      simp only [Stamp.instant, ← Stamp.clock_eq]
      decide
    have past : isPast (some newYear) (.float slightlyMore) farOff = .ok true := by
      decide
    have value : slightlyMore.toRat? = some (2 ^ 33 + 1 / 2 ^ 19) := by
      rw [slightlyMore, Binary64.toRat?, Binary64.signed]
      norm_num
    have proper : slightlyMore.Proper := by
      rw [slightlyMore, Binary64.Proper]
      decide
    have early := exact farOff newYear slightlyMore _ (by decide) (Stamp.steady_of_fixed rfl _) proper
      value (by rw [apart]; decide)
    rw [past, apart, Except.ok.injEq, eq_comm, decide_eq_true_iff] at early
    norm_num at early

end BudgetReaper
