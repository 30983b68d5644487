import Mathlib.Algebra.BigOperators.Group.Finset.Basic
import BudgetReaper.Stamp

/-!
# Stamps — the instants that they denote

A clock counts from the start of year one: the days of the years before, of the months before and of the
month, and then the time of day (`reading`).  The day number of a date, a closed form, is that count of
days (`dayNumber_eq`).  The instant of a stamp is what its clock shows, less the offset of its zone.

**Ages** (`elapsed?_eq`).  The time elapsed between two stamps is the difference of their instants, unless
they share a zone: then it is that of their clocks.  Where the offset of the zone is the same at both
stamps, the two differences are one (`age_of_steady`).
-/

namespace BudgetReaper.Stamp

open Finset

/-! ### Days -/

/-- The number of days of a year, month by month. -/
def daysInYear (year : Nat) : Nat :=
  ∑ m ∈ range 12, daysInMonth year (m + 1)

theorem daysInYear_eq (year : Nat) : daysInYear year = if isLeap year then 366 else 365 := by
  cases h : isLeap year <;> simp [daysInYear, daysInMonth, sum_range_succ, h]

/-- The number of days before a date: those of the years, of the months and of the month before it. -/
def daysBefore (year month day : Nat) : Nat :=
  ∑ y ∈ range (year - 1), daysInYear (y + 1) + ∑ m ∈ range (month - 1), daysInMonth year (m + 1) +
    (day - 1)

/-- Every fourth year has a day more, but of the full centuries only every fourth. -/
theorem sum_daysInYear (n : Nat) :
    ∑ y ∈ range n, daysInYear (y + 1) = n * 365 + n / 4 - n / 100 + n / 400 := by
  induction n with
  | zero => rfl
  | succ n ih =>
      have leap : isLeap (n + 1) = true ↔
          (n + 1) % 4 = 0 ∧ ((n + 1) % 100 ≠ 0 ∨ (n + 1) % 400 = 0) := by
        simp [isLeap]
      rw [sum_range_succ, ih, daysInYear_eq]
      split
      · next h =>
          have := leap.mp h
          omega
      · next h =>
          have := mt leap.mpr h
          omega

theorem foldl_add_range (f : Nat → Nat) (n : Nat) :
    (List.range n).foldl (fun total i => total + f i) 0 = ∑ i ∈ range n, f i := by
  induction n with
  | zero => rfl
  | succ n ih =>
      rw [List.range_succ, List.foldl_append, ih, sum_range_succ]
      rfl

theorem daysBeforeMonth_eq (year month : Nat) :
    daysBeforeMonth year month = ∑ m ∈ range (month - 1), daysInMonth year (m + 1) := by
  cases month with
  | zero => rfl
  | succ month =>
      have months : (List.range (month + 1)).drop 1 = (List.range month).map (· + 1) := by
        rw [List.range_succ_eq_map]
        rfl
      rw [daysBeforeMonth, months, List.foldl_map]
      exact foldl_add_range (fun m => daysInMonth year (m + 1)) month

theorem dayNumber_eq (year month day : Nat) :
    dayNumber year month day = daysBefore year month day := by
  rw [dayNumber, daysBefore, sum_daysInYear, daysBeforeMonth_eq]

/-! ### Instants -/

/-- The microseconds from the start of year one to the stamp, by the clock of its zone. -/
def reading (t : Stamp) : Int :=
  (((daysBefore t.year t.month t.day * 24 + t.hour) * 60 + t.minute) * 60 + t.second) * 1000000 + t.micro

theorem clock_eq (t : Stamp) : t.clock = t.reading := by
  rw [Stamp.clock, dayNumber_eq]
  rfl

/-- The microseconds from the start of year one to the stamp, both by the clock of UTC; the zone of a
stamp is UTC if it is unknown. -/
def instant (t : Stamp) : Int :=
  t.reading - t.offset.getD 0

theorem instant?_eq {t : Stamp} (zoned : t.offset ≠ none) : t.instant? = some t.instant := by
  obtain ⟨micros, zone⟩ := Option.ne_none_iff_exists'.mp zoned
  rw [instant?, instant, zone, clock_eq]
  rfl

theorem instant?_orUtc (t : Stamp) : t.orUtc.instant? = some t.instant := by
  have clock : t.orUtc.clock = t.clock := rfl
  have offset : t.orUtc.offset = some (t.offset.getD 0) := by
    cases h : t.zone <;> simp [Stamp.offset, orUtc, h, Zone.utc, Zone.offset]
  rw [instant?, instant, clock, offset, clock_eq]
  rfl

/-! ### Ages -/

/-- The microseconds from a stamp to the present one: by the clocks in a zone that the two share, and
else by the instants. -/
def age (now t : Stamp) : Int :=
  if now.sharesZone t then now.reading - t.reading else now.instant - t.instant

/-- A zone that the two stamps share has one offset at both. -/
def Steady (now t : Stamp) : Prop :=
  now.sharesZone t = true → now.offset = t.offset

instance (now t : Stamp) : Decidable (now.Steady t) :=
  inferInstanceAs (Decidable (_ → _))

/-- A clock with a fixed offset shares no zone that changes. -/
theorem sharesZone_of_fixed {now : Stamp} {offset : Int} (fixed : now.zone = some (.fixed offset))
    (t : Stamp) : now.sharesZone t = false := by
  rw [sharesZone, fixed]
  cases t.zone <;> rfl

theorem steady_of_fixed {now : Stamp} {offset : Int} (fixed : now.zone = some (.fixed offset))
    (t : Stamp) : now.Steady t := by
  simp [Steady, sharesZone_of_fixed fixed]

theorem age_of_steady {now t : Stamp} (steady : now.Steady t) :
    now.age t = now.instant - t.instant := by
  unfold age
  split
  · next shared =>
      rw [instant, instant, steady shared]
      omega
  · rfl

/-- A stamp without a zone is as old as that of UTC. -/
theorem age_unzoned {now t : Stamp} (unknown : t.zone = none) :
    now.age { t with zone := some .utc } = now.age t := by
  have apart : now.sharesZone t = false := by
    rw [sharesZone, unknown]
    cases now.zone <;> rfl
  have apart' : now.sharesZone { t with zone := some .utc } = false := by
    unfold sharesZone
    rcases now.zone with _ | _ | _ <;> rfl
  have instant : ({ t with zone := some .utc } : Stamp).instant = t.instant := by
    simp only [Stamp.instant, Stamp.offset, unknown]
    rfl
  rw [age, age, apart, apart', instant]
  rfl

/-- The time elapsed is the age, as long as the zone of the clock is known. -/
theorem elapsed?_eq {now : Stamp} (zoned : now.offset ≠ none) (since : Stamp) :
    now.elapsed? since = some (now.age since) := by
  rw [elapsed?, age, clock_eq, clock_eq, instant?_eq zoned, instant?_orUtc]
  split <;> rfl

end BudgetReaper.Stamp
