import BudgetReaper.Binary64.Basic
import BudgetReaper.Decimal.Digits

/-!
# Stamps — civil date and time with an optional zone

A stamp is a date of the proleptic Gregorian calendar, a time of day to the microsecond and a zone
with its offset from UTC at that time, or no zone.  `instant?` is the number of microseconds that the
clock of its zone denotes.

`elapsed?` is the difference of two instants, whatever the zones are, with one exception: two stamps
that share a zone are taken by their clocks, even if the offset of the zone has changed between them.

`text` writes seconds, then six digits of a fraction if it is not zero, then the offset if there is a
zone; `read?` reads that form with an offset of whole minutes.
-/

namespace BudgetReaper

/-- The zone of a stamp, with its offset from UTC at the stamp, in microseconds.  Every zone has an
offset at every time. -/
inductive Zone where
  /-- A zone of one offset at all times; whether two stamps share it makes no difference. -/
  | fixed (offset : Int)
  /-- A zone whose offset changes from time to time; its name stands for the zone itself, which stamps of
  the same name share. -/
  | regional (name : String) (offset : Int)
  deriving DecidableEq, Repr, Inhabited

namespace Zone

/-- The zone of UTC. -/
def utc : Zone :=
  fixed 0

/-- No offset is that of UTC. -/
instance : OfNat Zone 0 where
  ofNat := utc

/-- The offset from UTC. -/
def offset : Zone → Int
  | fixed micros => micros
  | regional _ micros => micros

/-- The two are one zone whose offset changes. -/
def isShared : (z w : Zone) → Bool
  | regional name _, regional name' _ => name == name'
  | _, _ => false

end Zone

/-- A date and time of day, with a zone if it is known. -/
structure Stamp where
  year : Nat
  month : Nat
  day : Nat
  hour : Nat
  minute : Nat
  second : Nat
  micro : Nat
  zone : Option Zone
  deriving DecidableEq, Repr, Inhabited

namespace Stamp

/-! ### The calendar -/

/-- A year of 366 days. -/
def isLeap (year : Nat) : Bool :=
  year % 4 == 0 && (year % 100 != 0 || year % 400 == 0)

/-- The number of days of a month. -/
def daysInMonth (year month : Nat) : Nat :=
  if month = 2 then (if isLeap year then 29 else 28)
  else if month = 4 ∨ month = 6 ∨ month = 9 ∨ month = 11 then 30
  else 31

/-- The number of days of a year before its month `month`. -/
def daysBeforeMonth (year month : Nat) : Nat :=
  ((List.range month).drop 1).foldl (fun n m => n + daysInMonth year m) 0

/-- The number of days from the first of January of year one to the date. -/
def dayNumber (year month day : Nat) : Nat :=
  let past := year - 1
  past * 365 + past / 4 - past / 100 + past / 400 + daysBeforeMonth year month + (day - 1)

/-- The number of microseconds of a second. -/
def microsPerSecond : Nat := 1000000

/-- The microseconds that the clock shows since the start of year one. -/
def clock (t : Stamp) : Int :=
  (((dayNumber t.year t.month t.day * 24 + t.hour) * 60 + t.minute) * 60 + t.second) *
    microsPerSecond + t.micro

/-- The offset of the zone from UTC, in microseconds. -/
def offset (t : Stamp) : Option Int :=
  t.zone.map Zone.offset

/-- The two stamps share a zone whose offset changes. -/
def sharesZone (t u : Stamp) : Bool :=
  match t.zone, u.zone with
  | some z, some w => z.isShared w
  | _, _ => false

/-- The instant that a stamp with a known zone denotes, in microseconds; a stamp without a zone
denotes none. -/
def instant? (t : Stamp) : Option Int :=
  t.offset.map fun offset => t.clock - offset

/-- The stamp, taken as UTC if its zone is unknown. -/
def orUtc (t : Stamp) : Stamp :=
  { t with zone := some (t.zone.getD .utc) }

/-- The microseconds from `since`, taken as UTC if its zone is unknown, to `now`; none if the zone
of `now` is unknown.  In a zone that they share the clocks are compared. -/
def elapsed? (now since : Stamp) : Option Int :=
  if now.sharesZone since then some (now.clock - since.clock)
  else do
    let later ← now.instant?
    let earlier ← since.orUtc.instant?
    some (later - earlier)

/-- A span of microseconds in seconds. -/
def seconds (micros : Int) : Binary64 :=
  Binary64.ofIntRatio micros microsPerSecond

/-! ### Text -/

/-- A number in at least `width` digits. -/
def padded (width n : Nat) : List Char :=
  let ds := Decimal.ofNat n
  List.replicate (width - ds.length) '0' ++ ds

/-- An offset: its sign, hours and minutes, then seconds and six digits of a fraction as far as they
are needed. -/
def offsetText (micros : Int) : List Char :=
  let size := micros.natAbs
  let seconds := size / microsPerSecond
  let fraction := size % microsPerSecond
  (if micros < 0 then '-' else '+') :: padded 2 (seconds / 3600) ++
    ':' :: padded 2 (seconds / 60 % 60) ++
    (if seconds % 60 = 0 ∧ fraction = 0 then [] else ':' :: padded 2 (seconds % 60)) ++
    (if fraction = 0 then [] else '.' :: padded 6 fraction)

/-- The text of a stamp. -/
def text (t : Stamp) : String :=
  String.ofList <|
    padded 4 t.year ++ '-' :: padded 2 t.month ++ '-' :: padded 2 t.day ++ 'T' ::
      padded 2 t.hour ++ ':' :: padded 2 t.minute ++ ':' :: padded 2 t.second ++
      (if t.micro = 0 then [] else '.' :: padded 6 t.micro) ++
      (t.offset.map offsetText).getD []

/-- The value of an ASCII digit. -/
def digit? (c : Char) : Option Nat :=
  if c.isDigit then some (c.toNat - 0x30) else none

/-- The number that exactly `count` digits in front write, and what follows them. -/
def readDigits? : (count : Nat) → List Char → Option (Nat × List Char)
  | 0, cs => some (0, cs)
  | count + 1, cs =>
    match cs with
    | [] => none
    | c :: rest => do
      let d ← digit? c
      let (n, rest) ← readDigits? count rest
      some (d * Decimal.unit count + n, rest)

/-- What follows the character `c` in front. -/
def expect? (c : Char) : List Char → Option (List Char)
  | [] => none
  | c' :: rest => if c' = c then some rest else none

/-- The microseconds of an optional fraction, of which six digits count, and what follows it. -/
def readFraction? : List Char → Option (Nat × List Char)
  | '.' :: rest => do
    let ds := rest.takeWhile Char.isDigit
    let counted := ds.take 6
    if ds.isEmpty then none
    else
      let (n, _) ← readDigits? counted.length counted
      some (n * Decimal.unit (6 - counted.length), rest.drop ds.length)
  | cs => some (0, cs)

/-- The zone of an offset of whole minutes at the end of a stamp. -/
def readZone? : List Char → Option (Option Zone)
  | [] => some none
  | ['Z'] => some (some .utc)
  | sign :: rest => do
    let (hours, rest) ← readDigits? 2 rest
    let rest ← expect? ':' rest
    let (minutes, rest) ← readDigits? 2 rest
    let micros : Int := ((hours * 60 + minutes) * 60 * microsPerSecond : Nat)
    if !rest.isEmpty then none
    else if sign = '+' then some (some (.fixed micros))
    else if sign = '-' then some (some (.fixed (-micros)))
    else none

/-- The stamp has a date of the calendar and a time of day. -/
def isValid (t : Stamp) : Bool :=
  1 ≤ t.year && 1 ≤ t.month && t.month ≤ 12 && 1 ≤ t.day && t.day ≤ daysInMonth t.year t.month &&
    t.hour < 24 && t.minute < 60 && t.second < 60

/-- The stamp that a text writes. -/
def read? (s : String) : Option Stamp := do
  let (year, cs) ← readDigits? 4 s.toList
  let (month, cs) ← readDigits? 2 (← expect? '-' cs)
  let (day, cs) ← readDigits? 2 (← expect? '-' cs)
  let (hour, cs) ← readDigits? 2 (← expect? 'T' cs)
  let (minute, cs) ← readDigits? 2 (← expect? ':' cs)
  let (second, cs) ← readDigits? 2 (← expect? ':' cs)
  let (micro, cs) ← readFraction? cs
  let zone ← readZone? cs
  let t : Stamp := { year, month, day, hour, minute, second, micro, zone }
  if t.isValid then some t else none

theorem elapsed?_eq_none_iff (now since : Stamp) :
    elapsed? now since = none ↔ now.offset = none := by
  cases h : now.zone with
  | none => simp [elapsed?, sharesZone, instant?, offset, h]
  | some zone => by_cases shared : now.sharesZone since <;>
      simp [elapsed?, instant?, offset, orUtc, h, shared]

end Stamp

end BudgetReaper
