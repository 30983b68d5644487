import BudgetReaper.Failure
import BudgetReaper.Proofs.Decimal.Writing

/-!
# Bounds — reading and writing

A text writes a percentage exactly if it is a numeral with a percent sign right behind it, and nothing
else writes one; a count is written by an integer alone.  Every other value but an absent one is refused,
each for its own reason (`Bound.Refuses`).

**Reading** (`Bound.parsed`).  The text of a percentage that has been read is read as the same percentage:
of all the texts that write it, one is its own.  The text of a count has no percent sign, so that it is
never read again.
-/

namespace BudgetReaper.Bound

/-! ### Reading -/

/-- What makes a value no bound. -/
inductive Refuses : Value → Fault → Prop where
  /-- A truth value counts as an integer elsewhere, not here. -/
  | truthValue (b : Bool) : Refuses (.bool b) (.truthValue b)
  /-- A text with no percent sign at its end. -/
  | noPercentSign {s : String} (h : ∀ front, s.toList ≠ front ++ ['%']) :
      Refuses (.str s) (.noPercentSign s)
  /-- A text in which no numeral stands before the percent sign at its end. -/
  | noNumeral {s : String} {front : List Char} (split : s.toList = front ++ ['%'])
      (h : ∀ n, ¬ Decimal.Writes front n) : Refuses (.str s) (.noNumeral s)
  /-- A value of another kind. -/
  | float (x : Binary64) : Refuses (.float x) (.wrongKind "float")
  | list (items : List Value) : Refuses (.list items) (.wrongKind "list")
  | object (fields : List (String × Value)) : Refuses (.object fields) (.wrongKind "dict")

/-- The text is a numeral of `n` with a percent sign right behind it. -/
def Spells (s : String) (n : Int) : Prop :=
  ∃ front, s.toList = front ++ ['%'] ∧ Decimal.Writes front n

/-- A text is read as one percentage or refused for one reason. -/
inductive TextReading (s : String) : Except Fault Bound → Prop where
  | read {n : Int} (spells : Spells s n) : TextReading s (.ok (percentage (.int n)))
  | refused {f : Fault} (refuses : Refuses (.str s) f) : TextReading s (.error f)

theorem textReading (s : String) : TextReading s (ofText s) := by
  unfold ofText
  cases cut : beforePercent? s.toList with
  | none =>
      refine .refused (.noPercentSign fun front split => ?_)
      rw [beforePercent?_eq_some_iff.mpr split] at cut
      cases cut
  | some front =>
      have split := beforePercent?_eq_some_iff.mp cut
      dsimp only
      cases read : Decimal.readInt? front with
      | some n => exact .read ⟨front, split, Decimal.readInt?_eq_some_iff.mp read⟩
      | none =>
          refine .refused (.noNumeral split fun n writes => ?_)
          rw [Decimal.readInt?_eq_some_iff.mpr writes] at read
          cases read

theorem ofText_of_spells {s : String} {n : Int} (spells : Spells s n) :
    ofText s = .ok (percentage (.int n)) := by
  obtain ⟨front, split, writes⟩ := spells
  rw [ofText, beforePercent?_eq_some_iff.mpr split]
  dsimp only
  rw [Decimal.readInt?_eq_some_iff.mpr writes]

theorem ofText_eq_ok_iff {s : String} {b : Bound} :
    ofText s = .ok b ↔ ∃ n, Spells s n ∧ b = percentage (.int n) := by
  constructor
  · intro h
    cases h ▸ textReading s with
    | read spells => exact ⟨_, spells, rfl⟩
  · rintro ⟨n, spells, rfl⟩
    exact ofText_of_spells spells

theorem ofValue_str_eq (s : String) : ofValue (.str s) = (ofText s).map some := rfl

theorem ofValue_str_eq_ok_iff {s : String} {b? : Option Bound} :
    ofValue (.str s) = .ok b? ↔ ∃ n, Spells s n ∧ b? = some (percentage (.int n)) := by
  rw [ofValue_str_eq]
  cases h : ofText s with
  | error f =>
      refine iff_of_false nofun ?_
      rintro ⟨n, spells, -⟩
      rw [ofText_of_spells spells] at h
      cases h
  | ok b =>
      obtain ⟨n, spells, rfl⟩ := ofText_eq_ok_iff.mp h
      constructor
      · intro same
        exact ⟨n, spells, (Except.ok.inj same).symm⟩
      · rintro ⟨n', spells', rfl⟩
        rw [← h, ofText_of_spells spells']
        rfl

theorem refuses_of_error {v : Value} {f : Fault} (h : ofValue v = .error f) : Refuses v f := by
  cases v with
  | null | int _ => cases h
  | bool b => cases h; exact .truthValue b
  | float x => cases h; exact .float x
  | list items => cases h; exact .list items
  | object fields => cases h; exact .object fields
  | str s =>
      rw [ofValue_str_eq] at h
      cases given : ofText s with
      | ok b => rw [given] at h; cases h
      | error g =>
          rw [given] at h
          cases h
          cases given ▸ textReading s with
          | refused refuses => exact refuses

theorem Refuses.ofValue {v : Value} {f : Fault} (h : Refuses v f) : ofValue v = .error f := by
  cases h with
  | truthValue | float | list | object => rfl
  | @noPercentSign s bare =>
      cases cut : beforePercent? s.toList with
      | none => simp only [ofValue_str_eq, ofText, cut]; rfl
      | some front => exact absurd (beforePercent?_eq_some_iff.mp cut) (bare front)
  | @noNumeral s front split unread =>
      cases read : Decimal.readInt? front with
      | none => simp only [ofValue_str_eq, ofText, beforePercent?_eq_some_iff.mpr split, read]; rfl
      | some n => exact absurd (Decimal.readInt?_eq_some_iff.mp read) (unread n)

/-! ### Writing -/

theorem toList_text_percentage (n : Int) :
    (percentage (.int n)).text.toList = Decimal.ofInt n ++ ['%'] := by
  simp [text, Value.plain, Value.display, Decimal.text]

theorem toList_text_absolute (n : Int) : (absolute (.int n)).text.toList = Decimal.ofInt n := by
  simp [text, Value.plain, Value.display, Decimal.text]

/-- The text of a percentage that some text writes is one of its texts. -/
theorem Spells.text {s : String} {n : Int} (spells : Spells s n) :
    Spells (percentage (.int n)).text n := by
  obtain ⟨front, -, writes⟩ := spells
  exact ⟨_, toList_text_percentage n, Decimal.writes_ofInt writes.fits⟩

/-- The text of a count has no percent sign. -/
theorem refuses_text_absolute (n : Int) :
    Refuses (.str (absolute (.int n)).text) (.noPercentSign (absolute (.int n)).text) := by
  refine .noPercentSign fun front split => ?_
  rw [toList_text_absolute] at split
  have among : '%' ∈ Decimal.ofInt n := by simp [split]
  rcases Decimal.mem_ofInt among with h | h <;> exact absurd h (by decide)

/-- A percentage that has been read is read again from its text. -/
theorem ofValue_text {s : String} {b : Bound} (read : ofValue (.str s) = .ok (some b)) :
    ofValue (.str b.text) = .ok (some b) := by
  obtain ⟨n, spells, same⟩ := ofValue_str_eq_ok_iff.mp read
  obtain rfl := Option.some.inj same
  exact ofValue_str_eq_ok_iff.mpr ⟨n, spells.text, rfl⟩

/-- What is read of a value, and how what is read of a text is written. -/
structure Parsed (v : Value) (s : String) : Prop where
  /-- Only an absent value is neither a bound nor refused. -/
  absent : ofValue v = .ok none ↔ v = .null
  /-- Only an integer writes a count, its own. -/
  count (w : Value) : ofValue v = .ok (some (absolute w)) ↔ ∃ n, v = .int n ∧ w = .int n
  /-- Only a text that spells an integer with a percent sign writes a percentage, that integer. -/
  share (w : Value) : ofValue v = .ok (some (percentage w)) ↔
    ∃ t n, v = .str t ∧ Spells t n ∧ w = .int n
  /-- All else is refused, each value for its own reason. -/
  refused (f : Fault) : ofValue v = .error f ↔ Refuses v f
  /-- A refusal is reported under one name. -/
  reported (f : Fault) : ofValue v = .error f →
    (Failure.bound f).isReported = true ∧ (Failure.bound f).typeName = "IntOrPercentError"
  /-- The text of what a text writes is read as the same bound. -/
  again (b : Bound) : ofValue (.str s) = .ok (some b) → ofValue (.str b.text) = .ok (some b)
  /-- Each bound that a text writes has one text, and no other bound has it. -/
  unique (s' : String) (b b' : Bound) : ofValue (.str s) = .ok (some b) →
    ofValue (.str s') = .ok (some b') → (b.text = b'.text ↔ b = b')
  /-- The text of a count is never read. -/
  bare (n : Int) : ofValue (.str (absolute (.int n)).text) =
    .error (.noPercentSign (absolute (.int n)).text)

/-- Bounds are read exactly from what writes them, and a percentage that has been read can be read again
from its text. -/
theorem parsed (v : Value) (s : String) : Parsed v s where
  absent := by
    cases v with
    | null => exact iff_of_true rfl rfl
    | bool _ | int _ | float _ | list _ | object _ => simp [ofValue]
    | str t => simp [ofValue_str_eq_ok_iff]
  count w := by
    cases v with
    | int n => simp [ofValue, eq_comm]
    | null | bool _ | float _ | list _ | object _ => simp [ofValue]
    | str t => simp [ofValue_str_eq_ok_iff]
  share w := by
    cases v with
    | null | bool _ | int _ | float _ | list _ | object _ => simp [ofValue]
    | str t => simp [ofValue_str_eq_ok_iff]
  refused _ := ⟨refuses_of_error, Refuses.ofValue⟩
  reported _ _ := ⟨rfl, rfl⟩
  again _ := ofValue_text
  unique s' b b' read read' := by
    refine ⟨fun same => ?_, congrArg text⟩
    have again := ofValue_text read
    rw [same, ofValue_text read'] at again
    exact (Option.some.inj (Except.ok.inj again)).symm
  bare n := (refuses_text_absolute n).ofValue

/-- A numeral with a blank, a sign, a leading zero, a low line and a digit of another script, and the text
of what it writes. -/
theorem parsed_mixed :
    ofValue (.str " +0_4२%") = .ok (some (percentage (.int 42))) ∧
      ofValue (.str (percentage (.int 42)).text) = .ok (some (percentage (.int 42))) ∧
      (percentage (.int 42)).text = "42%" ∧
      ofValue (.str "42") = .error (.noPercentSign "42") := by
  have run : Decimal.Run ['0', '_', '4', '२'] [0, 4, 2] :=
    .low (by decide +kernel) (.next (by decide +kernel) (.one (by decide +kernel)))
  have writes : Decimal.Writes " +0_4२".toList 42 :=
    ⟨[' '], ['+'], ['0', '_', '4', '२'], [], 1, 42, rfl, List.forall_mem_singleton.mpr (by decide),
      nofun, .plus, ⟨_, run, by decide, by decide⟩, by decide⟩
  have read := (parsed (.str " +0_4२%") " +0_4२%").share (.int 42) |>.mpr
    ⟨_, 42, rfl, ⟨_, by decide, writes⟩, rfl⟩
  exact ⟨read, (parsed .null " +0_4२%").again _ read, by decide, (parsed .null "").bare 42⟩

end BudgetReaper.Bound
