import BudgetReaper.Decimal.Numeral
import BudgetReaper.Proofs.Text.Trimming

/-!
# Decimal — what an integer numeral is

The grammar of integer numerals: a run of digits, of any script, in which single low lines may stand
between two digits (`Run`), a sign that may stand in front of it (`Sign`), and blanks of a numeral around
both.  A numeral is read exactly if it is one of this grammar, with at most `digitLimit` digits, and what is read
is the number of its digits with its sign (`readInt?_eq_some_iff`).
-/

namespace BudgetReaper.Decimal

open BudgetReaper.Text

/-- A run of digits and their values; a single low line may stand between two of them. -/
inductive Run : List Char → List Nat → Prop where
  | one {c : Char} {d : Nat} (digit : digitValue? c = some d) : Run [c] [d]
  | next {c : Char} {d : Nat} {cs : List Char} {ds : List Nat} (digit : digitValue? c = some d)
      (run : Run cs ds) : Run (c :: cs) (d :: ds)
  | low {c : Char} {d : Nat} {cs : List Char} {ds : List Nat} (digit : digitValue? c = some d)
      (run : Run cs ds) : Run (c :: '_' :: cs) (d :: ds)

/-- What may stand in front of a run, and the factor that it stands for. -/
inductive Sign : List Char → Int → Prop where
  | none : Sign [] 1
  | plus : Sign ['+'] 1
  | minus : Sign ['-'] (-1)

/-- The text is a run of at most `digitLimit` digits, and `n` the number that they denote. -/
def Denotes (cs : List Char) (n : Nat) : Prop :=
  ∃ ds, Run cs ds ∧ ds.length ≤ digitLimit ∧ ofDigits ds = n

/-- The text writes the integer `n`.  The blanks are those that are stripped from a numeral
(`isNumeralBlank`): the information separators U+001C to U+001F, which are blanks of a word, are none. -/
def Writes (cs : List Char) (n : Int) : Prop :=
  ∃ before sign digits after factor size, cs = before ++ (sign ++ digits) ++ after ∧
    (∀ c ∈ before, isNumeralBlank c = true) ∧ (∀ c ∈ after, isNumeralBlank c = true) ∧
    Sign sign factor ∧ Denotes digits size ∧ n = factor * size

/-! ### Digits -/

/-- No run of ten digits holds a blank. -/
theorem isBlank_of_digitValue? {c : Char} {d : Nat} (digit : digitValue? c = some d) :
    isBlank c = false := by
  have apart : ∀ first ∈ digitZeros, ∀ d < 10,
      ((0x09 ≤ first + d && first + d ≤ 0x0D) || (0x1C ≤ first + d && first + d ≤ 0x20) ||
        first + d == 0x85 || first + d == 0xA0 || first + d == 0x1680 ||
        (0x2000 ≤ first + d && first + d ≤ 0x200A) || first + d == 0x2028 || first + d == 0x2029 ||
        first + d == 0x202F || first + d == 0x205F || first + d == 0x3000) = false := by
    decide +kernel
  have small := digitValue?_lt digit
  obtain ⟨first, found, rfl⟩ := Option.map_eq_some_iff.mp digit
  have above : first ≤ c.toNat := by
    have within := List.find?_some found
    simp only [Bool.and_eq_true, decide_eq_true_eq] at within
    exact within.1
  have here := apart first (List.mem_of_find?_eq_some found) _ small
  rw [Nat.add_sub_cancel' above] at here
  exact here

theorem digitValue?_marks : ∀ c ∈ ['_', '+', '-'], digitValue? c = none := by
  simp only [List.forall_mem_cons]
  exact ⟨rfl, rfl, rfl, nofun⟩

theorem Run.mem {cs : List Char} {ds : List Nat} (run : Run cs ds) {c : Char} (h : c ∈ cs) :
    c = '_' ∨ ∃ d, digitValue? c = some d := by
  induction run with
  | one digit => exact .inr ⟨_, List.mem_singleton.mp h ▸ digit⟩
  | next digit _ ih =>
      rcases List.mem_cons.mp h with rfl | h
      · exact .inr ⟨_, digit⟩
      · exact ih h
  | low digit _ ih =>
      rcases List.mem_cons.mp h with rfl | h
      · exact .inr ⟨_, digit⟩
      · rcases List.mem_cons.mp h with rfl | h
        · exact .inl rfl
        · exact ih h

/-- A run begins with a digit. -/
theorem Run.begins {cs : List Char} {ds : List Nat} (run : Run cs ds) :
    ∃ c rest d, cs = c :: rest ∧ digitValue? c = some d := by
  cases run with
  | one digit | next digit _ | low digit _ => exact ⟨_, _, _, rfl, digit⟩

theorem run_of_digitRun? {cs : List Char} {ds : List Nat} (h : digitRun? cs = some ds) :
    Run cs ds := by
  fun_induction digitRun? cs generalizing ds with
  | case1 => cases h
  | case2 c =>
      obtain ⟨d, digit, rfl⟩ := Option.map_eq_some_iff.mp h
      exact .one digit
  | case3 c rest ih =>
      obtain ⟨d, digit, h⟩ := Option.bind_eq_some_iff.mp h
      obtain ⟨ds, run, h⟩ := Option.bind_eq_some_iff.mp h
      obtain rfl := Option.some.inj h
      exact .low digit (ih run)
  | case4 c rest _ _ ih =>
      obtain ⟨d, digit, h⟩ := Option.bind_eq_some_iff.mp h
      obtain ⟨ds, run, h⟩ := Option.bind_eq_some_iff.mp h
      obtain rfl := Option.some.inj h
      exact .next digit (ih run)

theorem Run.digitRun? {cs : List Char} {ds : List Nat} (run : Run cs ds) :
    digitRun? cs = some ds := by
  induction run with
  | one digit => simp [Decimal.digitRun?, digit]
  | @next c d cs ds digit run ih =>
      -- a low line is no digit, so the run that follows does not begin with one
      obtain ⟨c', rest, d', rfl, digit'⟩ := run.begins
      have apart : c' ≠ '_' := by
        rintro rfl
        rw [digitValue?_marks '_' (by simp)] at digit'
        cases digit'
      simp [Decimal.digitRun?, digit, ih, apart]
  | low digit run ih => simp [Decimal.digitRun?, digit, ih]

theorem digitRun?_eq_some_iff {cs : List Char} {ds : List Nat} :
    digitRun? cs = some ds ↔ Run cs ds :=
  ⟨run_of_digitRun?, Run.digitRun?⟩

theorem readNat?_eq_some_iff {cs : List Char} {n : Nat} : readNat? cs = some n ↔ Denotes cs n := by
  refine Option.bind_eq_some_iff.trans ?_
  simp only [digitRun?_eq_some_iff, Denotes]
  refine exists_congr fun ds => and_congr_right fun _ => ?_
  split
  · next small => rw [Option.some_inj, and_iff_right small]
  · next large => exact iff_of_false nofun fun h => large h.1

/-! ### Signs and blanks -/

/-- What is split off is a sign. -/
theorem sign_splitSign (cs : List Char) :
    ∃ sign, cs = sign ++ (splitSign cs).2 ∧ Sign sign (if (splitSign cs).1 then -1 else 1) := by
  unfold splitSign
  split
  · exact ⟨['-'], rfl, .minus⟩
  · exact ⟨['+'], rfl, .plus⟩
  · exact ⟨[], rfl, .none⟩

/-- A sign is split off the digits behind it. -/
theorem splitSign_append {sign digits : List Char} {factor : Int} {size : Nat}
    (signed : Sign sign factor) (denotes : Denotes digits size) :
    splitSign (sign ++ digits) = (decide (factor = -1), digits) := by
  cases signed with
  | plus | minus => rfl
  | none =>
      obtain ⟨ds, run, -⟩ := denotes
      obtain ⟨c, rest, d, rfl, digit⟩ := run.begins
      have apart {mark : Char} (h : mark ∈ ['_', '+', '-']) : c ≠ mark := by
        rintro rfl
        rw [digitValue?_marks c h] at digit
        cases digit
      unfold splitSign
      split
      · next same => exact absurd (List.cons.inj same).1 (apart (by simp))
      · next same => exact absurd (List.cons.inj same).1 (apart (by simp))
      · rfl

/-- No sign and no digit is a blank. -/
theorem bare_numeral {sign digits : List Char} {factor : Int} {size : Nat}
    (signed : Sign sign factor) (denotes : Denotes digits size) :
    Bare isNumeralBlank (sign ++ digits) := by
  obtain ⟨ds, run, -⟩ := denotes
  refine bare_of_none fun c hc => ?_
  rcases List.mem_append.mp hc with hc | hc
  · cases signed with
    | none => cases hc
    | plus | minus => rw [List.mem_singleton.mp hc]; decide
  · rcases run.mem hc with rfl | ⟨d, digit⟩
    · decide
    · simp [isNumeralBlank, isBlank_of_digitValue? digit]

theorem readInt?_eq (cs : List Char) :
    readInt? cs = (readNat? (splitSign (trim isNumeralBlank cs)).2).map fun (size : Nat) =>
      (if (splitSign (trim isNumeralBlank cs)).1 then -1 else 1) * (size : Int) := by
  unfold readInt?
  obtain ⟨negative, rest⟩ := splitSign (trim isNumeralBlank cs)
  dsimp only
  cases readNat? rest with
  | none => rfl
  | some size => cases negative <;> simp

/-- An integer is read exactly from the texts that write it. -/
theorem readInt?_eq_some_iff {cs : List Char} {n : Int} : readInt? cs = some n ↔ Writes cs n := by
  rw [readInt?_eq, Option.map_eq_some_iff]
  constructor
  · rintro ⟨size, read, rfl⟩
    obtain ⟨before, after, split, all, all', -⟩ := trim_eq_iff.mp (Eq.refl (trim isNumeralBlank cs))
    obtain ⟨sign, whole, signed⟩ := sign_splitSign (trim isNumeralBlank cs)
    exact ⟨before, sign, _, after, _, size, whole ▸ split, all, all', signed,
      readNat?_eq_some_iff.mp read, rfl⟩
  · rintro ⟨before, sign, digits, after, factor, size, split, all, all', signed, denotes, rfl⟩
    have trimmed : trim isNumeralBlank cs = sign ++ digits :=
      trim_eq_iff.mpr ⟨before, after, split, all, all', bare_numeral signed denotes⟩
    rw [trimmed, splitSign_append signed denotes]
    refine ⟨size, readNat?_eq_some_iff.mpr denotes, ?_⟩
    cases signed <;> rfl

end BudgetReaper.Decimal
