import BudgetReaper.Proofs.Decimal.Numeral

/-!
# Decimal — integers that are written and read back

Of all numerals of an integer the one that is written has the fewest digits (`length_ofDigits_le`).  So it
is read back whenever the integer has a numeral at all (`readInt?_ofInt`), which is so exactly if its own
one has at most `digitLimit` digits (`Fits`).
-/

namespace BudgetReaper.Decimal

open BudgetReaper.Text

/-- The integer has at most `digitLimit` decimal digits. -/
def Fits (n : Int) : Prop :=
  length n.natAbs ≤ digitLimit

instance (n : Int) : Decidable (Fits n) :=
  inferInstanceAs (Decidable (_ ≤ _))

/-! ### Digits -/

theorem digitValue?_digitChar {d : Nat} (h : d < 10) : digitValue? (Nat.digitChar d) = some d := by
  revert d
  decide +kernel

theorem ofDigits_concat (ds : List Nat) (d : Nat) : ofDigits (ds ++ [d]) = 10 * ofDigits ds + d := by
  simp [ofDigits]

/-- A run of digits goes on with one more. -/
theorem Run.concat {cs : List Char} {ds : List Nat} (run : Run cs ds) {c : Char} {d : Nat}
    (digit : digitValue? c = some d) : Run (cs ++ [c]) (ds ++ [d]) := by
  induction run with
  | one first => exact .next first (.one digit)
  | next first _ ih => exact .next first ih
  | low first _ ih => exact .low first ih

theorem Run.lt_ten {cs : List Char} {ds : List Nat} (run : Run cs ds) : ∀ d ∈ ds, d < 10 := by
  induction run with
  | one digit => exact List.forall_mem_singleton.mpr (digitValue?_lt digit)
  | next digit _ ih | low digit _ ih => exact List.forall_mem_cons.mpr ⟨digitValue?_lt digit, ih⟩

/-- As many digits as there are make every number below the power of ten. -/
theorem ofDigits_lt (ds : List Nat) (small : ∀ d ∈ ds, d < 10) :
    ofDigits ds < unit ds.length := by
  induction ds using List.reverseRecOn with
  | nil => decide
  | append_singleton ds d ih =>
      have front := ih fun e he => small e (List.mem_append_left _ he)
      have last := small d (by simp)
      rw [ofDigits_concat, List.length_append, List.length_singleton, unit_succ]
      omega

/-! ### Naturals -/

theorem ofNat_of_lt {n : Nat} (one : n < 10) : ofNat n = [Nat.digitChar n] := by
  rw [ofNat, Nat.toDigits_eq_if (by decide), if_pos one]

/-- The last digit is written behind all others. -/
theorem ofNat_of_le {n : Nat} (more : 10 ≤ n) :
    ofNat n = ofNat (n / 10) ++ [Nat.digitChar (n % 10)] := by
  rw [ofNat, Nat.toDigits_eq_if (by decide), if_neg (Nat.not_lt.mpr more), ofNat]

/-- What is written is a run of digits without low lines, and they denote the number. -/
theorem run_ofNat (n : Nat) :
    ∃ ds, Run (ofNat n) ds ∧ ds.length = (ofNat n).length ∧ ofDigits ds = n := by
  induction n using Nat.strong_induction_on with
  | _ n ih =>
      rcases Nat.lt_or_ge n 10 with one | more
      · rw [ofNat_of_lt one]
        exact ⟨[n], .one (digitValue?_digitChar one), rfl, by simp [ofDigits]⟩
      · obtain ⟨ds, run, length, value⟩ := ih (n / 10) (by omega)
        rw [ofNat_of_le more]
        refine ⟨ds ++ [n % 10], run.concat (digitValue?_digitChar (Nat.mod_lt n (by decide))), ?_, ?_⟩
        · rw [List.length_append, List.length_append, length]
          rfl
        · rw [ofDigits_concat, value]
          omega

/-- No numeral of a number has fewer digits than the one that is written. -/
theorem length_ofDigits_le {cs : List Char} {ds : List Nat} (run : Run cs ds) :
    length (ofDigits ds) ≤ ds.length := by
  have filled : 0 < ds.length := by
    cases run <;> simp
  rw [length, ofNat, Nat.length_toDigits_le_iff (by decide) filled]
  exact ofDigits_lt ds run.lt_ten

/-- Only zero is written with a zero in front. -/
theorem ofNat_eq_of_head? {n : Nat} (h : (ofNat n).head? = some '0') : ofNat n = ['0'] := by
  induction n using Nat.strong_induction_on with
  | _ n ih =>
      rcases Nat.lt_or_ge n 10 with one | more
      · rw [ofNat_of_lt one] at h ⊢
        rw [Option.some.inj h]
      · rw [ofNat_of_le more, List.head?_append_of_ne_nil _ (ofNat_ne_nil (n / 10))] at h
        have zero : n / 10 = 0 := ofNat_injective (ih (n / 10) (by omega) h)
        omega

theorem denotes_ofNat {n : Nat} (fits : length n ≤ digitLimit) : Denotes (ofNat n) n := by
  obtain ⟨ds, run, same, value⟩ := run_ofNat n
  exact ⟨ds, run, same ▸ fits, value⟩

/-! ### Integers -/

/-- An integer that has a numeral fits. -/
theorem Writes.fits {cs : List Char} {n : Int} (writes : Writes cs n) : Fits n := by
  obtain ⟨_, _, digits, _, factor, size, -, -, -, signed, ⟨ds, run, few, rfl⟩, rfl⟩ := writes
  have magnitude : (factor * (ofDigits ds : Int)).natAbs = ofDigits ds := by
    cases signed <;> simp
  rw [Fits, magnitude]
  exact (length_ofDigits_le run).trans few

/-- Digits alone write what they denote. -/
theorem Denotes.writes {cs : List Char} {n : Nat} (denotes : Denotes cs n) : Writes cs n := by
  refine ⟨[], [], cs, [], 1, n, ?_, nofun, nofun, .none, denotes, ?_⟩
  · simp
  · simp

/-- With a minus sign in front they write its negative. -/
theorem Denotes.writes_neg {cs : List Char} {n : Nat} (denotes : Denotes cs n) :
    Writes ('-' :: cs) (-n) := by
  refine ⟨[], ['-'], cs, [], -1, n, ?_, nofun, nofun, .minus, denotes, ?_⟩
  · simp
  · simp

/-- An integer that fits is written as one of its numerals. -/
theorem writes_ofInt {n : Int} (fits : Fits n) : Writes (ofInt n) n := by
  cases n with
  | ofNat n => exact (denotes_ofNat fits).writes
  | negSucc n => exact (denotes_ofNat fits).writes_neg

/-- An integer that fits is read back from its text. -/
theorem readInt?_ofInt {n : Int} (fits : Fits n) : readInt? (ofInt n) = some n :=
  readInt?_eq_some_iff.mpr (writes_ofInt fits)

/-- An integer is written with digits and, if it is negative, a minus sign. -/
theorem mem_ofInt {n : Int} {c : Char} (h : c ∈ ofInt n) : c = '-' ∨ c.isDigit = true := by
  cases n with
  | ofNat n => exact .inr (isDigit_of_mem_ofNat h)
  | negSucc n =>
      rcases List.mem_cons.mp h with rfl | h
      · exact .inl rfl
      · exact .inr (isDigit_of_mem_ofNat h)

end BudgetReaper.Decimal
