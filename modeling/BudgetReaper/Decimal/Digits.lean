/-!
# Decimal — the digits of an integer

`ofNat` and `ofInt` write integers in base ten, without leading zeros and with a minus sign for
negative ones.  `ofDigits` is the number that a list of digit values denotes, and `unit k` the
worth of a digit one with `k` digits behind it (`unit_zero`, `unit_succ`).
-/

namespace BudgetReaper.Decimal

/-- The decimal digits of a natural number. -/
def ofNat (n : Nat) : List Char :=
  Nat.toDigits 10 n

/-- The decimal text of an integer. -/
def ofInt : Int → List Char
  | .ofNat n => ofNat n
  | .negSucc n => '-' :: ofNat (n + 1)

/-- The decimal text of an integer, as a string. -/
def text (n : Int) : String :=
  String.ofList (ofInt n)

/-- The number that a list of digit values denotes, most significant first. -/
def ofDigits (ds : List Nat) : Nat :=
  ds.foldl (fun n d => 10 * n + d) 0

/-- The number of decimal digits of `n`. -/
def length (n : Nat) : Nat :=
  (ofNat n).length

/-- The power of ten with `k` zeros. -/
def unit (k : Nat) : Nat :=
  Nat.pow 10 k

@[simp] theorem unit_zero : unit 0 = 1 := rfl

theorem unit_succ (k : Nat) : unit (k + 1) = unit k * 10 := rfl

theorem ofNat_ne_nil (n : Nat) : ofNat n ≠ [] :=
  Nat.toDigits_ne_nil

theorem isDigit_of_mem_ofNat {n : Nat} {c : Char} (h : c ∈ ofNat n) : c.isDigit = true :=
  Nat.isDigit_of_mem_toDigits (by decide) (by decide) h

/-- Different naturals have different digits. -/
theorem ofNat_injective {m n : Nat} (h : ofNat m = ofNat n) : m = n := by
  have back := congrArg (Nat.ofDigitChars 10 · 0) h
  simpa [ofNat] using back

end BudgetReaper.Decimal
