import BudgetReaper.Binary64.Arithmetic

/-!
# Numbers — integers and doubles together

A number is an integer of any size or a double.  Numbers are compared exactly (`le`, `lt`,
`equals`), whichever kind they are of.  Products and quotients of integers are exact before they
are rounded to a double; as soon as a double takes part, the integers are rounded first.
-/

namespace BudgetReaper

/-- An integer or a double. -/
inductive Number where
  | whole (n : Int)
  | real (x : Binary64)
  deriving DecidableEq, Repr, Inhabited

namespace Number

/-- Why there is no result. -/
inductive Fault where
  /-- An integer beyond the doubles. -/
  | tooLarge
  /-- A quotient of integers beyond the doubles. -/
  | quotientTooLarge
  /-- An integer is sought for what is no number. -/
  | notANumber
  /-- An integer is sought for an infinity. -/
  | infinite
  deriving DecidableEq, Repr, Inhabited

namespace Fault

/-- The text of a fault. -/
def message : Fault → String
  | tooLarge => "int too large to convert to float"
  | quotientTooLarge => "integer division result too large for a float"
  | notANumber => "cannot convert float NaN to integer"
  | infinite => "cannot convert float infinity to integer"

/-- The name of a kind of fault. -/
def typeName : Fault → String
  | notANumber => "ValueError"
  | _ => "OverflowError"

end Fault

/-! ### Order -/

/-- `a ≤ b`. -/
def le : (a b : Number) → Bool
  | whole m, whole n => m ≤ n
  | whole m, real y => y.atLeast m
  | real x, whole n => x.opposite.atLeast (-n)
  | real x, real y => x.le y

/-- `a < b`. -/
def lt (a b : Number) : Bool :=
  a.le b && !b.le a

/-- The two are the same number, of whichever kind. -/
def equals (a b : Number) : Bool :=
  a.le b && b.le a

/-! ### Arithmetic -/

/-- The nearest double. -/
def toDouble : Number → Except Fault Binary64
  | real x => .ok x
  | whole n => if (Binary64.ofInt n).isFinite then .ok (.ofInt n) else .error .tooLarge

/-- The product. -/
def times : (a b : Number) → Except Fault Number
  | whole m, whole n => .ok (whole (m * n))
  | a, b => do .ok (real ((← a.toDouble).times (← b.toDouble)))

/-- The quotient by a positive integer, as a double. -/
def dividedBy (a : Number) (den : Nat) : Except Fault Binary64 :=
  match a with
  | real x => .ok (x.dividedBy den)
  | whole n =>
    let x := Binary64.ofIntRatio n den
    if x.isFinite then .ok x else .error .quotientTooLarge

/-- The integer that a rounding gives, if the double is finite. -/
def rounded (round : Binary64 → Option Int) (x : Binary64) : Except Fault Int :=
  match round x, x with
  | some n, _ => .ok n
  | none, .nan => .error .notANumber
  | none, _ => .error .infinite

/-- The integer part of a number. -/
def truncated : Number → Except Fault Int
  | whole n => .ok n
  | real x => rounded Binary64.truncate? x

/-! ### Small facts -/

@[simp] theorem le_whole (m n : Int) : (whole m).le (whole n) = decide (m ≤ n) := rfl

@[simp] theorem lt_whole (m n : Int) : (whole m).lt (whole n) = decide (m < n) := by
  by_cases h : m < n
  · simp [lt, h, Int.le_of_lt h]
  · simp [lt, h, Int.not_lt.mp h]

@[simp] theorem equals_whole (m n : Int) : (whole m).equals (whole n) = decide (m = n) := by
  simp only [equals, le_whole, ← Bool.decide_and]
  congr 1
  exact propext ⟨fun h => Int.le_antisymm h.1 h.2, fun h => ⟨Int.le_of_eq h, Int.le_of_eq h.symm⟩⟩

end Number

end BudgetReaper
