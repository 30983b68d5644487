import BudgetReaper.Value.Display
import BudgetReaper.Value.Fault

/-!
# Values — numbers among them

Truth values, integers and doubles are numbers; a truth value is one or zero.  Only numbers are
compared, and `share` takes a hundredth of a product of two.
-/

namespace BudgetReaper.Value

/-- The integer of a truth value. -/
def bit (b : Bool) : Int :=
  if b then 1 else 0

/-- The number that a value is. -/
def number? : Value → Option Number
  | bool b => some (.whole (bit b))
  | int n => some (.whole n)
  | float x => some (.real x)
  | _ => none

/-! ### Order -/

/-- Whether a relation of numbers holds of two values. -/
def related (sign : String) (holds : Number → Number → Bool) (v w : Value) : Except Fault Bool :=
  match v.number?, w.number? with
  | some a, some b => .ok (holds a b)
  | _, _ => .error (.unordered sign v.kindName w.kindName)

/-- Whether `v < w`. -/
def isLess : (v w : Value) → Except Fault Bool :=
  related "<" Number.lt

/-- Whether `v ≥ w`. -/
def isAtLeast : (v w : Value) → Except Fault Bool :=
  related ">=" fun a b => b.le a

/-! ### Shares -/

/-- The number of places of a text or a list, which can be repeated. -/
def places? : Value → Option Nat
  | str s => some s.toList.length
  | list items => some items.length
  | _ => none

/-- The number of places that are numbered. -/
def placeLimit : Nat := 9223372036854775807

/-- The number of places that there is room for. -/
def placeRoom : Nat := 68719476736

/-- The fault of a share of a sequence: it can be repeated by an integer, but not divided then. -/
def repeatedFault (sequence : Value) (places : Nat) (n : Int) : Fault :=
  let length := n.toNat * places
  if n < -(placeLimit + 1) ∨ placeLimit < n then .tooOften
  else if placeRoom < length then
    match sequence with
    | str _ => if placeLimit < length then .tooLong else .noRoom
    | _ => .noRoom
  else .notCombined "/" sequence.kindName (int 0).kindName

/-- The fault of a share of a sequence and another value. -/
def sequenceFault (sequence : Value) (places : Nat) (count : Value) : Fault :=
  match count.number? with
  | some (.whole n) => repeatedFault sequence places n
  | _ => .notRepeated count.kindName

/-- A hundredth of the product of two values. -/
def share (v w : Value) : Except Fault Binary64 :=
  match v.number?, w.number? with
  | some a, some b => (do (← a.times b).dividedBy 100).mapError .number
  | _, _ =>
    match v.places?, w.places? with
    | some places, _ => .error (sequenceFault v places w)
    | none, some places => .error (sequenceFault w places v)
    | none, none => .error (.notCombined "*" v.kindName w.kindName)

/-! ### Small facts -/

@[simp] theorem number?_int (n : Int) : (int n).number? = some (.whole n) := rfl

@[simp] theorem isLess_int (m n : Int) : (int m).isLess (int n) = .ok (decide (m < n)) := by
  simp [isLess, related, number?]

/-- Only what is no number cannot be compared with a number. -/
theorem isLess_eq_ok_iff (v : Value) (n : Int) :
    (∃ b, v.isLess (int n) = .ok b) ↔ v.number?.isSome = true := by
  cases v <;> simp [isLess, related, number?]

end BudgetReaper.Value
