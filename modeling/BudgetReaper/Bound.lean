import BudgetReaper.Decimal.Numeral
import BudgetReaper.Value.Number

/-!
# Bounds — a count or a percentage

The two bounds of a budget come as an integer, an absolute count, or as a text that ends in a
percent sign.  `ofValue` reads one, `resolve` gives the count that it stands for among `total`
pods: a percentage is scaled to a double and then rounded up or down.  A bound that is read holds an
integer (`eq_int_of_ofValue`); one that is made may hold a value of any kind.
-/

namespace BudgetReaper

/-- A count, or a percentage of a total. -/
inductive Bound where
  | absolute (count : Value)
  | percentage (percent : Value)
  deriving DecidableEq, Repr, Inhabited

namespace Bound

/-- Why a value is no bound. -/
inductive Fault where
  | truthValue (b : Bool)
  | noPercentSign (s : String)
  | noNumeral (s : String)
  | wrongKind (kind : String)
  deriving DecidableEq, Repr, Inhabited

/-- The text of a fault. -/
def Fault.message : Fault → String
  | .truthValue b => "invalid value for IntOrString: " ++ (Value.bool b).display
  | .noPercentSign s =>
    "invalid value for IntOrString: invalid type: string is not a percentage: " ++ Text.quoted s
  | .noNumeral s => "invalid value for IntOrString: " ++ Text.quoted s
  | .wrongKind kind => "invalid type for IntOrString: " ++ kind

/-- What stands before a percent sign at the end. -/
def beforePercent? (cs : List Char) : Option (List Char) :=
  match cs.reverse with
  | '%' :: rest => some rest.reverse
  | _ => none

/-- The percentage that a text writes. -/
def ofText (s : String) : Except Fault Bound :=
  match beforePercent? s.toList with
  | none => .error (.noPercentSign s)
  | some cs =>
    match Decimal.readInt? cs with
    | some n => .ok (percentage (.int n))
    | none => .error (.noNumeral s)

/-- The bound that a value writes; `null` writes none. -/
def ofValue : Value → Except Fault (Option Bound)
  | .null => .ok none
  | .bool b => .error (.truthValue b)
  | .int n => .ok (some (absolute (.int n)))
  | .str s => (ofText s).map some
  | v => .error (.wrongKind v.kindName)

/-- The count that the bound stands for among `total`, a share rounded up or down. -/
def resolve (b : Bound) (total : Value) (up : Bool) : Except Value.Fault Value :=
  match b with
  | absolute count => .ok count
  | percentage percent => do
    let share ← percent.share total
    let count := Number.rounded (if up then Binary64.ceil? else Binary64.floor?) share
    (count.map .int).mapError .number

/-- The text of a bound. -/
def text : Bound → String
  | absolute count => count.plain
  | percentage percent => percent.plain ++ "%"

/-- The value of a bound. -/
def value : Bound → Value
  | absolute count => count
  | percentage percent => percent

/-- Whether a bound is a percentage. -/
def isPercentage : Bound → Bool
  | absolute _ => false
  | percentage _ => true

@[simp] theorem beforePercent?_append (cs : List Char) :
    beforePercent? (cs ++ ['%']) = some cs := by
  simp [beforePercent?]

/-- A text has a percent sign at its end exactly when something stands before one. -/
theorem beforePercent?_eq_some_iff {cs front : List Char} :
    beforePercent? cs = some front ↔ cs = front ++ ['%'] := by
  constructor
  · intro h
    unfold beforePercent? at h
    split at h
    · next rest e =>
      cases h
      have := congrArg List.reverse e
      simpa using this
    · cases h
  · rintro rfl
    exact beforePercent?_append front

@[simp] theorem resolve_absolute (count total : Value) (up : Bool) :
    (absolute count).resolve total up = .ok count := rfl

/-- A bound that is read holds an integer. -/
theorem eq_int_of_ofValue {v : Value} {b : Bound} (h : ofValue v = .ok (some b)) :
    ∃ n, b.value = .int n := by
  unfold ofValue at h
  split at h
  · cases h
  · cases h
  · cases h; exact ⟨_, rfl⟩
  · next s =>
    unfold ofText at h
    split at h
    · cases h
    · split at h
      · cases h; exact ⟨_, rfl⟩
      · cases h
  · cases h

end Bound

end BudgetReaper
