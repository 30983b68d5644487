import BudgetReaper.Assoc
import BudgetReaper.Binary64.Reading
import BudgetReaper.Value.Member

/-!
# Gauges — the registry of samples

A registry holds gauges by name, in order of first use, and each gauge its samples by label set,
in order of first use.  `set` records a value.  It fails in steps, and each step leaves what the
steps before it made: an empty name leaves nothing, a missing tag leaves the gauge, a value that
is no double leaves the sample with its old value, zero if it is new.

Gauges, labels and the order of samples are those of a `CollectorRegistry`, as the package
`prometheus_client` documents it.
-/

namespace BudgetReaper

/-- The labels of a sample. -/
structure Labels where
  space : String
  budget : String
  reason : String
  deriving DecidableEq, Repr, Inhabited

/-- Gauges by name, and the samples of each by labels. -/
structure Registry where
  gauges : List (String × List (Labels × Binary64)) := []
  deriving DecidableEq, Repr, Inhabited

namespace Registry

/-- Why a sample cannot be recorded. -/
inductive Fault where
  | emptyName
  | missingTag (tag : String)
  | noNumeral (s : String)
  | wrongKind (kind : String)
  | number (f : Number.Fault)
  /-- The name is of another kind than a text. -/
  | name (f : Value.Fault)
  deriving DecidableEq, Repr, Inhabited

namespace Fault

/-- The text of a fault. -/
def message : Fault → String
  | emptyName => "Metric name should not be empty"
  | missingTag tag => Text.quoted tag
  | noNumeral s => "could not convert string to float: " ++ Text.quoted s
  | wrongKind kind => "float() argument must be a string or a real number, not '" ++ kind ++ "'"
  | number f => f.message
  | name f => f.message

/-- A fault of the name, the tags or the text of a value, reported as a failure to record. -/
def isReported : Fault → Bool
  | emptyName | missingTag _ | noNumeral _ => true
  | wrongKind _ | number _ | name _ => false

/-- The name of a kind of fault that is not reported. -/
def typeName : Fault → String
  | number f => f.typeName
  | name f => f.typeName
  | _ => "TypeError"

end Fault

/-- The double zero. -/
def zero : Binary64 :=
  .ofInt 0

/-- The double that a value stands for. -/
def toDouble : Value → Except Fault Binary64
  | .str s =>
    match Binary64.read? s.toList with
    | some x => .ok x
    | none => .error (.noNumeral s)
  | v =>
    match v.number? with
    | some n => n.toDouble.mapError .number
    | none => .error (.wrongKind v.kindName)

/-- The name of a gauge that a value gives; a value that is nothing gives the empty name. -/
def nameOf : Value → Except Fault String
  | .str s => .ok s
  | v =>
    if v.isUnnamed then .error (.name (.notAName v.kindName))
    else if v.isNothing then .ok ""
    else .error (.name (.notAText v.kindName))

/-- The text of a tag. -/
def tag (tags : List (String × Value)) (name : String) : Except Fault String :=
  match Assoc.get? tags name with
  | some v => .ok v.plain
  | none => .error (.missingTag name)

/-- The labels that the tags give; further tags have no influence. -/
def labelsOf (tags : List (String × Value)) : Except Fault Labels := do
  let space ← tag tags "namespace"
  let budget ← tag tags "pdb"
  let reason ← tag tags "reason"
  .ok { space, budget, reason }

/-- The samples of a gauge. -/
def samples (r : Registry) (name : String) : List (Labels × Binary64) :=
  (Assoc.get? r.gauges name).getD []

/-- The registry with a gauge called `name`. -/
def register (r : Registry) (name : String) : Registry :=
  { gauges := Assoc.putNew r.gauges name [] }

/-- The registry with a sample under `labels`, zero if it is new. -/
def touch (r : Registry) (name : String) (labels : Labels) : Registry :=
  { gauges := Assoc.put r.gauges name (Assoc.putNew (r.samples name) labels zero) }

/-- The registry with the sample under `labels` at `x`. -/
def assign (r : Registry) (name : String) (labels : Labels) (x : Binary64) : Registry :=
  { gauges := Assoc.put r.gauges name (Assoc.put (r.samples name) labels x) }

/-- The registry after a value has been recorded, and the fault if it could not be. -/
def set (r : Registry) (name : String) (tags : List (String × Value)) (v : Value) :
    Registry × Option Fault :=
  if name = "" then (r, some .emptyName)
  else match labelsOf tags with
    | .error f => (r.register name, some f)
    | .ok labels =>
      match toDouble v with
      | .error f => ((r.register name).touch name labels, some f)
      | .ok x => (((r.register name).touch name labels).assign name labels x, none)

/-- The double of a sample. -/
def value? (r : Registry) (name : String) (labels : Labels) : Option Binary64 :=
  Assoc.get? (r.samples name) labels

/-! ### What a change leaves -/

theorem samples_register (r : Registry) (name other : String) :
    (r.register name).samples other = r.samples other := by
  simp only [samples, register, Assoc.putNew, Assoc.get?_alter]
  by_cases h : name = other
  · subst h; cases Assoc.get? r.gauges name <;> simp
  · simp [h]

theorem samples_touch (r : Registry) (name other : String) (labels : Labels) :
    (r.touch name labels).samples other =
      if name = other then Assoc.putNew (r.samples name) labels zero else r.samples other := by
  by_cases h : name = other <;> simp [samples, touch, Assoc.get?_put, h]

theorem samples_assign (r : Registry) (name other : String) (labels : Labels) (x : Binary64) :
    (r.assign name labels x).samples other =
      if name = other then Assoc.put (r.samples name) labels x else r.samples other := by
  by_cases h : name = other <;> simp [samples, assign, Assoc.get?_put, h]

/-- A value that is recorded is the value of its sample. -/
theorem value?_set {r : Registry} {name : String} {tags : List (String × Value)} {v : Value}
    {labels : Labels} {x : Binary64} (hn : name ≠ "") (hl : labelsOf tags = .ok labels)
    (hv : toDouble v = .ok x) : (r.set name tags v).1.value? name labels = some x := by
  simp [set, hn, hl, hv, value?, samples_assign, Assoc.get?_put]

end Registry

end BudgetReaper
