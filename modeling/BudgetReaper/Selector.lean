import BudgetReaper.Text.Quoted
import BudgetReaper.Value.Layout

/-!
# Selectors — from structured requirements to a query text

A selector is a list of labels and a list of expressions; each is one requirement on the labels
of a pod.  `render` writes the query text of a list call: the requirements in the order of their
bare keys, labels before expressions of the same key, separated by commas.  `Expression.fault?`
is the first thing wrong with an expression, and rendering fails exactly for the first expression
that has one (`render_of_fault`).
-/

namespace BudgetReaper

/-- A requirement on one label: its key, an operator and the operator's values. -/
structure Expression where
  key : Option String
  operator : Option String
  values : Option (List String)
  deriving DecidableEq, Repr, Inhabited

/-- The pods whose labels meet every requirement. -/
structure Selector where
  labels : Option (List (String × String))
  expressions : Option (List Expression)
  deriving DecidableEq, Repr, Inhabited

namespace Expression

/-- The value list of an expression. -/
def valueList (e : Expression) : List String :=
  e.values.getD []

/-- The expression in the text of a message. -/
def text (e : Expression) : String :=
  "key=" ++ Text.quotedOrNone e.key ++ " operator=" ++ Text.quotedOrNone e.operator ++
    " values=" ++ (match e.values with
      | none => "None"
      | some vs => (Value.texts vs).display)

/-- The expression as an object. -/
def toValue (e : Expression) : Value :=
  .object [("key", .ofText? e.key), ("operator", .ofText? e.operator),
    ("values", (e.values.map Value.texts).getD .null)]

/-- What makes an expression unfit for a query. -/
inductive Fault where
  | noKey (e : Expression)
  | noValues (operator key : String)
  | hasValues (operator key : String)
  | unknownOperator (name : Option String)
  deriving DecidableEq, Repr, Inhabited

/-- The text of a fault. -/
def Fault.message : Fault → String
  | .noKey e => "label selector requirement has no key: " ++ e.text
  | .noValues operator key =>
    "values must be non-empty for operator " ++ operator ++ " on key " ++ key
  | .hasValues operator key => "values must be empty for operator " ++ operator ++ " on key " ++ key
  | .unknownOperator name => Text.quotedOrNone name ++ " is not a valid label selector operator"

/-- Texts in code-point order. -/
def sorted (ss : List String) : List String :=
  ss.mergeSort fun a b => decide (a ≤ b)

/-- The requirement of an expression in a query: the bare key and the text. -/
def render (e : Expression) : Except Fault (String × String) :=
  let key := e.key.getD ""
  let values := e.valueList
  let list := " (" ++ ",".intercalate (sorted values) ++ ")"
  if key = "" then .error (.noKey e)
  else match e.operator with
    | some "In" =>
      if values = [] then .error (.noValues "In" key) else .ok (key, key ++ " in" ++ list)
    | some "NotIn" =>
      if values = [] then .error (.noValues "NotIn" key) else .ok (key, key ++ " notin" ++ list)
    | some "Exists" => if values = [] then .ok (key, key) else .error (.hasValues "Exists" key)
    | some "DoesNotExist" =>
      if values = [] then .ok (key, "!" ++ key) else .error (.hasValues "DoesNotExist" key)
    | other => .error (.unknownOperator other)

/-- The fault of an expression, if it has one. -/
def fault? (e : Expression) : Option Fault :=
  match e.render with
  | .error f => some f
  | .ok _ => none

end Expression

namespace Selector

/-- The labels of a selector, each key once. -/
def labelList (s : Selector) : List (String × String) :=
  s.labels.getD []

/-- The expressions of a selector. -/
def expressionList (s : Selector) : List Expression :=
  s.expressions.getD []

/-- The requirements of the labels, in code-point order of label and value. -/
def labelRequirements (s : Selector) : List (String × String) :=
  let ordered := s.labelList.mergeSort fun a b => decide (a.1 < b.1 ∨ (a.1 = b.1 ∧ a.2 ≤ b.2))
  ordered.map fun (key, value) => (key, key ++ "=" ++ value)

/-- The requirements of expressions in list order, or the fault of the first that has one. -/
def renderAll : List Expression → Except Expression.Fault (List (String × String))
  | [] => .ok []
  | e :: rest => do
    let r ← e.render
    let rs ← renderAll rest
    .ok (r :: rs)

/-- Requirements in the order of their keys; equal keys keep their order. -/
def byKey (rs : List (String × String)) : List (String × String) :=
  rs.mergeSort fun a b => decide (a.1 ≤ b.1)

/-- The query text of a selector. -/
def render (s : Selector) : Except Expression.Fault String := do
  let rs ← renderAll s.expressionList
  .ok (",".intercalate ((byKey (s.labelRequirements ++ rs)).map Prod.snd))

/-- The query text of an optional selector: an absent one selects every pod. -/
def renderOption : Option Selector → Except Expression.Fault String
  | none => .ok ""
  | some s => s.render

/-- The selector in the text of a message. -/
def text (s : Selector) : String :=
  let expressions := match s.expressions with
    | none => "None"
    | some es => "[" ++ ", ".intercalate (es.map fun e => e.toValue.laidOut) ++ "]"
  let labels := match s.labels with
    | none => Value.null
    | some ls => .object (ls.map fun (k, v) => (k, .str v))
  "match_expressions=" ++ expressions ++ " match_labels=" ++ labels.display

/-- An optional selector in the text of a message. -/
def optionText : Option Selector → String
  | none => "None"
  | some s => s.text

/-! ### Which expression fails -/

/-- Rendering a list of expressions gives the fault of the first that has one. -/
theorem renderAll_eq_error_iff {es : List Expression} {f : Expression.Fault} :
    renderAll es = .error f ↔ es.findSome? Expression.fault? = some f := by
  induction es with
  | nil => simp [renderAll]
  | cons e rest ih =>
    cases h : e.render with
    | error g => simp [renderAll, h, Expression.fault?, bind, Except.bind]
    | ok r =>
      cases h' : renderAll rest with
      | error g => simp [renderAll, h, h', Expression.fault?, bind, Except.bind, ← ih]
      | ok rs =>
        have none' : ¬ List.findSome? Expression.fault? rest = some f := by simp [← ih, h']
        simp [renderAll, h, h', Expression.fault?, bind, Except.bind, none']

/-- A selector fails to render with the fault of its first unfit expression. -/
theorem render_of_fault {s : Selector} {f : Expression.Fault} :
    s.render = .error f ↔ s.expressionList.findSome? Expression.fault? = some f := by
  rw [← renderAll_eq_error_iff, render]
  cases renderAll s.expressionList <;> simp [bind, Except.bind]

end Selector

end BudgetReaper
