import BudgetReaper.Binary64.Basic

/-!
# Values

The data that a log record, a dump or a bound holds when its shape is not fixed: an absent value,
a truth value, an integer, a double, a text, a list, or an object, whose fields are in order and
have distinct names.
-/

namespace BudgetReaper

/-- A value of any shape. -/
inductive Value where
  | null
  | bool (b : Bool)
  | int (n : Int)
  | float (x : Binary64)
  | str (s : String)
  | list (items : List Value)
  | object (fields : List (String × Value))
  deriving Repr, Inhabited

namespace Value

/-! ### Identity -/

mutual

/-- Whether two values are the same. -/
def decEq : (v w : Value) → Decidable (v = w)
  | null, null => isTrue rfl
  | bool a, bool b => decidable_of_iff (a = b) (by simp)
  | int a, int b => decidable_of_iff (a = b) (by simp)
  | float a, float b => decidable_of_iff (a = b) (by simp)
  | str a, str b => decidable_of_iff (a = b) (by simp)
  | list a, list b =>
    match decEqItems a b with
    | isTrue h => isTrue (by rw [h])
    | isFalse h => isFalse (by simpa using h)
  | object a, object b =>
    match decEqFields a b with
    | isTrue h => isTrue (by rw [h])
    | isFalse h => isFalse (by simpa using h)
  | null, bool _ | null, int _ | null, float _ | null, str _ | null, list _ | null, object _
  | bool _, null | bool _, int _ | bool _, float _ | bool _, str _ | bool _, list _
  | bool _, object _ | int _, null | int _, bool _ | int _, float _ | int _, str _
  | int _, list _ | int _, object _ | float _, null | float _, bool _ | float _, int _
  | float _, str _ | float _, list _ | float _, object _ | str _, null | str _, bool _
  | str _, int _ | str _, float _ | str _, list _ | str _, object _ | list _, null
  | list _, bool _ | list _, int _ | list _, float _ | list _, str _ | list _, object _
  | object _, null | object _, bool _ | object _, int _ | object _, float _ | object _, str _
  | object _, list _ => isFalse nofun

/-- Whether two lists have the same items. -/
def decEqItems : (vs ws : List Value) → Decidable (vs = ws)
  | [], [] => isTrue rfl
  | [], _ :: _ | _ :: _, [] => isFalse nofun
  | v :: vs, w :: ws =>
    match decEq v w, decEqItems vs ws with
    | isTrue h, isTrue h' => isTrue (by rw [h, h'])
    | isFalse h, _ => isFalse fun e => h (List.cons.inj e).1
    | _, isFalse h => isFalse fun e => h (List.cons.inj e).2

/-- Whether two objects have the same fields in the same order. -/
def decEqFields : (vs ws : List (String × Value)) → Decidable (vs = ws)
  | [], [] => isTrue rfl
  | [], _ :: _ | _ :: _, [] => isFalse nofun
  | (j, v) :: vs, (k, w) :: ws =>
    if names : j = k then
      match decEq v w, decEqFields vs ws with
      | isTrue h, isTrue h' => isTrue (by rw [names, h, h'])
      | isFalse h, _ => isFalse fun e => h (Prod.mk.inj (List.cons.inj e).1).2
      | _, isFalse h => isFalse fun e => h (List.cons.inj e).2
    else isFalse fun e => names (Prod.mk.inj (List.cons.inj e).1).1

end

instance : DecidableEq Value := decEq

/-! ### Parts -/

/-- An absent text is `null`. -/
def ofText? : Option String → Value
  | none => null
  | some s => str s

/-- An absent integer is `null`. -/
def ofInt? : Option Int → Value
  | none => null
  | some n => int n

/-- A list of texts. -/
def texts (ss : List String) : Value :=
  list (ss.map str)

/-- The value of a field of an object. -/
def field? : Value → String → Option Value
  | object fields, name => (fields.find? (·.1 == name)).map Prod.snd
  | _, _ => none

/-- The value of a field of an object, `null` if there is none. -/
def field (v : Value) (name : String) : Value :=
  (v.field? name).getD null

/-- The value counts as nothing: it is absent, false, zero or empty. -/
def isNothing : Value → Bool
  | null => true
  | bool b => !b
  | int n => n == 0
  | float (.finite _ m _) => m == 0
  | float _ => false
  | str s => s.isEmpty
  | list items => items.isEmpty
  | object fields => fields.isEmpty

/-- The value counts as true: it is not nothing. -/
def holds (v : Value) : Bool :=
  !v.isNothing

/-- An object of the fields that are present. -/
def present (fields : List (String × Option Value)) : Value :=
  object (fields.filterMap fun (name, v) => v.map (name, ·))

end Value

end BudgetReaper
