import BudgetReaper.Value.Number

/-!
# Values — items and members

Two values are equal if they are the same number, of whichever kind, or agree part by part; the
order of fields does not matter.  A list has its items as members, an object its names, a text its
parts; the items of a text are its characters.
-/

namespace BudgetReaper.Value

/-! ### Equality -/

mutual

/-- Two values are equal. -/
def equals : (v w : Value) → Bool
  | null, w => match w with
    | null => true
    | _ => false
  | bool b, w => (w.number?.map (Number.equals (.whole (bit b)))).getD false
  | int n, w => (w.number?.map (Number.equals (.whole n))).getD false
  | float x, w => (w.number?.map (Number.equals (.real x))).getD false
  | str s, w => match w with
    | str t => s == t
    | _ => false
  | list vs, w => match w with
    | list ws => equalItems vs ws
    | _ => false
  | object fields, w => match w with
    | object others => fields.length == others.length && equalFields fields others
    | _ => false

/-- Two lists are equal item by item. -/
def equalItems : (vs ws : List Value) → Bool
  | [], [] => true
  | v :: vs, w :: ws => equals v w && equalItems vs ws
  | _, _ => false

/-- Every field is among the others with an equal value. -/
def equalFields : (fields others : List (String × Value)) → Bool
  | [], _ => true
  | (k, v) :: rest, others =>
    (match (others.find? (·.1 == k)).map Prod.snd with
      | some w => equals v w
      | none => false) && equalFields rest others

end

/-! ### Members -/

/-- The first text is a part of the second. -/
def isPart (part : List Char) : List Char → Bool
  | [] => part.isEmpty
  | c :: cs => part.isPrefixOf (c :: cs) || isPart part cs

/-- The value cannot be looked up among names. -/
def isUnnamed : Value → Bool
  | list _ | object _ => true
  | _ => false

/-- Whether a value is a member of another. -/
def hasMember (v member : Value) : Except Fault Bool :=
  match v with
  | list items => .ok (items.any member.equals)
  | object fields =>
    if member.isUnnamed then .error (.notAName member.kindName)
    else .ok (fields.any fun field => member.equals (str field.1))
  | str s =>
    match member with
    | str part => .ok (isPart part.toList s.toList)
    | _ => .error (.notWithinText member.kindName)
  | _ => .error (.noMembers v.kindName)

/-- The items of a value. -/
def items : Value → Except Fault (List Value)
  | list items => .ok items
  | str s => .ok (s.toList.map fun c => str (String.singleton c))
  | object fields => .ok (fields.map fun field => str field.1)
  | v => .error (.noItems v.kindName)

/-! ### Small facts -/

@[simp] theorem equals_int (m n : Int) : (int m).equals (int n) = decide (m = n) := by
  simp [equals, number?]

@[simp] theorem equals_str (s t : String) : (str s).equals (str t) = (s == t) := by
  simp [equals]

/-- A part is a text that stands within another without a gap. -/
theorem isPart_iff_infix {part cs : List Char} : isPart part cs = true ↔ part <:+: cs := by
  induction cs with
  | nil => simp [isPart]
  | cons c cs ih => simp [isPart, ih, List.infix_cons_iff]

/-- An integer is equal to an optional one exactly when it is that. -/
theorem equals_ofInt? (n : Int) (m : Option Int) :
    (int n).equals (ofInt? m) = decide (m = some n) := by
  cases m with
  | none => simp [ofInt?, equals, number?]
  | some m => simp [ofInt?, eq_comm]

/-- A list of texts has an optional text as a member exactly when it is among them. -/
theorem hasMember_texts (ss : List String) (s : Option String) :
    (texts ss).hasMember (ofText? s) = .ok ((s.map ss.contains).getD false) := by
  cases s with
  | none => simp [texts, hasMember, ofText?, equals]
  | some s => simp [texts, hasMember, ofText?, List.any_map, Function.comp_def, List.any_beq]

end BudgetReaper.Value
