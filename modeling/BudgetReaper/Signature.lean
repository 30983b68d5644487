import BudgetReaper.Decimal.Digits

/-!
# Signatures — which arguments a call takes

A signature names the parameters of a call: those that need an argument, those that can do without
one, and whether any other argument is taken along.  `Signature.fault?` gives the first argument
that does not fit, or else the parameters that have none; exactly the required arguments always fit
(`fault?_required`).
-/

namespace BudgetReaper

/-- What a call takes. -/
structure Signature where
  /-- The call as a message names it. -/
  name : String
  required : List String := []
  optional : List String := []
  isOpen : Bool := false
  deriving DecidableEq, Repr, Inhabited

namespace Signature

/-- Why the arguments of a call do not fit. -/
inductive Fault where
  /-- An argument for a parameter that has its argument. -/
  | twice (call parameter : String)
  /-- An argument that is named twice. -/
  | namedTwice (call argument : String)
  /-- An argument for which there is no parameter. -/
  | unknown (call argument : String)
  /-- Parameters without arguments. -/
  | missing (call : String) (parameters : List String)
  /-- More arguments in a row than there are parameters, none of which needs one. -/
  | surplus (call : String) (limit given : Nat)
  deriving DecidableEq, Repr, Inhabited

namespace Fault

/-- Parameters as a message lists them. -/
def listed : List String → String
  | [] => ""
  | [p] => "'" ++ p ++ "'"
  | [p, q] => "'" ++ p ++ "' and '" ++ q ++ "'"
  | ps => String.join (ps.dropLast.map fun p => "'" ++ p ++ "', ") ++
      "and '" ++ ps.getLastD "" ++ "'"

/-- The text of a fault. -/
def message : Fault → String
  | twice call parameter => call ++ "() got multiple values for argument '" ++ parameter ++ "'"
  | namedTwice call argument =>
    call ++ "() got multiple values for keyword argument '" ++ argument ++ "'"
  | unknown call argument => call ++ "() got an unexpected keyword argument '" ++ argument ++ "'"
  | missing call parameters =>
    call ++ "() missing " ++ Decimal.text parameters.length ++ " required positional argument" ++
      (if parameters.length = 1 then ": " else "s: ") ++ listed parameters
  | surplus call limit given =>
    call ++ "() takes from 0 to " ++ Decimal.text limit ++ " positional arguments but " ++
      Decimal.text given ++ " were given"

end Fault

/-- The parameters, those that need an argument first. -/
def parameters (s : Signature) : List String :=
  s.required ++ s.optional

/-- The parameter for what is called, which always has its argument. -/
def receiver : String := "self"

/-- Why one argument does not fit, if it does not. -/
def argumentFault? (s : Signature) (argument : String) : Option Fault :=
  if argument = receiver then some (.twice s.name argument)
  else if s.isOpen || s.parameters.contains argument then none
  else some (.unknown s.name argument)

/-- Why the arguments do not fit, if they do not. -/
def fault? (s : Signature) (arguments : List String) : Option Fault :=
  match arguments.findSome? s.argumentFault? with
  | some fault => some fault
  | none =>
    match s.required.filter fun p => !arguments.contains p with
    | [] => none
    | parameters => some (.missing s.name parameters)

/-- Arguments fit that are parameters, with those that are required among them. -/
theorem fault?_eq_none {s : Signature} {arguments : List String}
    (known : ∀ p ∈ arguments, p ∈ s.parameters) (h : receiver ∉ arguments)
    (given : ∀ p ∈ s.required, p ∈ arguments) : s.fault? arguments = none := by
  have each : arguments.findSome? s.argumentFault? = none := by
    rw [List.findSome?_eq_none_iff]
    intro p hp
    have other : p ≠ receiver := fun e => h (e ▸ hp)
    simp [argumentFault?, other, known p hp]
  have every : (s.required.filter fun p => !arguments.contains p) = [] := by
    simpa using given
  rw [fault?, each, every]

/-- Exactly the required arguments fit. -/
theorem fault?_required {s : Signature} (h : receiver ∉ s.required) :
    s.fault? s.required = none :=
  fault?_eq_none (fun _ hp => List.mem_append_left _ hp) h fun _ hp => hp

end Signature

end BudgetReaper
