import BudgetReaper.Assoc
import BudgetReaper.Log.Record
import BudgetReaper.Value.Member

/-!
# Log — forms of calls

A call on the log of a run has named arguments.  Its form says which it needs, which it can do
without, and whether any other argument becomes a field; `Form.all` lists them.  A parameter takes a
value of any kind: `Form.record` shows it as it came, but for the few that are listed item by item.
-/

namespace BudgetReaper.Log

/-- A call on the log of a run. -/
structure Form where
  call : String
  required : List String
  optional : List String := []
  isOpen : Bool := false
  deriving DecidableEq, Repr, Inhabited

namespace Form

/-- The calls on the log of a run. -/
def all : List Form :=
  [{ call := "log_startup", required := ["config_dict"] },
    { call := "log_run_start", required := ["run_id", "dry_run"] },
    { call := "log_run_end", required := ["run_id", "reapable", "reaped", "dry_run"] },
    { call := "log_namespace_excluded", required := ["namespace"] },
    { call := "log_pdb_ignored", required := ["pdb", "reason"], isOpen := true },
    { call := "log_pdb_evaluated", required := ["pdb", "check"] },
    { call := "log_pdb_reapable", required := ["pdbs", "reason"], optional := ["pods"] },
    { call := "log_pdb_dump", required := ["pdb", "dump"] },
    { call := "log_dry_run_skip", required := ["pdb"] },
    { call := "log_pdb_deleted", required := ["pdb"] },
    { call := "log_pdb_already_gone", required := ["pdb"] },
    { call := "log_metric_pushed", required := ["metric", "value", "tags"] },
    { call := "log_error", required := ["error"], optional := ["context"] },
    { call := "log_warning", required := ["message"], isOpen := true },
    { call := "log_info", required := ["message"], isOpen := true },
    { call := "log_debug", required := ["message"], isOpen := true }]

/-- The form of a call, if there is one of this name. -/
def ofCall? (call : String) : Option Form :=
  all.find? fun f => f.call == call

/-- What the call takes. -/
def signature (f : Form) : Signature :=
  { name := "ReaperLogger." ++ f.call
    required := f.required
    optional := f.optional
    isOpen := f.isOpen }

/-! ### Arguments as they came -/

/-- The parameters whose arguments are taken apart: of a failure only the text is shown, and tags
are fields of their own. -/
def takenApart : List String :=
  ["error", "tags"]

/-- The parameters whose arguments are listed item by item, in the order in which they are read. -/
def itemized : List String :=
  ["reapable", "reaped", "pdbs", "pods"]

/-- The parameter for the event. -/
def eventParameter : String := "message"

/-- The argument for a parameter that shows it. -/
def argument? (f : Form) (arguments : List (String × Value)) (p : String) : Option Value :=
  if f.signature.parameters.contains p && !takenApart.contains p then Assoc.get? arguments p
  else none

/-- Why the argument for a parameter cannot be listed, if it cannot. -/
def itemFault? (f : Form) (arguments : List (String × Value)) (p : String) : Option Fault :=
  match (f.argument? arguments p).map Value.items with
  | some (.error fault) => some (.value fault)
  | _ => none

/-- Why the arguments cannot be taken, if they cannot. -/
def fault? (f : Form) (arguments : List (String × Value)) : Option Fault :=
  match f.signature.fault? (arguments.map Prod.fst) with
  | some fault => some (.call fault)
  | none => itemized.findSome? (f.itemFault? arguments)

/-- The argument for a parameter as it is shown. -/
def shown? (f : Form) (arguments : List (String × Value)) (p : String) : Option Value :=
  (f.argument? arguments p).map fun v =>
    if itemized.contains p then .list (v.items.toOption.getD []) else v

/-- The fields of a call that hold a thing and not its text: a failure among further arguments. -/
def things (f : Form) : List String :=
  if f.isOpen then ["error"] else []

/-- The record of a call, with the arguments as they came. -/
def record (f : Form) (arguments : List (String × Value)) (r : Record) : Record :=
  { r with
    event := (f.shown? arguments eventParameter).getD r.event
    fields := r.fields.map fun (p, v) => (p, (f.shown? arguments p).getD v)
    verbatim := f.things }

/-- Without arguments nothing is shown but what the record says. -/
theorem record_nil (f : Form) (r : Record) :
    (f.record [] r).event = r.event ∧ (f.record [] r).fields = r.fields := by
  simp [record, shown?, argument?, Assoc.get?]

end Form

end BudgetReaper.Log
