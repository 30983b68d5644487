import BudgetReaper.Job
import Std.Time

/-!
# The command

The command runs the job on the variables of its environment.  It reads the clock and the
variables, runs the job, writes the complaints to the standard error and the kept records to the
standard output, and exits with the job's code.  No transport to a cluster is bound to it: every
source of credentials is refused, and the job ends where it needs one.
-/

namespace BudgetReaper.Command

/-- The stamp of the present time in UTC. -/
def present : IO Stamp := do
  let t := (Std.Time.DateTime.ofTimestamp (← Std.Time.Timestamp.now) .UTC).toPlainDateTime
  return {
    year := t.year.toInt.toNat
    month := t.month.toNat
    day := t.day.toNat
    hour := t.hour.toNat
    minute := t.minute.toNat
    second := t.time.second.toNat
    micro := t.nanosecond.toNat / 1000
    zone := some .utc }

/-- The variables that the job reads and that are set. -/
def environment : IO Environment :=
  Settings.variableNames.filterMapM fun name => do
    return (← IO.getEnv name).map (name, ·)

/-- How every source of credentials ends without a transport. -/
def refusal : Fault :=
  .credentials "no transport to a cluster is bound"

/-- The job without a transport. -/
def job (now : Stamp) : Job :=
  { sources :=
      { named := none
        existing := []
        defaults := []
        account := some refusal
        files := [some refusal] }
    cluster := default
    answers := []
    now
    runId := now.text }

/-- The log that the effects of a job set up last, if they set one up. -/
def logOf (trace : List Effect) : Option Log.Setup :=
  trace.reverse.findSome? fun
    | .setup level format => (Job.logOf level format).toOption
    | _ => none

/-- The time of a record: a stamp in UTC, marked as such. -/
def timeText (now : Stamp) : String :=
  { now with zone := none }.text ++ "Z"

/-- Writes what others can see of an effect. -/
def write (log : Option Log.Setup) (time : String) : Effect → IO Unit
  | .complaint text => IO.eprint text
  | .notice n =>
    match log with
    | some l => IO.print ((l.write time n.record).toOption.getD "")
    | none => return ()
  | _ => return ()

end BudgetReaper.Command

open BudgetReaper in
/-- Runs the job once. -/
def main : IO UInt32 := do
  let now ← Command.present
  let opened (level format : Value) := (Job.logOf level format).map fun _ => ()
  let outcome := (Job.main (← Command.environment) none opened).run (Command.job now)
  for effect in outcome.trace do
    Command.write (Command.logOf outcome.trace) (Command.timeText now) effect
  match outcome.result with
  | .ok code => return code.toUInt32
  | .error f =>
    IO.eprintln (f.typeName ++ ": " ++ f.message)
    return 1
