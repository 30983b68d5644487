import BudgetReaper.Credentials
import BudgetReaper.Log.Line
import BudgetReaper.Reaping.Run
import BudgetReaper.Settings.VariableFile

/-!
# The job — from variables to an exit code

The job reads its settings, sets up the log, loads credentials, makes one run and delivers its
samples.  It ends with the code zero if all of this succeeds.  Settings that are refused end it
with the code one and a complaint; a failure after the log has been set up, with the code one and a
record of the failure.
-/

namespace BudgetReaper

/-- What the job works on. -/
structure Job where
  sources : Sources
  cluster : Cluster
  answers : List Gateway.Answer
  now : Stamp
  runId : String

namespace Job

open BudgetReaper.Action

/-- The environment extended by the text of a file, if there is one. -/
def extended (env : Environment) (file : Option String) : Except Failure Environment :=
  match file with
  | none => .ok env
  | some text => (VariableFile.load env text).mapError .environment

/-- The settings that an environment and a file give. -/
def configure (env : Environment) (file : Option String) : Except Failure Settings := do
  (Settings.ofEnvironment (← extended env file)).mapError .settings

/-- The session of a run with the given settings and sink. -/
def session (settings : Settings) (sink : Sink) (job : Job) : Session :=
  { settings
    cluster := job.cluster
    sink
    answers := job.answers
    now := job.now
    runId := job.runId
    ledger := {} }

/-- Loads credentials, makes one run and delivers its samples. -/
def serve (settings : Settings) : Action Job Unit := do
  focus Job.sources (fun job sources => { job with sources })
    (Credentials.load settings.kubeConfigPath settings.inCluster.holds)
  let sink ← ofExcept .value (Sink.fresh settings.gatewayUrl settings.jobName)
  focus (session settings sink)
    (fun job s => { job with cluster := s.cluster, answers := s.answers })
    Pass.runAndDeliver

/-- When a failure came, as the record of it says. -/
def context (f : Failure) : String :=
  match f.stage? with
  | some stage => "execution failed during " ++ stage
  | none => if f.isReported then "startup" else "unexpected failure"

/-- The log set up for the names of a threshold and a format. -/
def logOf (level format : Value) : Except Failure Log.Setup :=
  (Log.Setup.ofNames level format).mapError .level

/-- The log set up for at most two arguments: the names of a threshold and a format. -/
def openLog (arguments : List Value) : Except Failure Log.Setup :=
  let defaults : Settings := {}
  match arguments with
  | [] => logOf defaults.logLevel defaults.logFormat
  | [level] => logOf level defaults.logFormat
  | [level, format] => logOf level format
  | _ => .error (.arguments (.surplus "setup_logging" 2 arguments.length))

/-- What is said of refused settings. -/
def complaint (f : Failure) : String :=
  "Invalid configuration: " ++ f.message ++ "\n"

/-- The job with accepted settings; `setUp` is how the log is set up. -/
def serveLogged (setUp : Value → Value → Except Failure Unit) (settings : Settings) :
    Action Job Nat := do
  emit (.setup settings.logLevel settings.logFormat)
  ofExcept id (setUp settings.logLevel settings.logFormat)
  say (.starting settings.toValue)
  if settings.dryRun.holds then say (.info "Running in DRY RUN mode - no PDBs will be deleted" [])
  match ← attempt (serve settings) with
  | .ok () => return 0
  | .error f =>
    say (.failed f.message f.typeName (some (context f)))
    return 1

/-- The whole job; refused settings are complained of, any other failure to read them ends it. -/
def main (env : Environment) (file : Option String)
    (setUp : Value → Value → Except Failure Unit) : Action Job Nat := do
  let env ← ofExcept id (extended env file)
  match Settings.ofEnvironment env with
  | .error f =>
    emit (.complaint (complaint (.settings f)))
    return 1
  | .ok settings =>
    update fun job => { job with sources.named := Settings.lookup env "KUBECONFIG" }
    serveLogged setUp settings

/-- Refused settings end the job with the code one, and nothing is called. -/
theorem main_of_refused {env vars : Environment} {file : Option String} {f : Settings.Fault}
    (given : extended env file = .ok vars) (refused : Settings.ofEnvironment vars = .error f)
    (setUp : Value → Value → Except Failure Unit) (job : Job) :
    main env file setUp job = ⟨.ok 1, job, [.complaint (complaint (.settings f))]⟩ := by
  rw [main, given, ofExcept_ok, pure_bind, refused]
  rfl

end Job

end BudgetReaper
