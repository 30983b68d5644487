import BudgetReaper.Assoc
import BudgetReaper.Decimal.Numeral
import BudgetReaper.Settings

/-!
# Settings — from variables

Each setting has a variable.  A setting whose variable is not set keeps its default; one that is
set is read by its kind: a truth value from one of eight words, an integer from a numeral, a list
of namespaces from a text with commas, every other setting as it stands.  The variables are read in
a fixed order, the first that cannot be read decides the fault, and only then are the settings
validated.
-/

namespace BudgetReaper

/-- The variables that are set, each name once. -/
abbrev Environment := List (String × String)

namespace Settings

open BudgetReaper.Text

/-- The value of a variable. -/
def lookup (env : Environment) (name : String) : Option String :=
  Assoc.get? env name

/-! ### Truth values and integers -/

/-- The words for true. -/
def trueWords : List String :=
  ["true", "1", "yes", "on"]

/-- The words for false. -/
def falseWords : List String :=
  ["false", "0", "no", "off"]

/-- A text without blanks around it, in lower case; no other character becomes one of the letters
of the eight words in lower case. -/
def word (raw : String) : String :=
  String.ofList ((trim isBlank raw.toList).map Char.toLower)

/-- The truth value that a text writes. -/
def readTruth? (raw : String) : Option Bool :=
  if trueWords.contains (word raw) then some true
  else if falseWords.contains (word raw) then some false
  else none

/-- The truth value of a variable. -/
def truth (env : Environment) (name : String) (default : Value) : Except Fault Value :=
  match lookup env name with
  | none => .ok default
  | some raw =>
    match readTruth? raw with
    | some b => .ok (.bool b)
    | none => .error (.notTruthValue name raw)

/-- The integer of a variable. -/
def integer (env : Environment) (name : String) (default : Value) : Except Fault Value :=
  match lookup env name with
  | none => .ok default
  | some raw =>
    match Decimal.readInt? raw.toList with
    | some n => .ok (.int n)
    | none => .error (.notInteger name raw)

/-- The text of a variable. -/
def text (env : Environment) (name : String) (default : Value) : Value :=
  ((lookup env name).map .str).getD default

/-! ### Lists -/

/-- The parts of a text between the characters `sep`. -/
def splitAt (sep : Char) : List Char → List (List Char)
  | [] => [[]]
  | c :: rest =>
    if c = sep then [] :: splitAt sep rest
    else match splitAt sep rest with
      | [] => [[c]]
      | part :: parts => (c :: part) :: parts

/-- The names in a text with commas, without blanks around them and without empty ones. -/
def names (raw : String) : List String :=
  ((splitAt ',' raw.toList).map (trim isBlank)).filterMap fun name =>
    if name.isEmpty then none else some (String.ofList name)

/-! ### All settings -/

/-- The settings that the variables give, before they are validated. -/
def read (env : Environment) : Except Fault Settings := do
  let d : Settings := {}
  let inCluster ← truth env "IN_CLUSTER" d.inCluster
  let dryRun ← truth env "DRY_RUN" d.dryRun
  let reapMultiple ← truth env "REAP_MULTIPLE" d.reapMultiple
  let reapMisconfigured ← truth env "REAP_MISCONFIGURED" d.reapMisconfigured
  let reapCrashLoop ← truth env "REAP_CRASHLOOP" d.reapCrashLoop
  let crashLoopThreshold ← integer env "CRASHLOOP_RESTART_COUNT" d.crashLoopThreshold
  let allCrashLoop ← truth env "ALL_CRASHLOOP" d.allCrashLoop
  let reapNotReady ← truth env "REAP_NOT_READY" d.reapNotReady
  let notReadySeconds ← integer env "NOT_READY_THRESHOLD_SECONDS" d.notReadySeconds
  let allNotReady ← truth env "ALL_NOT_READY" d.allNotReady
  .ok {
    kubeConfigPath := text env "KUBE_CONFIG_PATH" d.kubeConfigPath
    inCluster
    excludedSpaces :=
      ((lookup env "EXCLUDED_NAMESPACES").map fun raw => .texts (names raw)).getD d.excludedSpaces
    dryRun
    reapMultiple
    reapMisconfigured
    reapCrashLoop
    crashLoopThreshold
    allCrashLoop
    reapNotReady
    notReadySeconds
    allNotReady
    logLevel := text env "LOG_LEVEL" d.logLevel
    logFormat := text env "LOG_FORMAT" d.logFormat
    gatewayUrl := text env "PROMETHEUS_PUSHGATEWAY_URL" d.gatewayUrl
    jobName := text env "PROMETHEUS_JOB_NAME" d.jobName }

/-- The variables that are read, and the one that names a file of credentials. -/
def variableNames : List String :=
  ["KUBE_CONFIG_PATH", "IN_CLUSTER", "EXCLUDED_NAMESPACES", "DRY_RUN", "REAP_MULTIPLE",
    "REAP_MISCONFIGURED", "REAP_CRASHLOOP", "CRASHLOOP_RESTART_COUNT", "ALL_CRASHLOOP",
    "REAP_NOT_READY", "NOT_READY_THRESHOLD_SECONDS", "ALL_NOT_READY", "LOG_LEVEL", "LOG_FORMAT",
    "PROMETHEUS_PUSHGATEWAY_URL", "PROMETHEUS_JOB_NAME", "KUBECONFIG"]

/-- The settings that the variables give. -/
def ofEnvironment (env : Environment) : Except Fault Settings := do
  (← read env).validate

/-- Without variables the settings are the defaults. -/
theorem ofEnvironment_nil : ofEnvironment [] = .ok {} := by
  rfl

end Settings

end BudgetReaper
