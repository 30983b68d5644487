import BudgetReaper.Signature
import BudgetReaper.Value.Member

/-!
# Settings — what a run is told to do

The settings of a run: where credentials are, which namespaces are left alone, which checks are
made and at which thresholds, how to log and where to deliver samples.  Whoever gives a setting may
give a value of any kind, and it is shown as it was given; each use of it demands what it needs: a
switch is on for every value that is not nothing (`Value.holds`), a threshold is compared
(`Value.isLess`), a namespace is looked up (`isExcluded`).

`ofFields` takes settings by name and refuses a name that is none; the fields of settings give them
back (`ofFields_fields`).  `validate` gives the first setting out of range, in a fixed order.
-/

namespace BudgetReaper

/-- What a run is told to do. -/
structure Settings where
  kubeConfigPath : Value := .null
  inCluster : Value := .bool true
  excludedSpaces : Value := .texts ["kube-system", "kube-public", "kube-node-lease"]
  dryRun : Value := .bool false
  reapMultiple : Value := .bool true
  reapMisconfigured : Value := .bool true
  reapCrashLoop : Value := .bool false
  crashLoopThreshold : Value := .int 5
  allCrashLoop : Value := .bool true
  reapNotReady : Value := .bool false
  notReadySeconds : Value := .int 1800
  allNotReady : Value := .bool true
  logLevel : Value := .str "INFO"
  logFormat : Value := .str "json"
  gatewayUrl : Value := .null
  jobName : Value := .str "pdb_reaper"
  deriving DecidableEq, Repr, Inhabited

namespace Settings

/-! ### Settings by name -/

/-- The settings by name. -/
def fields (s : Settings) : List (String × Value) :=
  [("kube_config_path", s.kubeConfigPath), ("in_cluster", s.inCluster),
    ("excluded_namespaces", s.excludedSpaces), ("dry_run", s.dryRun),
    ("reap_multiple", s.reapMultiple), ("reap_misconfigured", s.reapMisconfigured),
    ("reap_crashloop", s.reapCrashLoop), ("crashloop_restart_threshold", s.crashLoopThreshold),
    ("all_crashloop", s.allCrashLoop), ("reap_not_ready", s.reapNotReady),
    ("not_ready_threshold_seconds", s.notReadySeconds), ("all_not_ready", s.allNotReady),
    ("log_level", s.logLevel), ("log_format", s.logFormat), ("pushgateway_url", s.gatewayUrl),
    ("metrics_job_name", s.jobName)]

/-- The settings as an object. -/
def toValue (s : Settings) : Value :=
  .object s.fields

/-- The settings with one of them changed; a name that is none changes nothing. -/
def set (s : Settings) (name : String) (v : Value) : Settings :=
  match name with
  | "kube_config_path" => { s with kubeConfigPath := v }
  | "in_cluster" => { s with inCluster := v }
  | "excluded_namespaces" => { s with excludedSpaces := v }
  | "dry_run" => { s with dryRun := v }
  | "reap_multiple" => { s with reapMultiple := v }
  | "reap_misconfigured" => { s with reapMisconfigured := v }
  | "reap_crashloop" => { s with reapCrashLoop := v }
  | "crashloop_restart_threshold" => { s with crashLoopThreshold := v }
  | "all_crashloop" => { s with allCrashLoop := v }
  | "reap_not_ready" => { s with reapNotReady := v }
  | "not_ready_threshold_seconds" => { s with notReadySeconds := v }
  | "all_not_ready" => { s with allNotReady := v }
  | "log_level" => { s with logLevel := v }
  | "log_format" => { s with logFormat := v }
  | "pushgateway_url" => { s with gatewayUrl := v }
  | "metrics_job_name" => { s with jobName := v }
  | _ => s

/-- The settings with some of them changed. -/
def setAll (s : Settings) (fields : List (String × Value)) : Settings :=
  fields.foldl (fun s (name, v) => s.set name v) s

/-- What can be given of settings. -/
def signature : Signature :=
  { name := "Config.__init__", optional := ({} : Settings).fields.map Prod.fst }

/-- The settings with the given fields, the others at their defaults. -/
def ofFields (fields : List (String × Value)) : Except Signature.Fault Settings :=
  match signature.fault? (fields.map Prod.fst) with
  | some f => .error f
  | none => .ok (({} : Settings).setAll fields)

/-! ### The range of settings -/

/-- Why settings are refused. -/
inductive Fault where
  | notTruthValue (name raw : String)
  | notInteger (name raw : String)
  | crashLoopThreshold (v : Value)
  | notReadySeconds (v : Value)
  | logFormat (v : Value)
  /-- A threshold that is no number. -/
  | threshold (f : Value.Fault)
  deriving DecidableEq, Repr, Inhabited

namespace Fault

/-- The text of a fault. -/
def message : Fault → String
  | notTruthValue name raw => name ++ " must be a boolean, got " ++ Text.quoted raw
  | notInteger name raw => name ++ " must be an integer, got " ++ Text.quoted raw
  | crashLoopThreshold v => "crashloop restart threshold must be at least 1, got " ++ v.plain
  | notReadySeconds v => "not-ready threshold must not be negative, got " ++ v.plain
  | logFormat v => "log format must be one of ('json', 'console'), got " ++ v.display
  | threshold f => f.message

/-- A fault that is reported as one of the settings. -/
def isReported : Fault → Bool
  | threshold _ => false
  | _ => true

/-- The name of a kind of fault. -/
def typeName : Fault → String
  | threshold f => f.typeName
  | _ => "ConfigError"

end Fault

/-- The formats of log lines. -/
def logFormats : List String :=
  ["json", "console"]

/-- Whether a value is one of the formats of log lines. -/
def isLogFormat : Value → Bool
  | .str s => logFormats.contains s
  | _ => false

/-- Whether a threshold is below the least that it may be. -/
def isBelow (threshold : Value) (least : Int) : Except Fault Bool :=
  (threshold.isLess (.int least)).mapError .threshold

/-- The settings, if none is out of range. -/
def validate (s : Settings) : Except Fault Settings := do
  if ← isBelow s.crashLoopThreshold 1 then .error (.crashLoopThreshold s.crashLoopThreshold)
  else if ← isBelow s.notReadySeconds 0 then .error (.notReadySeconds s.notReadySeconds)
  else if isLogFormat s.logFormat then .ok s
  else .error (.logFormat s.logFormat)

/-! ### Namespaces -/

/-- Whether a namespace is left alone. -/
def isExcluded (s : Settings) (space : Value) : Except Value.Fault Bool :=
  s.excludedSpaces.hasMember space

/-! ### Small facts -/

/-- All settings have the same names. -/
theorem map_fst_fields (s : Settings) : s.fields.map Prod.fst = signature.optional := rfl

/-- The fields of settings give them back. -/
theorem ofFields_fields (s : Settings) : ofFields s.fields = .ok s := by
  have fits : signature.fault? (s.fields.map Prod.fst) = none := by
    rw [map_fst_fields]
    exact Signature.fault?_eq_none (fun _ hp => hp) (by decide) (fun _ hp => nomatch hp)
  rw [ofFields, fits]
  simp [setAll, fields, set]

/-- Of integers it can always be told which is below. -/
@[simp] theorem isBelow_int (n least : Int) :
    isBelow (.int n) least = .ok (decide (n < least)) := by
  rw [isBelow, Value.isLess_int]
  rfl

/-- Integers as thresholds are accepted exactly within their range. -/
theorem validate_eq_ok_iff {s : Settings} {restarts seconds : Int}
    (hr : s.crashLoopThreshold = .int restarts) (hs : s.notReadySeconds = .int seconds) :
    s.validate = .ok s ↔ 1 ≤ restarts ∧ 0 ≤ seconds ∧ isLogFormat s.logFormat = true := by
  simp only [validate, hr, hs, isBelow_int]
  by_cases h : restarts < 1
  · simp [bind, Except.bind, h, Int.not_le.mpr h]
  · by_cases h' : seconds < 0
    · simp [bind, Except.bind, h, h', Int.not_le.mpr h']
    · by_cases h'' : isLogFormat s.logFormat
      · simp [bind, Except.bind, h, h', h'', Int.not_lt.mp h, Int.not_lt.mp h']
      · simp [bind, Except.bind, h, h', h'']

/-- Among texts, a namespace is left alone exactly when it is one of them. -/
theorem isExcluded_texts {s : Settings} {spaces : List String}
    (h : s.excludedSpaces = .texts spaces) (space : Option String) :
    s.isExcluded (.ofText? space) = .ok ((space.map spaces.contains).getD false) := by
  rw [isExcluded, h, Value.hasMember_texts]

end Settings

end BudgetReaper
