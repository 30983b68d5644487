import BudgetReaper.Decimal.Digits
import BudgetReaper.Log.Record

/-!
# Log — notices

Everything that a run says, one constructor for each thing said.  `Notice.record` gives the words:
who says it, at which level, the event and the fields.
-/

namespace BudgetReaper

/-- One thing that a run says. -/
inductive Notice where
  /-- The program starts with these settings. -/
  | starting (settings : Value)
  /-- A run starts. -/
  | runStarted (runId : String) (dryRun : Value)
  /-- A run has ended, with the budgets that were marked and those that were deleted. -/
  | runEnded (runId : String) (dryRun : Value) (reapable reaped : List String)
  /-- A namespace is left alone. -/
  | excluded (space : Option String)
  /-- A budget is passed over. -/
  | ignored (budget reason : String) (details : List (String × Value))
  /-- A check of a budget begins. -/
  | evaluated (budget check : String)
  /-- Budgets are marked for deletion, with the pods that gave the reason. -/
  | marked (budgets : List String) (reason : String) (pods : List String)
  /-- The text of a budget, kept before it is deleted. -/
  | dumped (budget dump : String)
  /-- A budget is kept because the run only shows what it would do. -/
  | kept (budget : String)
  /-- A budget has been deleted. -/
  | removed (budget : String)
  /-- A budget was gone before it could be deleted. -/
  | alreadyGone (budget : String)
  /-- A sample has been recorded. -/
  | sampled (metric : String) (value : Value) (tags : List (String × Value))
  /-- A failure ends the program. -/
  | failed (error kind : String) (context : Option String)
  /-- Samples stay in the process. -/
  | noGateway
  /-- Samples could not be delivered. -/
  | undelivered (url error : String)
  /-- Samples have been delivered. -/
  | delivered (url : String)
  /-- Credentials are read from a file. -/
  | credentialsFile (path : String)
  /-- The credentials of the cluster's own account are in use. -/
  | accountCredentials
  /-- There is no account inside the cluster. -/
  | noAccount
  /-- The credentials of the default location are in use. -/
  | defaultCredentials
  /-- Any other thing said at the level of information. -/
  | info (event : String) (fields : List (String × Value))
  /-- Any other thing said as a warning. -/
  | warning (event : String) (fields : List (String × Value))
  /-- Any other thing said for tracing. -/
  | debug (event : String) (fields : List (String × Value))
  deriving DecidableEq, Repr, Inhabited

namespace Notice

/-- The version of the program. -/
def version : String := "1.0.0"

/-- The logger of a run. -/
def runLogger : String := "pdb-reaper"

/-- The logger of the delivery of samples. -/
def metricsLogger : String := "pdb_reaper.metrics"

/-- The logger of the access to the cluster. -/
def clusterLogger : String := "pdb_reaper.kubernetes_client"

/-- The words of a notice. -/
def record : Notice → Log.Record
  | starting settings =>
    .of runLogger .info "PDB Reaper starting up"
      [("version", .str version), ("config", settings)]
  | runStarted runId dryRun =>
    .of runLogger .info "Starting pdb-reaper run" [("run_id", .str runId), ("dry_run", dryRun)]
  | runEnded runId dryRun reapable reaped =>
    .of runLogger .info "pdb-reaper run completed"
      [("run_id", .str runId), ("dry_run", dryRun), ("reapable_count", .int reapable.length),
        ("reaped_count", .int reaped.length), ("reapable", .texts reapable),
        ("reaped", .texts reaped)]
  | excluded space =>
    .of runLogger .warning "Ignoring namespace since it's excluded"
      [("namespace", .ofText? space)]
  | ignored budget reason details =>
    .of runLogger .info "Ignoring PDB" (("pdb", .str budget) :: ("reason", .str reason) :: details)
  | evaluated budget check =>
    .of runLogger .info "Evaluating PDB" [("pdb", .str budget), ("check", .str check)]
  | marked budgets reason pods =>
    .of runLogger .info "PDB marked reapable"
      [("pdbs", .texts budgets), ("reason", .str reason), ("pods", .texts pods)]
  | dumped budget dump =>
    .of runLogger .info "PDB dump" [("pdb", .str budget), ("dump", .str dump)]
  | kept budget =>
    .of runLogger .warning "DryRun is on, PDB will not be deleted" [("pdb", .str budget)]
  | removed budget => .of runLogger .info "Deleted offending PDB" [("pdb", .str budget)]
  | alreadyGone budget => .of runLogger .info "PDB already deleted" [("pdb", .str budget)]
  | sampled metric value tags =>
    .of runLogger .info "Pushed new metric value"
      (("metric", .str metric) :: ("value", value) :: tags)
  | failed error kind context =>
    .of runLogger .error "Error occurred"
      [("error", .str error), ("error_type", .str kind), ("context", .ofText? context),
        ("exc_info", .bool true)]
  | noGateway =>
    .of metricsLogger .debug "No Pushgateway configured, metrics kept in-process" []
  | undelivered url error =>
    .of metricsLogger .warning "Failed to push to Pushgateway"
      [("url", .str url), ("error", .str error)]
  | delivered url =>
    .of metricsLogger .debug "Successfully pushed metrics to Pushgateway" [("url", .str url)]
  | credentialsFile path => .of clusterLogger .info "Loading kubeconfig" [("path", .str path)]
  | accountCredentials =>
    .of clusterLogger .info "Loaded in-cluster Kubernetes configuration" []
  | noAccount =>
    .of clusterLogger .info "In-cluster configuration unavailable, trying kubeconfig" []
  | defaultCredentials => .of clusterLogger .info "Loaded kubeconfig from default location" []
  | info event fields => .of runLogger .info event fields
  | warning event fields => .of runLogger .warning event fields
  | debug event fields => .of runLogger .debug event fields

/-- The level of a notice. -/
def level (n : Notice) : Log.Level :=
  n.record.level

end Notice

end BudgetReaper
