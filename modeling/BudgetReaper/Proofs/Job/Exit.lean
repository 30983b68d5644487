import BudgetReaper.Proofs.Job.Variables
import BudgetReaper.Proofs.Reaping.Delivery

/-!
# The job — its exit code

**Exit** (`exits`).  The job ends with the code zero exactly if its settings are accepted, its log is set
up, its credentials are loaded and the run that it delivers returns.  Otherwise it ends with the code
one, after no call and no push if the settings are refused.

A failure escapes instead of a code in two cases only: a file of variables cannot be loaded
(`VariableFile.IsSpoiled`), or the name of the threshold stands for something that is no level
(`Log.IsNoLevel`).  So not every job ends with a code (`not_always_coded`).
-/

namespace BudgetReaper

/-- The name stands for a text or a table of texts where a level is sought. -/
def Log.IsNoLevel (name : String) : Prop :=
  String.ofList (name.toList.flatMap largeLetters) = "BASIC_FORMAT" ∨
    String.ofList (name.toList.flatMap largeLetters) = "_STYLES"

theorem Log.thresholdOf_eq_error_iff {name : String} :
    (∃ f, thresholdOf name = .error f) ↔ IsNoLevel name := by
  unfold thresholdOf IsNoLevel
  split <;> simp_all

namespace Job

open BudgetReaper.Action

/-- How a log is set up, for its success only. -/
def opened (level format : Value) : Except Failure Unit :=
  (logOf level format).map fun _ => ()

theorem opened_eq_error_iff {name : String} {format : Value} :
    (∃ f, opened (.str name) format = .error f) ↔ Log.IsNoLevel name := by
  rw [← Log.thresholdOf_eq_error_iff, opened, logOf, Log.Setup.ofNames]
  cases Log.thresholdOf name <;> simp [Except.map, Except.mapError]

/-- The name of the threshold that variables give. -/
def levelOf (vars : Environment) : String :=
  (Settings.lookup vars "LOG_LEVEL").getD "INFO"

/-- With accepted settings, the log cannot be set up exactly if the variable for it names no level. -/
theorem opened_accepted {vars : Environment} {settings : Settings}
    (accepted : Settings.ofEnvironment vars = .ok settings) :
    (∃ f, opened settings.logLevel settings.logFormat = .error f) ↔
      Log.IsNoLevel (levelOf vars) := by
  rw [(Settings.written_of_ofEnvironment accepted).level, opened_eq_error_iff, levelOf]

/-- The variables of a file that would be set and cannot be. -/
def IsSpoiled (env : Environment) (file : Option String) : Prop :=
  ∃ text, file = some text ∧ VariableFile.IsSpoiled env text

theorem extended_eq_error_iff {env : Environment} {file : Option String} :
    (∃ f, extended env file = .error f) ↔ IsSpoiled env file := by
  cases file with
  | none => exact iff_of_false nofun nofun
  | some text =>
      simp only [IsSpoiled, Option.some_inj, exists_eq_left', ← VariableFile.load_eq_error_iff,
        extended]
      cases VariableFile.load env text <;> simp [Except.mapError]

/-! ### The parts of the job -/

/-- The job with the file of credentials that the variables name. -/
def naming (job : Job) (vars : Environment) : Job :=
  { job with sources.named := Settings.lookup vars "KUBECONFIG" }

/-- With accepted settings: the credentials are loaded, and the run that is delivered returns. -/
structure Succeeds (settings : Settings) (job : Job) : Prop where
  loaded :
    (Credentials.load settings.kubeConfigPath settings.inCluster.holds job.sources).result = .ok ()
  returned : ∃ sink, Sink.fresh settings.gatewayUrl settings.jobName = .ok sink ∧
    (Pass.runAndDeliver (session settings sink job)).result = .ok ()

theorem serve_eq_ok_iff {settings : Settings} {job : Job} :
    (serve settings job).result = .ok () ↔ Succeeds settings job := by
  constructor
  · intro h
    obtain ⟨_, loaded, h⟩ := ok_of_bind h
    obtain ⟨sink, made, returned⟩ := ok_of_bind h
    have fresh : Sink.fresh settings.gatewayUrl settings.jobName = .ok sink := by
      cases given : Sink.fresh settings.gatewayUrl settings.jobName with
      | error f => rw [given] at made; cases made
      | ok sink' => rw [given] at made; cases made; rfl
    rw [fresh] at returned
    exact ⟨loaded, sink, fresh, returned⟩
  · rintro ⟨loaded, sink, fresh, returned⟩
    have loads : (focus Job.sources (fun job sources => { job with sources })
        (Credentials.load settings.kubeConfigPath settings.inCluster.holds) job).result = .ok () :=
      loaded
    rw [serve, bind_of_ok loads, fresh]
    exact returned

/-- The job with accepted settings ends with a code once its log is set up. -/
theorem result_serveLogged (setUp : Value → Value → Except Failure Unit) (settings : Settings)
    (job : Job) :
    (serveLogged setUp settings job).result =
      match setUp settings.logLevel settings.logFormat with
      | .error f => .error f
      | .ok () =>
        match (serve settings job).result with
        | .ok () => .ok 0
        | .error _ => .ok 1 := by
  have ends : ((do
      match ← attempt (serve settings) with
      | .ok () => return 0
      | .error f =>
        say (.failed f.message f.typeName (some (context f)))
        return 1 : Action Job Nat) job).result =
        match (serve settings job).result with
        | .ok () => .ok 0
        | .error _ => .ok 1 := by
    rw [bind_of_ok (x := (serve settings job).result) rfl]
    cases (serve settings job).result <;> rfl
  rw [serveLogged, emit_bind]
  cases setUp settings.logLevel settings.logFormat with
  | error f => rfl
  | ok _ =>
      simp only [ofExcept_ok, pure_bind, say_bind]
      split
      · rw [say_bind]
        exact ends
      · exact ends

/-- The job with settings that are accepted. -/
theorem main_of_accepted {env vars : Environment} {file : Option String} {settings : Settings}
    (given : extended env file = .ok vars) (accepted : Settings.ofEnvironment vars = .ok settings)
    (setUp : Value → Value → Except Failure Unit) (job : Job) :
    main env file setUp job = serveLogged setUp settings (job.naming vars) := by
  rw [main, given, ofExcept_ok, pure_bind, accepted]
  rfl

/-! ### The exit code -/

/-- How the job ends. -/
structure Exits (env : Environment) (file : Option String) (job : Job) : Prop where
  /-- No code: a file of variables that cannot be loaded, or a threshold that is no level. -/
  escapes : (∃ f, (main env file opened job).result = .error f) ↔
    IsSpoiled env file ∨ ∃ vars settings, extended env file = .ok vars ∧
      Settings.ofEnvironment vars = .ok settings ∧ Log.IsNoLevel (levelOf vars)
  /-- Otherwise zero or one. -/
  codes : ∀ code, (main env file opened job).result = .ok code → code = 0 ∨ code = 1
  /-- Zero: the settings are accepted, the threshold is a level, the credentials are loaded, and the run
  returns. -/
  zero : (main env file opened job).result = .ok 0 ↔
    ∃ vars settings, extended env file = .ok vars ∧ Settings.ofEnvironment vars = .ok settings ∧
      ¬ Log.IsNoLevel (levelOf vars) ∧ Succeeds settings (job.naming vars)
  /-- With accepted settings there is a sink for the samples. -/
  equipped : ∀ settings, configure env file = .ok settings →
    ∃ sink, Sink.fresh settings.gatewayUrl settings.jobName = .ok sink
  /-- Refused settings are reported as such, and end the job before anything is done. -/
  refused : ∀ f, configure env file = .error (.settings f) → f.isReported = true ∧
    (main env file opened job).result = .ok 1 ∧ (main env file opened job).calls = [] ∧
      (main env file opened job).pushes = []

theorem configure_eq_ok_iff {env : Environment} {file : Option String} {settings : Settings} :
    configure env file = .ok settings ↔
      ∃ vars, extended env file = .ok vars ∧ Settings.ofEnvironment vars = .ok settings := by
  rw [configure]
  cases extended env file with
  | error f => exact iff_of_false nofun nofun
  | ok vars =>
      simp only [Except.ok.injEq, exists_eq_left']
      change (Settings.ofEnvironment vars).mapError Failure.settings = .ok settings ↔ _
      cases Settings.ofEnvironment vars <;> simp [Except.mapError]

/-- Settings are refused only when the variables have been read. -/
theorem configure_eq_settings_iff {env : Environment} {file : Option String} {f : Settings.Fault} :
    configure env file = .error (.settings f) ↔
      ∃ vars, extended env file = .ok vars ∧ Settings.ofEnvironment vars = .error f := by
  rw [configure]
  cases given : extended env file with
  | error g =>
      refine iff_of_false (fun h => ?_) nofun
      obtain rfl : g = .settings f := Except.error.inj h
      cases file with
      | none => cases given
      | some text =>
          rw [extended] at given
          cases loaded : VariableFile.load env text <;> rw [loaded] at given <;> cases given
  | ok vars =>
      simp only [Except.ok.injEq, exists_eq_left']
      change (Settings.ofEnvironment vars).mapError Failure.settings = .error (.settings f) ↔ _
      cases Settings.ofEnvironment vars <;> simp [Except.mapError]

/-- How a job can end, with what has led to it. -/
inductive Ending (env : Environment) (file : Option String) (job : Job) : Except Failure Nat → Prop
  | spoiled {f : Failure} (given : extended env file = .error f) : Ending env file job (.error f)
  | refused {vars : Environment} {f : Settings.Fault} (given : extended env file = .ok vars)
      (refused : Settings.ofEnvironment vars = .error f) : Ending env file job (.ok 1)
  | unopened {vars : Environment} {settings : Settings} {f : Failure}
      (given : extended env file = .ok vars) (accepted : Settings.ofEnvironment vars = .ok settings)
      (failed : opened settings.logLevel settings.logFormat = .error f) :
      Ending env file job (.error f)
  | failed {vars : Environment} {settings : Settings} (given : extended env file = .ok vars)
      (accepted : Settings.ofEnvironment vars = .ok settings)
      (failed : ¬ Succeeds settings (job.naming vars)) : Ending env file job (.ok 1)
  | succeeded {vars : Environment} {settings : Settings} (given : extended env file = .ok vars)
      (accepted : Settings.ofEnvironment vars = .ok settings)
      (open_log : opened settings.logLevel settings.logFormat = .ok ())
      (succeeds : Succeeds settings (job.naming vars)) : Ending env file job (.ok 0)

theorem ending_main (env : Environment) (file : Option String) (job : Job) :
    Ending env file job (main env file opened job).result := by
  cases given : extended env file with
  | error f =>
      rw [main, given]
      exact .spoiled given
  | ok vars =>
      cases read : Settings.ofEnvironment vars with
      | error f =>
          rw [main_of_refused given read]
          exact .refused given read
      | ok settings =>
          rw [main_of_accepted given read, result_serveLogged]
          cases log : opened settings.logLevel settings.logFormat with
          | error f => exact .unopened given read log
          | ok _ =>
              cases served : (serve settings (job.naming vars)).result with
              | error f =>
                  refine .failed given read fun succeeds => ?_
                  rw [serve_eq_ok_iff.mpr succeeds] at served
                  cases served
              | ok _ => exact .succeeded given read log (serve_eq_ok_iff.mp served)

/-- The job ends with the code zero exactly where everything succeeds, with the code one otherwise, and
without a code in two cases only. -/
theorem exits (env : Environment) (file : Option String) (job : Job) : Exits env file job where
  escapes := by
    constructor
    · rintro ⟨f, escaped⟩
      cases escaped ▸ ending_main env file job with
      | spoiled given => exact .inl (extended_eq_error_iff.mp ⟨f, given⟩)
      | unopened given accepted failed =>
          exact .inr ⟨_, _, given, accepted, (opened_accepted accepted).mp ⟨f, failed⟩⟩
    · rintro (spoiled | ⟨vars, settings, given, accepted, no_level⟩)
      · obtain ⟨f, given⟩ := extended_eq_error_iff.mpr spoiled
        exact ⟨f, by rw [main, given]; rfl⟩
      · obtain ⟨f, failed⟩ := (opened_accepted accepted).mpr no_level
        exact ⟨f, by rw [main_of_accepted given accepted, result_serveLogged, failed]⟩
  codes code ended := by
    cases ended ▸ ending_main env file job with
    | refused | failed => exact .inr rfl
    | succeeded => exact .inl rfl
  zero := by
    constructor
    · intro ended
      cases ended ▸ ending_main env file job with
      | succeeded given accepted open_log succeeds =>
          refine ⟨_, _, given, accepted, fun no_level => ?_, succeeds⟩
          obtain ⟨f, failed⟩ := (opened_accepted accepted).mpr no_level
          rw [open_log] at failed
          cases failed
    · rintro ⟨vars, settings, given, accepted, level, succeeds⟩
      rw [main_of_accepted given accepted, result_serveLogged, serve_eq_ok_iff.mpr succeeds]
      cases log : opened settings.logLevel settings.logFormat with
      | error f => exact absurd ((opened_accepted accepted).mp ⟨f, log⟩) level
      | ok _ => rfl
  equipped settings accepted := by
    obtain ⟨vars, -, accepted⟩ := configure_eq_ok_iff.mp accepted
    exact (Settings.written_of_ofEnvironment accepted).fresh
  refused f refused := by
    obtain ⟨vars, given, refused⟩ := configure_eq_settings_iff.mp refused
    rw [main_of_refused given refused]
    exact ⟨Settings.reports_ofEnvironment vars f refused, rfl, rfl, rfl⟩

/-- Not every job ends with a code: the name of a format may be given for a threshold. -/
theorem not_always_coded :
    ¬ ∀ (env : Environment) (file : Option String) (job : Job),
      ∃ code, (main env file opened job).result = .ok code := by
  intro claim
  obtain ⟨code, ended⟩ := claim [("LOG_LEVEL", "BASIC_FORMAT")] none
    { sources := default, cluster := default, answers := [], now := default, runId := "run" }
  cases ended

end Job

end BudgetReaper
