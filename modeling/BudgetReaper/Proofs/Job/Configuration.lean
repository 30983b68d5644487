import BudgetReaper.Proofs.Job.Exit
import BudgetReaper.Proofs.Settings.Loading

/-!
# The job — how its settings are loaded

**Configured** (`configured`).  Where the variables of a file can be set, settings are given exactly if
every variable that is set says something of its kind and the thresholds and the format are in range,
and then each field is what its own variable gives, the default if that is not set.  Otherwise settings
are refused with a fault that is reported as one of them: that of the first variable, in the order of
reading, whose text says nothing, and only if there is none that of the first value out of range
(`Blame`).  So a switch that is misspelt or left empty refuses the settings, and never falls back to its
default.
-/

namespace BudgetReaper

namespace Job

open Settings

/-- How variables lead to settings. -/
structure Configures (vars : Environment) (loaded : Except Failure Settings) : Prop where
  /-- Settings are given, or refused with a fault that is reported as one of them. -/
  settled : (∃ s, loaded = .ok s) ∨
    ∃ f, loaded = .error (.settings f) ∧ f.typeName = "ConfigError"
  /-- They are given exactly if every variable that is set can be read and what the variables give is in
  range. -/
  accepts : (∃ s, loaded = .ok s) ↔ Readable vars ∧ InRange vars
  /-- They are refused for the first variable that cannot be read, and only then for a value. -/
  blames (f : Failure) : loaded = .error f ↔ ∃ fault, f = .settings fault ∧ Blame vars fault
  /-- Each field of settings that are given is what its own variable gives. -/
  given (s : Settings) : loaded = .ok s ↔ Given vars s ∧ InRange vars
  /-- So other variables have no influence on a field. -/
  own (env' vars' : Environment) (file' : Option String) (s s' : Settings) :
    extended env' file' = .ok vars' → loaded = .ok s → configure env' file' = .ok s' →
      ∀ x ∈ Variable.all, lookup vars x.name = lookup vars' x.name → x.field s = x.field s'
  /-- A switch for deletions that is empty or spells no word refuses the settings. -/
  misspelt (raw : String) : lookup vars "DRY_RUN" = some raw →
    (raw = "" ∨ ∀ w ∈ trueWords ++ falseWords, ¬ Spells raw w) → ∀ s, loaded ≠ .ok s
  /-- Where it is off, it is not set or spells a word for false. -/
  deletes (s : Settings) : loaded = .ok s → s.dryRun = .bool false →
    lookup vars "DRY_RUN" = none ∨
      ∃ raw, lookup vars "DRY_RUN" = some raw ∧ ∃ w ∈ falseWords, Spells raw w

/-- Where the variables of a file can be set, they lead to settings one by one. -/
theorem configured {env vars : Environment} {file : Option String}
    (given : extended env file = .ok vars) : Configures vars (configure env file) := by
  have loads : configure env file = (ofEnvironment vars).mapError .settings := by
    rw [configure, given]
    rfl
  have accepts (s : Settings) : configure env file = .ok s ↔ Given vars s ∧ InRange vars := by
    rw [loads, ← ofEnvironment_eq_ok_iff]
    cases ofEnvironment vars <;> simp [Except.mapError]
  have blames (f : Failure) :
      configure env file = .error f ↔ ∃ fault, f = .settings fault ∧ Blame vars fault := by
    simp only [loads, ← ofEnvironment_eq_error_iff]
    cases ofEnvironment vars <;> simp [Except.mapError, eq_comm]
  -- what a switch for deletions gives, it gives as a truth value
  have dry {s : Settings} (loaded : configure env file = .ok s) :
      Variable.dryRun.Gives vars s.dryRun :=
    ((accepts s).mp loaded).1 Variable.dryRun (by simp [Variable.all])
  refine ⟨?_, ?_, blames, accepts, ?_, ?_, ?_⟩
  · cases loaded : configure env file with
    | ok s => exact .inl ⟨s, rfl⟩
    | error f =>
        obtain ⟨fault, rfl, blame⟩ := (blames f).mp loaded
        exact .inr ⟨fault, rfl, typeName_of_isReported blame.isReported⟩
  · simp only [accepts, exists_and_right, ← readable_iff]
  · intro env' vars' file' s s' given' loaded loaded' x hx same
    obtain ⟨vars'', given'', loaded'⟩ := configure_eq_ok_iff.mp loaded'
    cases given'.symm.trans given''
    have here := ((accepts s).mp loaded).1 x hx
    have there := (ofEnvironment_eq_ok_iff.mp loaded').1 x hx
    exact Variable.gives_unique here ((Variable.gives_congr same).mpr there)
  · intro raw set unspoken s loaded
    have reads := (Variable.gives_of_set set).mp (dry loaded)
    generalize s.dryRun = v at reads
    cases reads with
    | truth word spells =>
        rcases unspoken with rfl | unspoken
        · exact not_spells_empty (mem_words word) spells
        · exact unspoken _ (mem_words word) spells
  · intro s loaded off
    cases set : lookup vars "DRY_RUN" with
    | none => exact .inl rfl
    | some raw =>
        have reads := (Variable.gives_of_set set).mp (dry loaded)
        rw [off] at reads
        cases reads with
        | truth word spells => exact .inr ⟨raw, rfl, _, word, spells⟩

/-- Two variables of a file, one of which is set already. -/
theorem configured_rehearsal :
    let env := [("DRY_RUN", " Yes "), ("LOG_FORMAT", "console")]
    let file := some "DRY_RUN=no\nNOT_READY_THRESHOLD_SECONDS=+6_00\n"
    let vars := env ++ [("NOT_READY_THRESHOLD_SECONDS", "+6_00")]
    extended env file = .ok vars ∧ Configures vars (configure env file) ∧
      configure env file = .ok
        { dryRun := .bool true, notReadySeconds := .int 600, logFormat := .str "console" } := by
  intro env file vars
  have given : extended env file = .ok vars := by decide +kernel
  exact ⟨given, configured given, by decide +kernel⟩

/-- Of two variables that say nothing, the first to be read is to blame, not the first to be set. -/
example : configure [("ALL_NOT_READY", "maybe"), ("DRY_RUN", "")] none =
    .error (.settings (.notTruthValue "DRY_RUN" "")) := by
  decide +kernel

end Job

end BudgetReaper
