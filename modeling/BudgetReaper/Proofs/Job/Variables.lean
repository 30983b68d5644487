import BudgetReaper.Job
import BudgetReaper.Proofs.Settings.Loading

/-!
# The job — what its variables give

A file of variables cannot be loaded exactly if one of its variables that are not set yet cannot be set
(`load_eq_error_iff`): its name or value holds a null character, or its name an equals sign.

Settings that are given from variables have texts and integers where these are needed
(`written_of_ofEnvironment`), so there is always a sink for the samples (`Written.fresh`).  They are
refused with a fault that is reported as one of the settings, and no other (`reports_ofEnvironment`).
-/

namespace BudgetReaper

/-! ### Files of variables -/

namespace VariableFile

/-- A variable that cannot be set. -/
def Unsettable (key value : String) : Prop :=
  '\x00' ∈ key.toList ∨ '\x00' ∈ value.toList ∨ '=' ∈ key.toList

theorem setNew_eq_error_iff {env : Environment} {key : String} {value : Option String} :
    (∃ f, setNew env key value = .error f) ↔
      Assoc.get? env key = none ∧ ∃ v, value = some v ∧ Unsettable key v := by
  unfold setNew Unsettable
  cases Assoc.get? env key with
  | some held => simp
  | none =>
      cases value with
      | none => simp
      | some v =>
          simp only [List.contains_iff_mem, Bool.or_eq_true, true_and, Option.some_inj,
            exists_eq_left']
          split
          · next null => exact iff_of_true ⟨_, rfl⟩ (null.elim .inl fun h => .inr (.inl h))
          · next clean =>
              split
              · next sign => exact iff_of_true ⟨_, rfl⟩ (.inr (.inr sign))
              · next unsigned =>
                  refine iff_of_false nofun ?_
                  rintro (h | h | h)
                  · exact clean (.inl h)
                  · exact clean (.inr h)
                  · exact unsigned h

/-- Setting a variable leaves the others alone. -/
theorem get?_of_setNew {env env' : Environment} {key other : String} {value : Option String}
    (h : setNew env key value = .ok env') (apart : key ≠ other) :
    Assoc.get? env' other = Assoc.get? env other := by
  unfold setNew at h
  split at h
  · cases h; rfl
  · cases h; rfl
  · split at h
    · cases h
    · split at h
      · cases h
      · cases h
        rw [Assoc.get?_put, if_neg apart]

/-- Variables with distinct names cannot be set exactly if one that is not set yet cannot. -/
theorem setAll_eq_error_iff {env : Environment} {entries : List (String × Option String)}
    (distinct : (Assoc.keys entries).Nodup) :
    (∃ f, setAll env entries = .error f) ↔
      ∃ key v, (key, some v) ∈ entries ∧ Assoc.get? env key = none ∧ Unsettable key v := by
  induction entries generalizing env with
  | nil => simp [setAll]
  | cons entry rest ih =>
      obtain ⟨key, value⟩ := entry
      obtain ⟨new, distinct⟩ := List.nodup_cons.mp distinct
      have here := @setNew_eq_error_iff env key value
      rw [setAll]
      cases set : setNew env key value with
      | error f =>
          obtain ⟨unset, v, rfl, fails⟩ := here.mp ⟨f, set⟩
          exact iff_of_true ⟨f, rfl⟩ ⟨key, v, List.mem_cons_self, unset, fails⟩
      | ok env' =>
          have passed : ¬ (Assoc.get? env key = none ∧ ∃ v, value = some v ∧ Unsettable key v) :=
            fun fails => by
              obtain ⟨f, failed⟩ := here.mpr fails
              rw [set] at failed
              cases failed
          -- what is set here has another name than what is set later
          have untouched {other : String} {v : Option String} (given : (other, v) ∈ rest) :
              Assoc.get? env' other = Assoc.get? env other :=
            get?_of_setNew set fun same => new (same ▸ List.mem_map.mpr ⟨_, given, rfl⟩)
          refine (ih distinct).trans ⟨?_, ?_⟩
          · rintro ⟨other, v, given, unset, fails⟩
            exact ⟨other, v, List.mem_cons_of_mem _ given, untouched given ▸ unset, fails⟩
          · rintro ⟨other, v, given, unset, fails⟩
            rcases List.mem_cons.mp given with same | given
            · obtain ⟨rfl, rfl⟩ := Prod.mk.inj same
              exact absurd ⟨unset, v, rfl, fails⟩ passed
            · exact ⟨other, v, given, (untouched given).trans unset, fails⟩

/-- Each key of a file counts once. -/
theorem nodup_resolve (env : Environment) (bs : List Binding) {known : List (String × Option String)}
    (distinct : (Assoc.keys known).Nodup) : (Assoc.keys (resolve env known bs)).Nodup := by
  induction bs generalizing known with
  | nil => exact distinct
  | cons b rest ih => exact ih (Assoc.nodup_put distinct _ _)

/-- A variable of a file that would be set and cannot be; what the file binds is read as `dotenv` documents
it (`VariableFile.bindings`). -/
def IsSpoiled (env : Environment) (text : String) : Prop :=
  isOff env = false ∧ ∃ key v, (key, some v) ∈ resolve env [] (bindings text) ∧
    Assoc.get? env key = none ∧ Unsettable key v

/-- A file cannot be loaded exactly if one of its new variables cannot be set. -/
theorem load_eq_error_iff {env : Environment} {text : String} :
    (∃ f, load env text = .error f) ↔ IsSpoiled env text := by
  unfold load IsSpoiled
  cases isOff env with
  | true => simp
  | false =>
      have distinct : (Assoc.keys (resolve env [] (bindings text))).Nodup :=
        nodup_resolve env (bindings text) List.nodup_nil
      rw [if_neg Bool.false_ne_true, setAll_eq_error_iff distinct]
      simp

end VariableFile

/-! ### Settings from variables -/

namespace Settings

/-- Settings as they come from variables. -/
structure Written (env : Environment) (s : Settings) : Prop where
  level : s.logLevel = .str ((lookup env "LOG_LEVEL").getD "INFO")
  restarts : ∃ n, s.crashLoopThreshold = .int n
  seconds : ∃ n, s.notReadySeconds = .int n
  url : s.gatewayUrl = .null ∨ ∃ url, s.gatewayUrl = .str url

theorem written_of_ofEnvironment {env : Environment} {s : Settings}
    (h : ofEnvironment env = .ok s) : Written env s := by
  obtain ⟨given, -⟩ := ofEnvironment_eq_ok_iff.mp h
  obtain ⟨n, m, w, ranged⟩ := ranged_of_given given
  have level : s.logLevel = text env "LOG_LEVEL" (.str "INFO") :=
    text_of_given (by simp [Variable.all]) given
  have url : s.gatewayUrl = text env "PROMETHEUS_PUSHGATEWAY_URL" .null :=
    text_of_given (by simp [Variable.all]) given
  refine ⟨?_, ⟨n, ranged.restarts⟩, ⟨m, ranged.seconds⟩, ?_⟩
  · rw [level, text]
    cases lookup env "LOG_LEVEL" <;> rfl
  · rw [url, text]
    cases lookup env "PROMETHEUS_PUSHGATEWAY_URL" with
    | none => exact .inl rfl
    | some url => exact .inr ⟨url, rfl⟩

/-- Settings from variables have a sink for their samples. -/
theorem Written.fresh {env : Environment} {s : Settings} (h : Written env s) :
    ∃ sink, Sink.fresh s.gatewayUrl s.jobName = .ok sink := by
  rcases h.url with url | ⟨url, text⟩
  · exact ⟨.registry {} none s.jobName.plain, by rw [url]; rfl⟩
  · exact ⟨.registry {} (Gateway.address? url) s.jobName.plain, by rw [text]; rfl⟩

/-! ### Refused settings -/

/-- Every fault of a reading is reported as one of the settings. -/
def Reports {α : Type} (r : Except Fault α) : Prop :=
  ∀ f, r = .error f → f.isReported = true

/-- Settings from variables are refused with a fault that is reported as one of the settings. -/
theorem reports_ofEnvironment (env : Environment) : Reports (ofEnvironment env) :=
  fun _ failed => (ofEnvironment_eq_error_iff.mp failed).isReported

end Settings

end BudgetReaper
