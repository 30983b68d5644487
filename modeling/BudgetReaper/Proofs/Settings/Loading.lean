import BudgetReaper.Proofs.Settings.Words

/-!
# Settings — variable by variable

The variables that settings are read from are listed in the order in which they are read, each with the
kind of its texts and the setting that it gives (`Variable.all`).  Settings are read by going through
that list: they are read when each of their fields is what its variable gives (`read_eq_ok_iff`), and
otherwise the first variable whose text says nothing decides the fault (`read_eq_error_iff`).

**Given or refused** (`ofEnvironment_eq_ok_iff`, `ofEnvironment_eq_error_iff`).  What has been read is
given if the thresholds and the format are in range.  So settings are refused for the first variable
that says nothing, and only if there is none for the first value out of range (`Blame`).
-/

namespace BudgetReaper

/-! ### Going through a list -/

section Traversal

variable {ε α β : Type} {f : α → Except ε β}

/-- A list is gone through exactly if each of its items gives something. -/
theorem mapM_eq_ok_iff {xs : List α} {ys : List β} :
    xs.mapM f = .ok ys ↔ xs.map f = ys.map .ok := by
  induction xs generalizing ys with
  | nil => cases ys <;> simp [pure, Except.pure]
  | cons x xs ih =>
      rw [List.mapM_cons]
      cases h : f x with
      | error e => cases ys <;> simp [bind, Except.bind, h]
      | ok y =>
          cases ht : xs.mapM f with
          | error e => cases ys <;> simp [bind, Except.bind, ← ih, ht, h]
          | ok tail => cases ys <;> simp [bind, Except.bind, pure, Except.pure, ← ih, ht, h]

/-- The first item that gives nothing decides the fault. -/
theorem mapM_eq_error_iff {xs : List α} {e : ε} :
    xs.mapM f = .error e ↔
      ∃ before x after, xs = before ++ x :: after ∧ (∀ y ∈ before, ∃ v, f y = .ok v) ∧
        f x = .error e := by
  induction xs with
  | nil => simp [pure, Except.pure]
  | cons x xs ih =>
      rw [List.mapM_cons]
      cases h : f x with
      | error e' =>
          constructor
          · intro same
            cases same
            exact ⟨[], x, xs, rfl, nofun, h⟩
          · rintro ⟨before, y, after, split, earlier, failed⟩
            cases before with
            | nil =>
                obtain ⟨rfl, -⟩ := List.cons.inj split
                exact congrArg Except.error (Except.error.inj (h.symm.trans failed))
            | cons z before =>
                obtain ⟨rfl, -⟩ := List.cons.inj split
                obtain ⟨v, given⟩ := earlier x List.mem_cons_self
                cases h.symm.trans given
      | ok v =>
          have later : (do let vs ← xs.mapM f; pure (v :: vs)) = .error e ↔ xs.mapM f = .error e := by
            cases xs.mapM f <;> simp [bind, Except.bind, pure, Except.pure]
          refine later.trans (ih.trans ⟨?_, ?_⟩)
          · rintro ⟨before, y, after, rfl, earlier, failed⟩
            exact ⟨x :: before, y, after, rfl, List.forall_mem_cons.mpr ⟨⟨v, h⟩, earlier⟩, failed⟩
          · rintro ⟨before, y, after, split, earlier, failed⟩
            cases before with
            | nil =>
                obtain ⟨rfl, -⟩ := List.cons.inj split
                cases h.symm.trans failed
            | cons z before =>
                obtain ⟨-, split⟩ := List.cons.inj split
                exact ⟨before, y, after, split, (List.forall_mem_cons.mp earlier).2, failed⟩

end Traversal

namespace Settings

/-! ### Variables -/

/-- A variable: its name, how its text is read, and the setting that it gives. -/
structure Variable where
  name : String
  kind : Kind
  field : Settings → Value

namespace Variable

/-- Whether nothing is to be deleted. -/
def dryRun : Variable := ⟨"DRY_RUN", .truth, Settings.dryRun⟩

/-- The number of restarts that count as a crash loop. -/
def restarts : Variable := ⟨"CRASHLOOP_RESTART_COUNT", .integer, Settings.crashLoopThreshold⟩

/-- The seconds for which a pod may not be ready. -/
def seconds : Variable := ⟨"NOT_READY_THRESHOLD_SECONDS", .integer, Settings.notReadySeconds⟩

/-- The format of log lines. -/
def format : Variable := ⟨"LOG_FORMAT", .text, Settings.logFormat⟩

/-- The variables in the order in which they are read. -/
def all : List Variable :=
  [⟨"KUBE_CONFIG_PATH", .text, Settings.kubeConfigPath⟩, ⟨"IN_CLUSTER", .truth, Settings.inCluster⟩,
    dryRun, ⟨"REAP_MULTIPLE", .truth, Settings.reapMultiple⟩,
    ⟨"REAP_MISCONFIGURED", .truth, Settings.reapMisconfigured⟩,
    ⟨"REAP_CRASHLOOP", .truth, Settings.reapCrashLoop⟩, restarts,
    ⟨"ALL_CRASHLOOP", .truth, Settings.allCrashLoop⟩,
    ⟨"REAP_NOT_READY", .truth, Settings.reapNotReady⟩, seconds,
    ⟨"ALL_NOT_READY", .truth, Settings.allNotReady⟩, ⟨"LOG_LEVEL", .text, Settings.logLevel⟩, format,
    ⟨"PROMETHEUS_PUSHGATEWAY_URL", .text, Settings.gatewayUrl⟩,
    ⟨"PROMETHEUS_JOB_NAME", .text, Settings.jobName⟩,
    ⟨"EXCLUDED_NAMESPACES", .names, Settings.excludedSpaces⟩]

/-- The fault of a variable with the text `raw`. -/
def fault (x : Variable) (raw : String) : Fault :=
  match x.kind with
  | .integer => .notInteger x.name raw
  | _ => .notTruthValue x.name raw

variable (x : Variable) (env : Environment)

/-- The variable gives `v`: the default if it is not set, and otherwise what its text says. -/
inductive Gives : Value → Prop where
  | unset (h : lookup env x.name = none) : Gives (x.field {})
  | set {raw : String} {v : Value} (h : lookup env x.name = some raw) (reads : x.kind.Reads raw v) :
      Gives v

/-- The variable is set to a text that says nothing of its kind. -/
def Offends (raw : String) : Prop :=
  lookup env x.name = some raw ∧ ¬ x.kind.Admits raw

/-- What is read from the variable. -/
def read : Except Fault Value :=
  match lookup env x.name with
  | none => .ok (x.field {})
  | some raw =>
    match x.kind.read? raw with
    | some v => .ok v
    | none => .error (x.fault raw)

variable {x env}

theorem gives_of_unset {v : Value} (h : lookup env x.name = none) :
    x.Gives env v ↔ x.field {} = v := by
  constructor
  · rintro (_ | ⟨set, -⟩)
    · rfl
    · cases h.symm.trans set
  · rintro rfl
    exact .unset h

theorem gives_of_set {raw : String} {v : Value} (h : lookup env x.name = some raw) :
    x.Gives env v ↔ x.kind.Reads raw v := by
  constructor
  · rintro (unset | ⟨set, reads⟩)
    · cases h.symm.trans unset
    · exact Option.some.inj (h.symm.trans set) ▸ reads
  · exact .set h

theorem read_eq_ok_iff {v : Value} : x.read env = .ok v ↔ x.Gives env v := by
  unfold read
  cases h : lookup env x.name with
  | none => rw [gives_of_unset h, Except.ok.injEq]
  | some raw =>
      rw [gives_of_set h, ← Kind.read?_eq_some_iff]
      dsimp only
      cases x.kind.read? raw <;> simp

theorem read_eq_error_iff {f : Fault} :
    x.read env = .error f ↔ ∃ raw, x.Offends env raw ∧ f = x.fault raw := by
  unfold read Offends
  cases h : lookup env x.name with
  | none => simp
  | some raw =>
      simp only [Option.some_inj, and_assoc, exists_eq_left', Kind.admits_iff,
        ← Kind.read?_eq_some_iff]
      cases x.kind.read? raw <;> simp [eq_comm]

theorem exists_read_iff : (∃ v, x.read env = .ok v) ↔ ∀ raw, ¬ x.Offends env raw := by
  constructor
  · rintro ⟨v, given⟩ raw offends
    cases given.symm.trans (read_eq_error_iff.mpr ⟨raw, offends, rfl⟩)
  · intro inoffensive
    cases read : x.read env with
    | ok v => exact ⟨v, rfl⟩
    | error f =>
        obtain ⟨raw, offends, -⟩ := read_eq_error_iff.mp read
        exact absurd offends (inoffensive raw)

/-- What a variable gives depends on that variable only. -/
theorem gives_congr {env' : Environment} (h : lookup env x.name = lookup env' x.name) {v : Value} :
    x.Gives env v ↔ x.Gives env' v := by
  cases here : lookup env x.name with
  | none => rw [gives_of_unset here, gives_of_unset (h.symm.trans here)]
  | some raw => rw [gives_of_set here, gives_of_set (h.symm.trans here)]

theorem gives_unique {v v' : Value} (h : x.Gives env v) (h' : x.Gives env v') : v = v' :=
  Except.ok.inj ((read_eq_ok_iff.mpr h).symm.trans (read_eq_ok_iff.mpr h'))

end Variable

/-- The settings of values in the order of their variables. -/
def ofValues (vs : List Value) : Settings :=
  let v (i : Nat) : Value := vs.getD i .null
  { kubeConfigPath := v 0, inCluster := v 1, dryRun := v 2, reapMultiple := v 3,
    reapMisconfigured := v 4, reapCrashLoop := v 5, crashLoopThreshold := v 6, allCrashLoop := v 7,
    reapNotReady := v 8, notReadySeconds := v 9, allNotReady := v 10, logLevel := v 11,
    logFormat := v 12, gatewayUrl := v 13, jobName := v 14, excludedSpaces := v 15 }

theorem ofValues_fields (s : Settings) : ofValues (Variable.all.map (·.field s)) = s :=
  rfl

theorem fields_ofValues {vs : List Value} (h : vs.length = Variable.all.length) :
    Variable.all.map (·.field (ofValues vs)) = vs := by
  have listed : Variable.all.map (·.field (ofValues vs)) = (List.range 16).map (vs.getD · .null) := rfl
  rw [listed]
  refine List.ext_getElem (by simp [h, Variable.all]) fun i hi hi' => ?_
  simp [hi']

theorem read_truth (env : Environment) (name : String) (field : Settings → Value) :
    Variable.read ⟨name, .truth, field⟩ env = truth env name (field {}) := by
  unfold Variable.read truth Kind.read?
  cases lookup env name with
  | none => rfl
  | some raw =>
      dsimp only
      cases readTruth? raw <;> rfl

theorem read_integer (env : Environment) (name : String) (field : Settings → Value) :
    Variable.read ⟨name, .integer, field⟩ env = integer env name (field {}) := by
  unfold Variable.read integer Kind.read?
  cases lookup env name with
  | none => rfl
  | some raw =>
      dsimp only
      cases Decimal.readInt? raw.toList <;> rfl

theorem read_text (env : Environment) (name : String) (field : Settings → Value) :
    Variable.read ⟨name, .text, field⟩ env = .ok (text env name (field {})) := by
  unfold Variable.read text Kind.read?
  cases lookup env name <;> rfl

theorem read_names (env : Environment) (name : String) (field : Settings → Value) :
    Variable.read ⟨name, .names, field⟩ env =
      .ok (((lookup env name).map fun raw => .texts (names raw)).getD (field {})) := by
  unfold Variable.read Kind.read?
  cases lookup env name <;> rfl

/-- Settings are read by going through the variables. -/
theorem read_eq (env : Environment) :
    read env = Variable.all.mapM (·.read env) >>= fun vs => .ok (ofValues vs) := by
  simp only [Variable.all, Variable.dryRun, Variable.restarts, Variable.seconds, Variable.format,
    List.mapM_cons, List.mapM_nil, read_truth, read_integer, read_text, read_names, bind_assoc,
    pure_bind]
  rfl

/-- Settings are given exactly if each of their fields is what its variable gives. -/
theorem read_eq_ok_iff {env : Environment} {s : Settings} :
    read env = .ok s ↔ ∀ x ∈ Variable.all, x.Gives env (x.field s) := by
  have whole : read env = .ok s ↔
      Variable.all.mapM (·.read env) = .ok (Variable.all.map (·.field s)) := by
    rw [read_eq]
    cases gone : Variable.all.mapM (·.read env) with
    | error f => simp [bind, Except.bind]
    | ok vs =>
        have length : vs.length = Variable.all.length := by
          have same := congrArg List.length (mapM_eq_ok_iff.mp gone)
          simpa using same.symm
        constructor
        · intro same
          cases same
          rw [fields_ofValues length]
        · intro same
          cases same
          exact congrArg Except.ok (ofValues_fields s)
  rw [whole, mapM_eq_ok_iff, List.map_map, List.map_inj_left]
  simp only [Function.comp_apply, Variable.read_eq_ok_iff]

/-- The first variable whose text says nothing decides the fault. -/
theorem read_eq_error_iff {env : Environment} {f : Fault} :
    read env = .error f ↔ ∃ before x after raw, Variable.all = before ++ x :: after ∧
      (∀ y ∈ before, ∀ raw, ¬ y.Offends env raw) ∧ x.Offends env raw ∧ f = x.fault raw := by
  have whole : read env = .error f ↔ Variable.all.mapM (·.read env) = .error f := by
    rw [read_eq]
    cases Variable.all.mapM (·.read env) <;> simp [bind, Except.bind]
  rw [whole, mapM_eq_error_iff]
  simp only [Variable.exists_read_iff, Variable.read_eq_error_iff]
  constructor
  · rintro ⟨before, x, after, order, earlier, raw, offends, rfl⟩
    exact ⟨before, x, after, raw, order, earlier, offends, rfl⟩
  · rintro ⟨before, x, after, raw, order, earlier, offends, rfl⟩
    exact ⟨before, x, after, order, earlier, raw, offends, rfl⟩

variable {env : Environment} {s : Settings}

/-- Each field is what its variable gives. -/
def Given (env : Environment) (s : Settings) : Prop :=
  ∀ x ∈ Variable.all, x.Gives env (x.field s)

/-- Every variable that is set says something of its kind. -/
def Readable (env : Environment) : Prop :=
  ∀ x ∈ Variable.all, ∀ raw, ¬ x.Offends env raw

/-- The thresholds and the format that the variables give are in range. -/
structure InRange (env : Environment) : Prop where
  restarts (n : Int) : Variable.restarts.Gives env (.int n) → 1 ≤ n
  seconds (n : Int) : Variable.seconds.Gives env (.int n) → 0 ≤ n
  format (w : String) : Variable.format.Gives env (.str w) → w = "json" ∨ w = "console"

/-- What settings are refused for: the first variable that says nothing, and then the first value out of
range. -/
inductive Blame (env : Environment) : Fault → Prop where
  | unread {before after : List Variable} {x : Variable} {raw : String}
      (order : Variable.all = before ++ x :: after)
      (earlier : ∀ y ∈ before, ∀ raw, ¬ y.Offends env raw) (offends : x.Offends env raw) :
      Blame env (x.fault raw)
  | restarts {n : Int} (readable : Readable env) (restarts : Variable.restarts.Gives env (.int n))
      (low : n < 1) : Blame env (.crashLoopThreshold (.int n))
  | seconds {n m : Int} (readable : Readable env) (restarts : Variable.restarts.Gives env (.int n))
      (enough : 1 ≤ n) (seconds : Variable.seconds.Gives env (.int m)) (low : m < 0) :
      Blame env (.notReadySeconds (.int m))
  | format {n m : Int} {w : String} (readable : Readable env)
      (restarts : Variable.restarts.Gives env (.int n)) (enough : 1 ≤ n)
      (seconds : Variable.seconds.Gives env (.int m)) (nonneg : 0 ≤ m)
      (format : Variable.format.Gives env (.str w)) (other : ¬ (w = "json" ∨ w = "console")) :
      Blame env (.logFormat (.str w))

/-! ### Reading, then validating -/

theorem readable_iff : Readable env ↔ ∃ s, Given env s := by
  simp only [Given, ← read_eq_ok_iff]
  constructor
  · intro readable
    cases given : read env with
    | ok s => exact ⟨s, rfl⟩
    | error f =>
        obtain ⟨before, x, after, raw, order, -, offends, -⟩ := read_eq_error_iff.mp given
        exact absurd offends (readable x (by simp [order]) raw)
  · rintro ⟨s, given⟩ x hx
    exact Variable.exists_read_iff.mp
      ⟨x.field s, Variable.read_eq_ok_iff.mpr (read_eq_ok_iff.mp given x hx)⟩

theorem int_of_gives {x : Variable} {v : Value} (kind : x.kind = .integer)
    (default : ∃ n, x.field {} = .int n) (gives : x.Gives env v) : ∃ n, v = .int n := by
  cases gives with
  | unset => exact default
  | set h reads =>
      rw [kind] at reads
      cases reads
      exact ⟨_, rfl⟩

theorem str_of_gives {x : Variable} {v : Value} (kind : x.kind = .text)
    (default : ∃ w, x.field {} = .str w) (gives : x.Gives env v) : ∃ w, v = .str w := by
  cases gives with
  | unset => exact default
  | set h reads =>
      rw [kind] at reads
      cases reads
      exact ⟨_, rfl⟩

/-- What a variable without a grammar gives is its text. -/
theorem text_of_given {name : String} {field : Settings → Value}
    (listed : ⟨name, .text, field⟩ ∈ Variable.all) (given : Given env s) :
    field s = text env name (field {}) := by
  have read := Variable.read_eq_ok_iff.mpr (given _ listed)
  rw [read_text] at read
  exact (Except.ok.inj read).symm

/-- What the variables give for the thresholds and the format. -/
structure Ranged (env : Environment) (s : Settings) (n m : Int) (w : String) : Prop where
  restarts : s.crashLoopThreshold = .int n
  seconds : s.notReadySeconds = .int m
  format : s.logFormat = .str w
  gives_restarts : Variable.restarts.Gives env (.int n)
  gives_seconds : Variable.seconds.Gives env (.int m)
  gives_format : Variable.format.Gives env (.str w)

theorem ranged_of_given (given : Given env s) : ∃ n m w, Ranged env s n m w := by
  have restarts := given Variable.restarts (by simp [Variable.all])
  have seconds := given Variable.seconds (by simp [Variable.all])
  have format := given Variable.format (by simp [Variable.all])
  obtain ⟨n, hn⟩ := int_of_gives rfl ⟨5, rfl⟩ restarts
  obtain ⟨m, hm⟩ := int_of_gives rfl ⟨1800, rfl⟩ seconds
  obtain ⟨w, hw⟩ := str_of_gives rfl ⟨"json", rfl⟩ format
  exact ⟨n, m, w, hn, hm, hw, hn ▸ restarts, hm ▸ seconds, hw ▸ format⟩

/-- What a variable gives is a value only. -/
theorem Ranged.inRange_iff {n m : Int} {w : String} (ranged : Ranged env s n m w) :
    InRange env ↔ 1 ≤ n ∧ 0 ≤ m ∧ (w = "json" ∨ w = "console") := by
  constructor
  · intro h
    exact ⟨h.restarts n ranged.gives_restarts, h.seconds m ranged.gives_seconds,
      h.format w ranged.gives_format⟩
  · rintro ⟨enough, nonneg, known⟩
    refine ⟨fun n' given => ?_, fun m' given => ?_, fun w' given => ?_⟩
    · cases Variable.gives_unique given ranged.gives_restarts
      exact enough
    · cases Variable.gives_unique given ranged.gives_seconds
      exact nonneg
    · cases Variable.gives_unique given ranged.gives_format
      exact known

theorem isLogFormat_str (w : String) : isLogFormat (.str w) = true ↔ w = "json" ∨ w = "console" := by
  simp [isLogFormat, logFormats]

/-- Values are validated in the order restarts, seconds, format. -/
theorem Ranged.validate {n m : Int} {w : String} (ranged : Ranged env s n m w) :
    s.validate =
      if n < 1 then .error (.crashLoopThreshold (.int n))
      else if m < 0 then .error (.notReadySeconds (.int m))
      else if w = "json" ∨ w = "console" then .ok s
      else .error (.logFormat (.str w)) := by
  rw [Settings.validate, ranged.restarts, ranged.seconds, ranged.format, isBelow_int, isBelow_int]
  simp only [bind, Except.bind, decide_eq_true_eq, isLogFormat_str]

theorem ofEnvironment_of_read (known : read env = .ok s) : ofEnvironment env = s.validate := by
  rw [ofEnvironment, known]
  rfl

theorem ofEnvironment_of_unread {f : Fault} (unread : read env = .error f) :
    ofEnvironment env = .error f := by
  rw [ofEnvironment, unread]
  rfl

/-- Variables that can all be read lead to settings, and these are validated. -/
theorem exists_ranged (readable : Readable env) :
    ∃ s n m w, Ranged env s n m w ∧ ofEnvironment env = s.validate := by
  obtain ⟨s, given⟩ := readable_iff.mp readable
  obtain ⟨n, m, w, ranged⟩ := ranged_of_given given
  exact ⟨s, n, m, w, ranged, ofEnvironment_of_read (read_eq_ok_iff.mpr given)⟩

theorem ofEnvironment_eq_ok_iff : ofEnvironment env = .ok s ↔ Given env s ∧ InRange env := by
  rw [Given, ← read_eq_ok_iff]
  cases known : read env with
  | error f =>
      rw [ofEnvironment_of_unread known]
      exact iff_of_false nofun fun h => nomatch h.1
  | ok s' =>
      obtain ⟨n, m, w, ranged⟩ := ranged_of_given (read_eq_ok_iff.mp known)
      rw [ofEnvironment_of_read known, ranged.inRange_iff, ranged.validate]
      split
      · next low => exact iff_of_false nofun fun h => absurd h.2.1 (by omega)
      · split
        · next low => exact iff_of_false nofun fun h => absurd h.2.2.1 (by omega)
        · split
          · next enough nonneg format => exact (and_iff_left ⟨by omega, by omega, format⟩).symm
          · next other => exact iff_of_false nofun fun h => other h.2.2.2

/-- What is to blame is what the settings are refused for. -/
theorem Blame.refuses {f : Fault} (blame : Blame env f) : ofEnvironment env = .error f := by
  cases blame with
  | unread order earlier offends =>
      exact ofEnvironment_of_unread
        (read_eq_error_iff.mpr ⟨_, _, _, _, order, earlier, offends, rfl⟩)
  | restarts readable restarts low =>
      obtain ⟨s, n, m, w, ranged, validated⟩ := exists_ranged readable
      cases Variable.gives_unique restarts ranged.gives_restarts
      rw [validated, ranged.validate, if_pos low]
  | seconds readable restarts enough seconds low =>
      obtain ⟨s, n, m, w, ranged, validated⟩ := exists_ranged readable
      cases Variable.gives_unique restarts ranged.gives_restarts
      cases Variable.gives_unique seconds ranged.gives_seconds
      rw [validated, ranged.validate, if_neg (Int.not_lt.mpr enough), if_pos low]
  | format readable restarts enough seconds nonneg format other =>
      obtain ⟨s, n, m, w, ranged, validated⟩ := exists_ranged readable
      cases Variable.gives_unique restarts ranged.gives_restarts
      cases Variable.gives_unique seconds ranged.gives_seconds
      cases Variable.gives_unique format ranged.gives_format
      rw [validated, ranged.validate, if_neg (Int.not_lt.mpr enough),
        if_neg (Int.not_lt.mpr nonneg), if_neg other]

theorem Blame.isReported {f : Fault} (blame : Blame env f) : f.isReported = true := by
  cases blame with
  | @unread _ _ x raw =>
      obtain ⟨name, kind, field⟩ := x
      cases kind <;> rfl
  | restarts | seconds | format => rfl

/-- Settings that are not given are refused for something. -/
theorem exists_blame (refused : ¬ (Readable env ∧ InRange env)) : ∃ f, Blame env f := by
  by_cases readable : Readable env
  · obtain ⟨s, n, m, w, ranged, -⟩ := exists_ranged readable
    by_cases low : n < 1
    · exact ⟨_, .restarts readable ranged.gives_restarts low⟩
    · by_cases low' : m < 0
      · exact ⟨_, .seconds readable ranged.gives_restarts (by omega) ranged.gives_seconds low'⟩
      · by_cases known : w = "json" ∨ w = "console"
        · have inside : InRange env := ranged.inRange_iff.mpr ⟨by omega, by omega, known⟩
          exact absurd ⟨readable, inside⟩ refused
        · exact ⟨_, .format readable ranged.gives_restarts (by omega) ranged.gives_seconds
            (by omega) ranged.gives_format known⟩
  · cases known : read env with
    | ok s => exact absurd (readable_iff.mpr ⟨s, read_eq_ok_iff.mp known⟩) readable
    | error f =>
        obtain ⟨before, x, after, raw, order, earlier, offends, -⟩ := read_eq_error_iff.mp known
        exact ⟨_, .unread order earlier offends⟩

theorem accepts_iff : (∃ s, ofEnvironment env = .ok s) ↔ Readable env ∧ InRange env := by
  simp only [ofEnvironment_eq_ok_iff, exists_and_right, ← readable_iff]

theorem ofEnvironment_eq_error_iff {f : Fault} : ofEnvironment env = .error f ↔ Blame env f := by
  refine ⟨fun failed => ?_, Blame.refuses⟩
  have refused : ¬ (Readable env ∧ InRange env) := fun accepted => by
    obtain ⟨s, given⟩ := accepts_iff.mpr accepted
    cases given.symm.trans failed
  obtain ⟨f', blame⟩ := exists_blame refused
  obtain rfl : f' = f := Except.error.inj (blame.refuses.symm.trans failed)
  exact blame

theorem typeName_of_isReported {f : Fault} (h : f.isReported = true) : f.typeName = "ConfigError" := by
  cases f with
  | threshold => cases h
  | _ => rfl

end Settings

end BudgetReaper
