import BudgetReaper.Credentials

/-!
# Credentials — which sources are reached

A source is tried once, and the attempt ends well or with a fault (`Attempt`).  The attempts come in
order and stop at the first that loads (`tried`); what one of them says of a chain of sources is carried
from each link to the chain before it (`Chain.passed`), so that a stage whose fault is passed over is one
more link.

As it is meant, the chain goes from the account to the default location and on to every default file
that exists (`Sources.attempts`), and nothing but the lack of credentials ends it (`ReachesAll`).  The
chain that is there stops after the first of the default files (`Sources.reach`), whose fault is not
passed over.

**Fallback** (`fallsBack`).  With no file named, and every attempt ending well or with unusable
credentials, the attempts are those of the shorter chain, in order and up to the first that loads, and
credentials are loaded exactly if one of them loads.  This is what is meant unless a default file exists
and nothing reached loads (`Sources.Stuck`): then the fault of that file escapes, whether or not a later
file would have loaded (`not_always_reached`).
-/

namespace BudgetReaper

/-- The attempt to use a source that an effect is. -/
def Effect.load? : Effect → Option Load
  | load l => some l
  | _ => none

/-- The sources that an outcome has tried, in order. -/
def Outcome.loads {σ α : Type} (o : Outcome σ α) : List Load :=
  o.trace.filterMap Effect.load?

/-! ### Attempts -/

/-- A source, and how the attempt to load it ends. -/
structure Attempt where
  source : Load
  ending : Option Fault
  deriving DecidableEq, Repr

namespace Attempt

/-- The source loads. -/
def Loads (a : Attempt) : Prop :=
  a.ending = none

instance (a : Attempt) : Decidable a.Loads :=
  inferInstanceAs (Decidable (a.ending = none))

/-- The attempt ends well, or with credentials that cannot be used. -/
def IsPlain (a : Attempt) : Prop :=
  ∀ f, a.ending = some f → ∃ text, f = .credentials text

end Attempt

namespace Credentials

/-- The attempts up to the first that loads. -/
def tried : List Attempt → List Attempt
  | [] => []
  | a :: rest => if a.Loads then [a] else a :: tried rest

theorem tried_cons_of_loads {a : Attempt} (h : a.Loads) (rest : List Attempt) :
    tried (a :: rest) = [a] :=
  if_pos h

theorem tried_cons_of_not_loads {a : Attempt} (h : ¬a.Loads) (rest : List Attempt) :
    tried (a :: rest) = a :: tried rest :=
  if_neg h

/-- Nothing is tried beyond an attempt that loads. -/
theorem tried_append {l : List Attempt} (h : ∃ a ∈ l, a.Loads) (rest : List Attempt) :
    tried (l ++ rest) = tried l := by
  induction l with
  | nil => obtain ⟨a, ha, -⟩ := h; cases ha
  | cons a l ih =>
      rw [List.cons_append]
      by_cases loads : a.Loads
      · rw [tried_cons_of_loads loads, tried_cons_of_loads loads]
      · have later : ∃ a ∈ l, a.Loads := by
          obtain ⟨b, hb, hl⟩ := h
          rcases List.mem_cons.mp hb with rfl | hb
          · exact absurd hl loads
          · exact ⟨b, hb, hl⟩
        rw [tried_cons_of_not_loads loads, tried_cons_of_not_loads loads, ih later]

/-- An outcome is that of a chain of attempts, with `f` the failure if none of them loads. -/
structure Chain (o : Outcome Sources Unit) (l : List Attempt) (f : Failure) : Prop where
  /-- The sources are tried in order, up to the first that loads. -/
  ordered : o.loads = (tried l).map (·.source)
  /-- If one of them loads, credentials are loaded. -/
  loaded : (∃ a ∈ l, a.Loads) → o.result = .ok ()
  /-- If none of them loads, the failure is `f`. -/
  failed : (∀ a ∈ l, ¬a.Loads) → o.result = .error f

/-- A chain with no attempt fails. -/
theorem Chain.nil (s : Sources) (f : Failure) : Chain (Action.fail f s) [] f where
  ordered := rfl
  loaded := by rintro ⟨a, ha, -⟩; cases ha
  failed _ := rfl

/-- A source that loads ends the chain. -/
theorem Chain.of_loads {o : Outcome Sources Unit} {a : Attempt} (h : a.Loads)
    (loads : o.loads = [a.source]) (result : o.result = .ok ()) (rest : List Attempt) (f : Failure) :
    Chain o (a :: rest) f where
  ordered := by rw [loads, tried_cons_of_loads h]; rfl
  loaded _ := result
  failed unloaded := absurd h (unloaded a List.mem_cons_self)

/-- A source that is passed over is one more link before the chain of what comes next. -/
theorem Chain.passed {o o' : Outcome Sources Unit} {a : Attempt} {l : List Attempt} {f : Failure}
    (next : Chain o l f) (h : ¬a.Loads) (loads : o'.loads = a.source :: o.loads)
    (result : o'.result = o.result) : Chain o' (a :: l) f where
  ordered := by rw [loads, next.ordered, tried_cons_of_not_loads h]; rfl
  loaded := by
    rintro ⟨b, hb, hl⟩
    rcases List.mem_cons.mp hb with rfl | hb
    · exact absurd hl h
    · rw [result, next.loaded ⟨b, hb, hl⟩]
  failed unloaded := by
    rw [result, next.failed fun b hb => unloaded b (List.mem_cons_of_mem a hb)]

/-- A chain returns exactly if one of its attempts loads. -/
theorem Chain.result_eq_ok_iff {o : Outcome Sources Unit} {l : List Attempt} {f : Failure}
    (chain : Chain o l f) : o.result = .ok () ↔ ∃ a ∈ l, a.Loads := by
  refine ⟨fun returned => Decidable.byContradiction fun unloaded => ?_, chain.loaded⟩
  have failed := chain.failed fun a ha loads => unloaded ⟨a, ha, loads⟩
  rw [returned] at failed
  cases failed

end Credentials

/-! ### The chain of the sources -/

namespace Sources

/-- How the `k`-th attempt to load a file ends. -/
def ending (s : Sources) (k : Nat) : Option Fault :=
  s.files[k]?.join

/-- The sources after an attempt to load a file. -/
def next (s : Sources) : Sources :=
  { s with files := s.files.drop 1 }

theorem ending_next (s : Sources) (k : Nat) : s.next.ending k = s.ending (k + 1) := by
  simp [ending, next]

/-- The attempt to use the account, if it is to be used. -/
def ofAccount (s : Sources) (inCluster : Bool) : List Attempt :=
  if inCluster then [⟨.account, s.account⟩] else []

/-- The attempt to load the default location. -/
def ofLocation (s : Sources) : Attempt :=
  ⟨.file none, s.ending 0⟩

/-- The default files that exist. -/
def present (s : Sources) : List String :=
  s.defaults.filter s.existing.contains

/-- An attempt to load each default file that exists, after that to load the default location. -/
def ofFiles (s : Sources) : List Attempt :=
  (s.present.zipIdx 1).map fun file => ⟨.file (some file.1), s.ending file.2⟩

/-- Every source, in order. -/
def attempts (s : Sources) (inCluster : Bool) : List Attempt :=
  s.ofAccount inCluster ++ s.ofLocation :: s.ofFiles

/-- The sources that are reached: of the default files, only the first. -/
def reach (s : Sources) (inCluster : Bool) : List Attempt :=
  s.ofAccount inCluster ++ s.ofLocation :: s.ofFiles.take 1

/-- A default file exists, and nothing that is reached loads. -/
def Stuck (s : Sources) (inCluster : Bool) : Prop :=
  s.present ≠ [] ∧ ∀ a ∈ s.reach inCluster, ¬a.Loads

/-- The failure if nothing that is reached loads. -/
def lastFailure (s : Sources) : Failure :=
  match s.present, s.ending 1 with
  | _ :: _, some f => .fault f
  | _, _ => .noCredentials

/-- What is reached comes first. -/
theorem attempts_eq (s : Sources) (inCluster : Bool) :
    s.attempts inCluster = s.reach inCluster ++ s.ofFiles.drop 1 := by
  rw [attempts, reach, List.append_assoc, List.cons_append, List.take_append_drop]

theorem mem_attempts_of_reach {s : Sources} {inCluster : Bool} {a : Attempt}
    (h : a ∈ s.reach inCluster) : a ∈ s.attempts inCluster := by
  rw [attempts_eq]
  exact List.mem_append_left _ h

/-- With no default file, every source is reached. -/
theorem reach_of_present_eq_nil {s : Sources} (h : s.present = []) (inCluster : Bool) :
    s.reach inCluster = s.attempts inCluster := by
  simp [attempts_eq, ofFiles, h]

end Sources

namespace Credentials

open BudgetReaper.Action

/-! ### Each stage -/

theorem loadFile_apply (path : Option String) (s : Sources) :
    loadFile path s =
      ⟨.ok ((s.ending 0).elim (.ok ()) .error), s.next, [.load (.file path)]⟩ := by
  cases h : s.files with
  | nil => simp [loadFile, Sources.ending, Sources.next, h]
  | cons f rest => cases f <;> simp [loadFile, Sources.ending, Sources.next, h]

theorem useFile_apply (path : String) (s : Sources) :
    useFile path s =
      ⟨(s.ending 0).elim (.ok ()) (.error ∘ .fault), s.next,
        [.notice (.credentialsFile path), .load (.file (some path))]⟩ := by
  rw [useFile, say_bind, bind_of_ok (congrArg Outcome.result (loadFile_apply (some path) s))]
  cases s.ending 0 <;> simp [loadFile_apply]

theorem loadAccount_apply (s : Sources) :
    loadAccount s = ⟨.ok (s.account.elim (.ok ()) .error), s, [.load .account]⟩ := by
  cases h : s.account <;> simp [loadAccount, h]

theorem useAccount_of_loads {s : Sources} (h : s.account = none) :
    useAccount s = ⟨.ok true, s, [.load .account, .notice .accountCredentials]⟩ := by
  have read : (loadAccount s).result = .ok (.ok ()) := by rw [loadAccount_apply, h]; rfl
  rw [useAccount, bind_of_ok read, loadAccount_apply]
  rfl

theorem useAccount_of_refused {s : Sources} {text : String} (h : s.account = some (.credentials text)) :
    useAccount s = ⟨.ok false, s, [.load .account, .notice .noAccount]⟩ := by
  have read : (loadAccount s).result = .ok (.error (.credentials text)) := by
    rw [loadAccount_apply, h]; rfl
  rw [useAccount, bind_of_ok read, loadAccount_apply]
  rfl

theorem useDefault_of_loads {s : Sources} (h : s.ending 0 = none) :
    useDefault s = ⟨.ok true, s.next, [.load (.file none), .notice .defaultCredentials]⟩ := by
  have read : (loadFile none s).result = .ok (.ok ()) := by rw [loadFile_apply, h]; rfl
  rw [useDefault, bind_of_ok read, loadFile_apply]
  rfl

theorem useDefault_of_refused {s : Sources} {text : String}
    (h : s.ending 0 = some (.credentials text)) :
    useDefault s = ⟨.ok false, s.next, [.load (.file none)]⟩ := by
  have read : (loadFile none s).result = .ok (.error (.credentials text)) := by
    rw [loadFile_apply, h]; rfl
  rw [useDefault, bind_of_ok read, loadFile_apply]
  rfl

/-! ### The stages one after the other -/

/-- Loads the first of the default files that exist. -/
def useFirst (s : Sources) : Action Sources Unit :=
  s.present.head?.elim (fail .noCredentials) useFile

/-- Loads the default location, else the first of the default files that exist. -/
def useFiles (s : Sources) : Action Sources Unit := do
  if ← useDefault then return ()
  useFirst s

/-- With no file named, the account comes first if it is to be used. -/
theorem load_of_unnamed {path : Value} {s : Sources} (h : namedFile? path s = none)
    (inCluster : Bool) :
    load path inCluster s =
      (do
        if inCluster then
          if ← useAccount then return ()
        useFiles s : Action Sources Unit) s := by
  have head : s.present.head? = s.defaults.find? s.existing.contains := List.head?_filter
  rw [load, state_bind, h]
  simp only [useFiles, useFirst, head]
  cases s.defaults.find? s.existing.contains <;> rfl

/-- A file that exists ends the chain, whatever comes of it. -/
theorem chain_useFile (path : String) (s : Sources) {a : Attempt} {f : Failure}
    (source : a.source = .file (some path)) (ending : a.ending = s.ending 0)
    (failure : ∀ g, a.ending = some g → f = .fault g) : Chain (useFile path s) [a] f := by
  rw [useFile_apply, ← ending]
  cases result : a.ending with
  | none => exact .of_loads result (by rw [source]; rfl) rfl [] f
  | some g =>
      have refused : ¬a.Loads := by simp [Attempt.Loads, result]
      rw [failure g result]
      exact (Chain.nil s (.fault g)).passed refused (by rw [source]; rfl) rfl

/-- Of the default files that exist, the first ends the chain. -/
theorem chain_useFirst {s t : Sources} (ending : s.ending 1 = t.ending 0) :
    Chain (useFirst s t) (s.ofFiles.take 1) s.lastFailure := by
  cases present : s.present with
  | nil =>
      have used : useFirst s = fail .noCredentials := by rw [useFirst, present]; rfl
      have failure : s.lastFailure = .noCredentials := by rw [Sources.lastFailure, present]
      rw [used, failure, Sources.ofFiles, present]
      exact .nil t .noCredentials
  | cons file rest =>
      have used : useFirst s = useFile file := by rw [useFirst, present]; rfl
      have failure : ∀ g, s.ending 1 = some g → s.lastFailure = .fault g := by
        intro g h
        rw [Sources.lastFailure, present, h]
      rw [used, Sources.ofFiles, present]
      exact chain_useFile file t rfl ending failure

/-- The default location comes before the default files. -/
theorem chain_useFiles {s : Sources} (plain : s.ofLocation.IsPlain) :
    Chain (useFiles s s) (s.ofLocation :: s.ofFiles.take 1) s.lastFailure := by
  cases ending : s.ending 0 with
  | none =>
      have used := useDefault_of_loads ending
      have result : (useDefault s).result = .ok true := by rw [used]
      refine .of_loads (a := s.ofLocation) ending ?_ ?_ _ _ <;>
        rw [useFiles, bind_of_ok result, used] <;> rfl
  | some f =>
      obtain ⟨text, rfl⟩ := plain f ending
      have used := useDefault_of_refused ending
      have result : (useDefault s).result = .ok false := by rw [used]
      have refused : ¬s.ofLocation.Loads := by simp [Attempt.Loads, Sources.ofLocation, ending]
      refine (chain_useFirst (s.ending_next 0).symm).passed refused ?_ ?_ <;>
        rw [useFiles, bind_of_ok result, used] <;> rfl

/-- The whole chain, with no file named. -/
theorem chain_load {path : Value} {s : Sources} (unnamed : namedFile? path s = none)
    {inCluster : Bool} (plain : ∀ a ∈ s.reach inCluster, a.IsPlain) :
    Chain (load path inCluster s) (s.reach inCluster) s.lastFailure := by
  have files := chain_useFiles (plain s.ofLocation (by simp [Sources.reach]))
  rw [load_of_unnamed unnamed]
  cases inCluster with
  | false => exact files
  | true =>
      cases account : s.account with
      | none =>
          have used := useAccount_of_loads account
          have result : (useAccount s).result = .ok true := by rw [used]
          refine .of_loads (a := ⟨.account, s.account⟩) account ?_ ?_ _ _ <;>
            rw [if_pos rfl, bind_of_ok result, used] <;> rfl
      | some f =>
          have reached : ⟨.account, s.account⟩ ∈ s.reach true := by
            simp [Sources.reach, Sources.ofAccount]
          obtain ⟨text, rfl⟩ := plain _ reached f account
          have used := useAccount_of_refused account
          have result : (useAccount s).result = .ok false := by rw [used]
          have refused : ¬(Attempt.mk .account s.account).Loads := by simp [Attempt.Loads, account]
          refine files.passed refused ?_ ?_ <;> rw [if_pos rfl, bind_of_ok result, used] <;> rfl

/-! ### Fallback -/

/-- Neither the file given nor the file of the variable exists. -/
def Unnamed (path : Option String) (s : Sources) : Prop :=
  ∀ file, path = some file ∨ s.named = some file → file ≠ "" → file ∉ s.existing

theorem namedFile?_of_unnamed {path : Option String} {s : Sources} (h : Unnamed path s) :
    namedFile? (.ofText? path) s = none := by
  obtain ⟨text, origin, given⟩ : ∃ text, (text = path ∨ text = s.named) ∧
      (if (Value.ofText? path).holds then Value.ofText? path else .ofText? s.named) =
        Value.ofText? text := by
    split
    · exact ⟨path, .inl rfl, rfl⟩
    · exact ⟨s.named, .inr rfl, rfl⟩
  rw [namedFile?, given]
  cases text with
  | none => rfl
  | some file =>
      have excluded := h file (origin.imp Eq.symm Eq.symm)
      simpa [Value.ofText?] using excluded

/-- What is meant: every source is tried in its turn, up to the first that loads, credentials are
loaded if any source loads, and otherwise their lack is the failure. -/
structure ReachesAll (path : Option String) (inCluster : Bool) (s : Sources) : Prop where
  ordered : (load (.ofText? path) inCluster s).loads = (tried (s.attempts inCluster)).map (·.source)
  returned : (load (.ofText? path) inCluster s).result = .ok () ↔
    ∃ a ∈ s.attempts inCluster, a.Loads
  refused : (∀ a ∈ s.attempts inCluster, ¬a.Loads) →
    ∃ f, (load (.ofText? path) inCluster s).result = .error f ∧
      f.typeName = "ClusterError" ∧ f.operation? = some "load-config"

/-- What happens: only the first of the default files is reached, and its fault escapes. -/
structure FallsBack (path : Option String) (inCluster : Bool) (s : Sources) : Prop where
  ordered : (load (.ofText? path) inCluster s).loads = (tried (s.reach inCluster)).map (·.source)
  returned : (load (.ofText? path) inCluster s).result = .ok () ↔ ∃ a ∈ s.reach inCluster, a.Loads
  /-- This is what is meant unless it is stuck. -/
  meant : ReachesAll path inCluster s ↔ ¬s.Stuck inCluster
  /-- If it is stuck, the fault of the first default file takes the place of the failure meant. -/
  escaped : s.Stuck inCluster →
    ∃ text, s.ending 1 = some (.credentials text) ∧
      (load (.ofText? path) inCluster s).result = .error (.fault (.credentials text))

/-- If it is stuck, the first default file is refused. -/
theorem exists_ending_of_stuck {inCluster : Bool} {s : Sources} (stuck : s.Stuck inCluster)
    (plain : ∀ a ∈ s.reach inCluster, a.IsPlain) :
    ∃ text, s.ending 1 = some (.credentials text) ∧
      s.lastFailure = .fault (.credentials text) := by
  obtain ⟨present, unloaded⟩ := stuck
  obtain ⟨file, rest, present⟩ := List.exists_cons_of_ne_nil present
  have reached : ⟨.file (some file), s.ending 1⟩ ∈ s.reach inCluster := by
    simp [Sources.reach, Sources.ofFiles, present]
  obtain ⟨f, ending⟩ := Option.ne_none_iff_exists'.mp (unloaded _ reached)
  obtain ⟨text, rfl⟩ := plain _ reached f ending
  exact ⟨text, ending, by rw [Sources.lastFailure, present, show s.ending 1 = _ from ending]⟩

/-- With no file named, and every attempt ending well or with unusable credentials: credentials are
loaded from the first source that loads, but of the default files only the first is ever reached. -/
theorem fallsBack (path : Option String) (inCluster : Bool) (s : Sources) (unnamed : Unnamed path s)
    (plain : ∀ a ∈ s.attempts inCluster, a.IsPlain) : FallsBack path inCluster s := by
  have plainly : ∀ a ∈ s.reach inCluster, a.IsPlain :=
    fun a ha => plain a (Sources.mem_attempts_of_reach ha)
  have chain := chain_load (namedFile?_of_unnamed unnamed) plainly
  have escaped : s.Stuck inCluster →
      ∃ text, s.ending 1 = some (.credentials text) ∧
        (load (.ofText? path) inCluster s).result = .error (.fault (.credentials text)) := by
    intro stuck
    obtain ⟨text, ending, failure⟩ := exists_ending_of_stuck stuck plainly
    exact ⟨text, ending, by rw [chain.failed stuck.2, failure]⟩
  refine ⟨chain.ordered, chain.result_eq_ok_iff, ⟨fun all stuck => ?_, fun free => ?_⟩, escaped⟩
  · -- Whether or not a later file loads, the fault that escapes is not what is meant.
    obtain ⟨text, -, result⟩ := escaped stuck
    by_cases loads : ∃ a ∈ s.attempts inCluster, a.Loads
    · have returned := all.returned.mpr loads
      rw [result] at returned
      cases returned
    · obtain ⟨f, refused, kind, -⟩ := all.refused fun a ha h => loads ⟨a, ha, h⟩
      obtain rfl : Failure.fault (.credentials text) = f := Except.error.inj (result.symm.trans refused)
      exact absurd kind (by simp [Failure.typeName, Fault.typeName])
  · by_cases loads : ∃ a ∈ s.reach inCluster, a.Loads
    · obtain ⟨a, ha, h⟩ := loads
      have later : ∃ a ∈ s.attempts inCluster, a.Loads :=
        ⟨a, Sources.mem_attempts_of_reach ha, h⟩
      refine ⟨?_, iff_of_true (chain.loaded ⟨a, ha, h⟩) later, fun unloaded => ?_⟩
      · rw [chain.ordered, Sources.attempts_eq, tried_append ⟨a, ha, h⟩]
      · obtain ⟨b, hb, h⟩ := later
        exact absurd h (unloaded b hb)
    · have unloaded : ∀ a ∈ s.reach inCluster, ¬a.Loads := fun a ha h => loads ⟨a, ha, h⟩
      have absent : s.present = [] :=
        Decidable.byContradiction fun present => free ⟨present, unloaded⟩
      have reached := Sources.reach_of_present_eq_nil absent inCluster
      have failure : s.lastFailure = .noCredentials := by rw [Sources.lastFailure, absent]
      rw [reached] at chain
      exact ⟨chain.ordered, chain.result_eq_ok_iff, fun h =>
        ⟨.noCredentials, by rw [chain.failed h, failure], rfl, rfl⟩⟩

/-- Two of the default files exist: the first has no context, the second would load. -/
def twoFiles : Sources where
  named := none
  existing := ["/home/reaper/.kube/config", "/etc/kubernetes/admin.conf"]
  defaults := defaultPaths "/home/reaper"
  account := some (.credentials "Service host/port is not set.")
  files := [some (.credentials "Invalid kube-config file."), some (.credentials "No context."), none]

theorem twoFiles_unnamed : Unnamed none twoFiles := by
  rintro file (origin | origin) <;> cases origin

theorem twoFiles_plain : ∀ a ∈ twoFiles.attempts true, a.IsPlain := by
  have listed : twoFiles.attempts true =
      [⟨.account, some (.credentials "Service host/port is not set.")⟩,
        ⟨.file none, some (.credentials "Invalid kube-config file.")⟩,
        ⟨.file (some "/home/reaper/.kube/config"), some (.credentials "No context.")⟩,
        ⟨.file (some "/etc/kubernetes/admin.conf"), none⟩] := by decide
  rw [listed]
  simp [Attempt.IsPlain]

/-- The first of the two files is reached, and what is wrong with it is the end. -/
theorem fallsBack_twoFiles :
    Unnamed none twoFiles ∧ (∀ a ∈ twoFiles.attempts true, a.IsPlain) ∧
      FallsBack none true twoFiles ∧ twoFiles.Stuck true :=
  ⟨twoFiles_unnamed, twoFiles_plain, fallsBack none true twoFiles twoFiles_unnamed twoFiles_plain,
    by decide, by decide⟩

/-- Not every source is reached: the second file would load, and is not tried. -/
theorem not_always_reached :
    ¬∀ (path : Option String) (inCluster : Bool) (s : Sources), Unnamed path s →
      (∀ a ∈ s.attempts inCluster, a.IsPlain) → ReachesAll path inCluster s := by
  intro all
  have meant := all none true twoFiles twoFiles_unnamed twoFiles_plain
  have returned : (load (.ofText? none) true twoFiles).result = .ok () :=
    meant.returned.mpr (by decide)
  have escaped : (load (.ofText? none) true twoFiles).result =
      .error (.fault (.credentials "No context.")) := rfl
  rw [escaped] at returned
  cases returned

end Credentials

end BudgetReaper
