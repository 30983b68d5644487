import BudgetReaper.Action

/-!
# Credentials — the sources and their order

Credentials come from a file that is named, or else from the first source that loads: the account
inside the cluster, the default location, the first of the default files that exists.  A refusal of
the account or of the default location is passed over; any other failure ends the attempt.
-/

namespace BudgetReaper

/-- What the sources hold and how each attempt to load one will end. -/
structure Sources where
  /-- The file named by a variable. -/
  named : Option String
  /-- The files that exist. -/
  existing : List String
  /-- The files that are tried last. -/
  defaults : List String
  /-- How an attempt to use the account ends. -/
  account : Option Fault
  /-- How the attempts to load a file end, in order; all later ones succeed. -/
  files : List (Option Fault)
  deriving DecidableEq, Repr, Inhabited

namespace Credentials

open BudgetReaper.Action

/-- The files that are tried last, with the home directory given. -/
def defaultPaths (home : String) : List String :=
  [home ++ "/.kube/config", "/etc/kubernetes/admin.conf", "/etc/rancher/k3s/k3s.yaml"]

/-- An attempt to use the account. -/
def loadAccount : Action Sources (Except Fault Unit) := do
  emit (.load .account)
  let s ← state
  match s.account with
  | none => return .ok ()
  | some f => return .error f

/-- An attempt to load a file, the default one if none is named. -/
def loadFile (path : Option String) : Action Sources (Except Fault Unit) := do
  emit (.load (.file path))
  let s ← state
  update fun s => { s with files := s.files.drop 1 }
  match s.files with
  | some f :: _ => return .error f
  | _ => return .ok ()

/-- Loads a file that exists; a failure ends the attempt. -/
def useFile (path : String) : Action Sources Unit := do
  say (.credentialsFile path)
  match ← loadFile (some path) with
  | .ok () => return ()
  | .error f => fail (.fault f)

/-- Whether the account can be used; only unusable credentials are passed over. -/
def useAccount : Action Sources Bool := do
  match ← loadAccount with
  | .ok () =>
    say .accountCredentials
    return true
  | .error (.credentials _) =>
    say .noAccount
    return false
  | .error f => fail (.fault f)

/-- Whether the default location can be used; unusable credentials and failures of the operating
system are passed over. -/
def useDefault : Action Sources Bool := do
  match ← loadFile none with
  | .ok () =>
    say .defaultCredentials
    return true
  | .error (.credentials _) | .error (.system _) => return false
  | .error f => fail (.fault f)

/-- The file that is named and exists: the one given, else the one of the variable. -/
def namedFile? (path : Value) (s : Sources) : Option String :=
  let given := if path.holds then path else .ofText? s.named
  match given with
  | .str file => if file != "" && s.existing.contains file then some file else none
  | _ => none

/-- Loads credentials. -/
def load (path : Value) (inCluster : Bool) : Action Sources Unit := do
  let s ← state
  match namedFile? path s with
  | some file => useFile file
  | none =>
    if inCluster then
      if ← useAccount then return ()
    if ← useDefault then return ()
    match s.defaults.find? s.existing.contains with
    | some file => useFile file
    | none => fail .noCredentials

end Credentials

end BudgetReaper
