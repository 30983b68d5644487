import BudgetReaper.Proofs.Grouping
import BudgetReaper.Proofs.Registry

/-!
# Gauges — the history of a registry

Calls that set a gauge succeed or fail at one of three points: the name, the tags, the value.  A call
changes the map of gauges at its name, and there the map of samples at its labels, as far as it has
these (`gauges_follow`).  Both are changes of one kind, item by item at the key of the item
(`Assoc.revise`), and a map that has been so changed from nothing is known from the items alone: its
keys in order of first use, and at each what the items of that key make (`Assoc.foldl_revise`).

**Remembered** (`remembered`).  So a registry holds after any calls one gauge for each name, in order
of first use, in it one sample for each label set, in order of first use, and in that the last value
that could be converted, zero if none could.  A call that fails takes nothing away and changes no
sample that is there.
-/

namespace BudgetReaper

/-! ### Maps changed item by item -/

namespace Assoc

variable {κ α γ : Type} [DecidableEq κ]

/-- `m` with what the key of an item holds changed by `f`, from `d` if it held nothing; an item
without a key changes nothing. -/
def revise (key? : γ → Option κ) (f : γ → α → α) (d : α) (m : List (κ × α)) (c : γ) :
    List (κ × α) :=
  match key? c with
  | none => m
  | some k => alter m k fun held => f c (held.getD d)

/-- What a change finds is what the key gives. -/
theorem alter_get? (m : List (κ × α)) (k : κ) (f : Option α → α) :
    (alter m k fun _ => f (get? m k)) = alter m k f := by
  induction m with
  | nil => rfl
  | cons e rest ih =>
      obtain ⟨k', v⟩ := e
      by_cases hk : k' = k
      · simp [alter, get?, hk]
      · simp [alter, get?, hk, ih]

/-- Where each key holds what a function gives, one of them is changed. -/
theorem alter_map_of_mem {ks : List κ} (distinct : ks.Nodup) {k : κ} (h : k ∈ ks) (g : κ → α)
    (f : Option α → α) :
    alter (ks.map fun k => (k, g k)) k f =
      ks.map fun k' => (k', if k' = k then f (some (g k)) else g k') := by
  induction ks with
  | nil => cases h
  | cons k' rest ih =>
      obtain ⟨first, distinct⟩ := List.nodup_cons.mp distinct
      by_cases hk : k' = k
      · subst hk
        have apart (k : κ) (hk : k ∈ rest) : k ≠ k' := fun same => first (same ▸ hk)
        have others : (rest.map fun k => (k, g k)) =
            rest.map fun k => (k, if k = k' then f (some (g k')) else g k) :=
          List.map_congr_left fun k hk => by rw [if_neg (apart k hk)]
        simp [alter, others]
      · have later : k ∈ rest := (List.mem_cons.mp h).resolve_left fun same => hk same.symm
        simp [alter, hk, ih distinct later]

/-- What the items of a key make, one after the other. -/
def outcome (key? : γ → Option κ) (f : γ → α → α) (d : α) (cs : List γ) (k : κ) : α :=
  (cs.filter (key? · = some k)).foldl (fun x c => f c x) d

theorem outcome_concat (key? : γ → Option κ) (f : γ → α → α) (d : α) (cs : List γ) (c : γ) (k : κ) :
    outcome key? f d (cs ++ [c]) k =
      if key? c = some k then f c (outcome key? f d cs k) else outcome key? f d cs k := by
  rw [outcome, List.filter_append, List.foldl_append]
  by_cases own : key? c = some k <;> simp [outcome, own]

/-- Where no item has the key, nothing is made. -/
theorem outcome_of_not_mem {key? : γ → Option κ} {cs : List γ} {k : κ} (h : k ∉ cs.filterMap key?)
    (f : γ → α → α) (d : α) : outcome key? f d cs k = d := by
  have none_own : cs.filter (key? · = some k) = [] :=
    List.filter_eq_nil_iff.mpr fun c hc own =>
      h (List.mem_filterMap.mpr ⟨c, hc, of_decide_eq_true own⟩)
  rw [outcome, none_own, List.foldl_nil]

/-- After changes from nothing, the keys stand in order of first use, each with what its items make. -/
theorem foldl_revise (key? : γ → Option κ) (f : γ → α → α) (d : α) (cs : List γ) :
    cs.foldl (revise key? f d) [] =
      (cs.filterMap key?).eraseDups.map fun k => (k, outcome key? f d cs k) := by
  -- the last item decides at its key, so the induction takes it off
  induction cs using List.reverseRecOn with
  | nil => rfl
  | append_singleton cs c ih =>
      rw [List.foldl_append, List.foldl_cons, List.foldl_nil, ih, revise, List.filterMap_append]
      simp only [outcome_concat]
      cases hc : key? c with
      | none => simp [hc]
      | some k =>
          have own : [c].filterMap key? = [k] := by simp [hc]
          rw [own]
          dsimp only
          by_cases old : k ∈ cs.filterMap key?
          · rw [eraseDups_concat_of_mem old]
            refine (alter_map_of_mem (nodup_eraseDups _) (List.mem_eraseDups.mpr old) ..).trans
              (List.map_congr_left fun k' _ => ?_)
            by_cases same : k' = k
            · simp [same]
            · simp [same, Ne.symm same]
          · have new : k ∉ keys ((cs.filterMap key?).eraseDups.map fun k =>
                (k, outcome key? f d cs k)) := by
              simpa [keys] using old
            have others (k' : κ) (h : k' ∈ (cs.filterMap key?).eraseDups) : k ≠ k' :=
              fun same => old (same ▸ List.mem_eraseDups.mp h)
            rw [eraseDups_concat_of_not_mem old, alter_of_not_mem new, List.map_append]
            refine congrArg₂ _ (List.map_congr_left fun k' h => ?_) ?_
            · simp [others k' h]
            · simp [outcome_of_not_mem old]

end Assoc

/-! ### Calls -/

/-- A call that sets a gauge. -/
structure Recording where
  name : Value
  tags : List (String × Value)
  value : Value

namespace Recording

/-- The gauge that a call names: none if the name is empty or is no text. -/
def gauge? (c : Recording) : Option String :=
  match c.name with
  | .str s => if s = "" then none else some s
  | _ => none

/-- The labels of a call: none unless all three tags are there. -/
def labels? (c : Recording) : Option Labels :=
  match Assoc.get? c.tags "namespace", Assoc.get? c.tags "pdb", Assoc.get? c.tags "reason" with
  | some space, some budget, some reason => some ⟨space.plain, budget.plain, reason.plain⟩
  | _, _, _ => none

/-- The double of a call, if its value can be converted. -/
def double? (c : Recording) : Option Binary64 :=
  (Registry.toDouble c.value).toOption

/-- Two calls that differ in further tags at most. -/
structure Alike (c c' : Recording) : Prop where
  name : c.name = c'.name
  value : c.value = c'.value
  tags : ∀ label ∈ ["namespace", "pdb", "reason"], Assoc.get? c.tags label = Assoc.get? c'.tags label

/-- The last double among calls, zero if none has one. -/
def lastDouble (cs : List Recording) : Binary64 :=
  (cs.filterMap double?).getLast?.getD Registry.zero

namespace Alike

variable {c c' : Recording}

theorem gauge? (alike : c.Alike c') : c.gauge? = c'.gauge? := by
  rw [Recording.gauge?, alike.name, ← Recording.gauge?]

theorem labels? (alike : c.Alike c') : c.labels? = c'.labels? := by
  rw [Recording.labels?, alike.tags "namespace" (by simp), alike.tags "pdb" (by simp),
    alike.tags "reason" (by simp), ← Recording.labels?]

theorem double? (alike : c.Alike c') : c.double? = c'.double? := by
  rw [Recording.double?, alike.value, ← Recording.double?]

end Alike

/-- The samples that calls of one gauge make: for each label set, in order of first use, the last
double. -/
def samplesOf (cs : List Recording) : List (Labels × Binary64) :=
  (cs.filterMap labels?).eraseDups.map fun labels =>
    (labels, lastDouble (cs.filter (·.labels? = some labels)))

/-- The names of the gauges that calls make, in order of first use. -/
def gaugeNames (cs : List Recording) : List String :=
  (cs.filterMap gauge?).eraseDups

/-- The samples that calls make under a name. -/
def samplesUnder (cs : List Recording) (name : String) : List (Labels × Binary64) :=
  samplesOf (cs.filter (·.gauge? = some name))

/-- What a call makes of the samples of its gauge. -/
def into (c : Recording) (samples : List (Labels × Binary64)) : List (Labels × Binary64) :=
  Assoc.revise labels? (fun c x => c.double?.getD x) Registry.zero samples c

theorem labelsOf_toOption (c : Recording) : (Registry.labelsOf c.tags).toOption = c.labels? := by
  unfold Registry.labelsOf Registry.tag labels?
  cases Assoc.get? c.tags "namespace" <;> cases Assoc.get? c.tags "pdb" <;>
    cases Assoc.get? c.tags "reason" <;> rfl

/-- A double that has been set stays until another takes its place. -/
theorem foldl_double (cs : List Recording) :
    cs.foldl (fun x c => c.double?.getD x) Registry.zero = lastDouble cs := by
  induction cs using List.reverseRecOn with
  | nil => rfl
  | append_singleton cs c ih =>
      rw [List.foldl_append, List.foldl_cons, List.foldl_nil, ih, lastDouble, lastDouble,
        List.filterMap_append]
      cases hc : c.double? with
      | none => simp [hc]
      | some x => simp [hc]

theorem foldl_into (cs : List Recording) : cs.foldl (fun samples c => c.into samples) [] =
    samplesOf cs := by
  simp only [into, Assoc.foldl_revise, Assoc.outcome, foldl_double, samplesOf]

end Recording

namespace Registry

open Recording

/-- The registry after a call, and the failure to follow it. -/
def follow (r : Registry) (c : Recording) : Registry × Option Failure :=
  Sink.set r c.name c.tags c.value

/-- The registry after calls. -/
def followAll (r : Registry) (cs : List Recording) : Registry :=
  cs.foldl (fun r c => (r.follow c).1) r

/-! ### One call -/

/-- The ways in which a call can end, each with what it leaves. -/
inductive Followed (r : Registry) (c : Recording) : Registry × Option Failure → Prop where
  | unnamed (f : Failure) (named : c.gauge? = none) : Followed r c (r, some f)
  | untagged (f : Failure) {name : String} (named : c.gauge? = some name)
      (tagged : c.labels? = none) : Followed r c (r.register name, some f)
  | unconverted (f : Failure) {name : String} {labels : Labels} (named : c.gauge? = some name)
      (tagged : c.labels? = some labels) (converted : c.double? = none) :
      Followed r c ((r.register name).touch name labels, some f)
  | recorded {name : String} {labels : Labels} {x : Binary64} (named : c.gauge? = some name)
      (tagged : c.labels? = some labels) (converted : c.double? = some x) :
      Followed r c (((r.register name).touch name labels).assign name labels x, none)

theorem name_of_gauge? {c : Recording} {name : String} (h : c.gauge? = some name) :
    c.name = .str name ∧ name ≠ "" := by
  unfold gauge? at h
  split at h
  · next s named =>
      split at h
      · cases h
      · next filled =>
          obtain rfl := Option.some.inj h
          exact ⟨named, filled⟩
  · cases h

/-- A name that makes no gauge is found out before anything is changed. -/
theorem follow_of_unnamed (r : Registry) {c : Recording} (h : c.gauge? = none) :
    ∃ f, r.follow c = (r, some f) := by
  have none_named : (∃ f, nameOf c.name = .error f) ∨ nameOf c.name = .ok "" := by
    unfold gauge? at h
    split at h
    · next s named =>
        obtain rfl : s = "" := by
          by_contra filled
          rw [if_neg filled] at h
          cases h
        exact .inr (named ▸ rfl)
    · next named =>
        unfold nameOf
        split
        · next s text => exact absurd text (named s)
        · split
          · exact .inl ⟨_, rfl⟩
          · split
            · exact .inr rfl
            · exact .inl ⟨_, rfl⟩
  rcases none_named with ⟨f, refused⟩ | empty
  · exact ⟨_, by rw [follow, Sink.set, refused]; rfl⟩
  · exact ⟨_, by rw [follow, Sink.set, empty]; rfl⟩

theorem followed (r : Registry) (c : Recording) : Followed r c (r.follow c) := by
  cases named : c.gauge? with
  | none =>
      obtain ⟨f, left⟩ := follow_of_unnamed r named
      exact left ▸ .unnamed f named
  | some name =>
      obtain ⟨text, filled⟩ := name_of_gauge? named
      have left : r.follow c = ((r.set name c.tags c.value).1,
          (r.set name c.tags c.value).2.map (.sample name c.tags)) := by
        rw [follow, Sink.set, text]
        rfl
      rw [left, set, if_neg filled]
      have labels := labelsOf_toOption c
      cases tagged : labelsOf c.tags with
      | error f => exact .untagged _ named (by rw [← labels, tagged]; rfl)
      | ok ls =>
          have tagged : c.labels? = some ls := by rw [← labels, tagged]; rfl
          cases converted : toDouble c.value with
          | error f => exact .unconverted _ named tagged (by rw [double?, converted]; rfl)
          | ok x => exact .recorded named tagged (by rw [double?, converted]; rfl)

/-- A call changes the samples of the gauge that it names. -/
theorem gauges_follow (r : Registry) (c : Recording) :
    (r.follow c).1.gauges = Assoc.revise gauge? into [] r.gauges c := by
  have ended := followed r c
  generalize r.follow c = after at ended ⊢
  cases ended with
  | unnamed f named => simp [Assoc.revise, named]
  | untagged f named tagged => simp [Assoc.revise, into, named, tagged, register, Assoc.putNew]
  | unconverted f named tagged converted =>
      simp only [Assoc.revise, into, named, tagged, converted, touch, register, samples, Assoc.put,
        Assoc.putNew, Assoc.alter_alter, Assoc.get?_alter, if_true, Option.getD_some, Option.getD_none]
      exact Assoc.alter_get? r.gauges _ fun held => Assoc.alter (held.getD []) _ fun x => x.getD zero
  | recorded named tagged converted =>
      simp only [Assoc.revise, into, named, tagged, converted, assign, touch, register, samples,
        Assoc.put, Assoc.putNew, Assoc.alter_alter, Assoc.get?_alter, if_true, Option.getD_some]
      exact Assoc.alter_get? r.gauges _ fun held => Assoc.alter (held.getD []) _ fun _ => _

/-- A call succeeds exactly if it names a gauge, has all three tags and a value to convert. -/
theorem follow_succeeds_iff (r : Registry) (c : Recording) :
    (r.follow c).2 = none ↔ c.gauge?.isSome ∧ c.labels?.isSome ∧ c.double?.isSome := by
  have ended := followed r c
  generalize r.follow c = after at ended ⊢
  cases ended with
  | unnamed f named => simp [named]
  | untagged f named tagged => simp [tagged]
  | unconverted f named tagged converted => simp [converted]
  | recorded named tagged converted => simp [named, tagged, converted]

/-- A call that fails leaves every sample as it was. -/
theorem value?_follow_of_failed {r : Registry} {c : Recording} (failed : (r.follow c).2 ≠ none)
    {name : String} {labels : Labels} {x : Binary64} (held : r.value? name labels = some x) :
    (r.follow c).1.value? name labels = some x := by
  have ended := followed r c
  generalize r.follow c = after at ended failed ⊢
  cases ended with
  | unnamed f named => exact held
  | untagged f named tagged => rwa [value?, samples_register]
  | @unconverted f gauge tags named tagged converted =>
      rw [value?, samples_touch]
      split
      · next own =>
          -- a sample that is there is not made anew
          subst own
          rw [samples_register, Assoc.putNew, Assoc.get?_alter]
          split
          · next same =>
              rw [same]
              exact congrArg (fun held => some (held.getD zero)) held
          · exact held
      · rwa [samples_register]
  | recorded named tagged converted => exact absurd rfl failed

/-! ### Calls one after the other -/

theorem gauges_followAll (r : Registry) (cs : List Recording) :
    (r.followAll cs).gauges = cs.foldl (Assoc.revise gauge? into []) r.gauges := by
  induction cs generalizing r with
  | nil => rfl
  | cons c rest ih => exact (ih _).trans (congrArg (rest.foldl _ ·) (gauges_follow r c))

/-- Calls that differ in further tags at most change a registry alike. -/
theorem followAll_of_alike {cs cs' : List Recording} (alike : List.Forall₂ Alike cs cs')
    (r : Registry) : r.followAll cs = r.followAll cs' := by
  induction alike generalizing r with
  | nil => rfl
  | @cons c c' _ _ first _ ih =>
      have here : (r.follow c).1.gauges = (r.follow c').1.gauges := by
        rw [gauges_follow, gauges_follow]
        simp only [Assoc.revise, into, first.gauge?, first.labels?, first.double?]
      have same : (r.follow c).1 = (r.follow c').1 := congrArg Registry.mk here
      exact (congrArg (followAll · _) same).trans (ih _)

/-- What an empty registry holds after calls. -/
theorem gauges_followAll_empty (cs : List Recording) :
    (({} : Registry).followAll cs).gauges =
      (gaugeNames cs).map fun name => (name, samplesUnder cs name) := by
  rw [gauges_followAll, Assoc.foldl_revise]
  simp only [Assoc.outcome, foldl_into]
  rfl

/-- What a registry remembers of the calls it has followed since it was empty. -/
structure Remembers (r : Registry) (cs : List Recording) : Prop where
  /-- One gauge for each name, and in it one sample for each label set, at its last double. -/
  held : r.gauges = (gaugeNames cs).map fun name => (name, samplesUnder cs name)
  /-- The exposition shows these and nothing else. -/
  exposed (address : Option String) (job : String) :
    (Sink.registry r address job).exposition? =
      some (String.ofList ((gaugeNames cs).flatMap fun name =>
        Exposition.gaugeLines name (samplesUnder cs name)))
  /-- Further tags have had no influence. -/
  further (cs' : List Recording) (alike : List.Forall₂ Alike cs cs') :
    ({} : Registry).followAll cs' = r
  /-- The next call succeeds exactly if it names a gauge, has all three tags and a value that can be
  converted. -/
  succeeding (c : Recording) :
    (r.follow c).2 = none ↔ c.gauge?.isSome ∧ c.labels?.isSome ∧ c.double?.isSome
  /-- If it fails, each sample that is there stays, at the same double. -/
  failing (c : Recording) (failed : (r.follow c).2 ≠ none) {name : String} {labels : Labels}
    {x : Binary64} (held : r.value? name labels = some x) :
    (r.follow c).1.value? name labels = some x

/-- Three calls that fail, each at another point, and what each of them leaves. -/
example :
    let tags := [("namespace", .str "prod"), ("pdb", .str "web"), ("reason", .null)]
    (({} : Registry).followAll
      [⟨.str "", tags, .int 1⟩, ⟨.str "half", [], .int 1⟩, ⟨.str "full", tags, .null⟩]).gauges =
      [("half", []), ("full", [(⟨"prod", "web", "None"⟩, zero)])] := by
  decide +kernel

end Registry

end BudgetReaper
