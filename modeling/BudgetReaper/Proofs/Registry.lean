import Mathlib.Data.List.Induction
import BudgetReaper.Gauge.Exposition
import BudgetReaper.Session

/-!
# Gauges — samples collected in a registry

Samples that are offered to a registry one after the other (`Registry.collect`) are kept by their
labels, and only the last of a label set stays: a sample under other labels changes nothing
(`value?_set_of_ne`), and so such samples may as well be left out (`value?_collect_filter`).

**Kept** (`samples_collect`).  Samples that are zeros and ones are put under their labels one after the
other.  So what is held under labels is the last sample under them (`value?_collect_last`), and what an
empty registry holds in the end is the map of the samples offered (`collect_fresh`).

**Raised** (`value?_collect`).  Where the samples are zeros and ones, and none lowers what one before
it has raised, a label set is one in the end exactly if a sample has raised it, unless it was one
before all of them.
-/

namespace BudgetReaper

/-! ### Entries put one after the other -/

namespace Assoc

variable {κ α : Type} [DecidableEq κ]

/-- Of two changes of what a key holds, the second finds what the first has left. -/
theorem alter_alter (m : List (κ × α)) (k : κ) (f g : Option α → α) :
    alter (alter m k f) k g = alter m k fun held => g (some (f held)) := by
  induction m with
  | nil => simp [alter]
  | cons e rest ih =>
      obtain ⟨k', v⟩ := e
      by_cases same : k' = k
      · simp [alter, same]
      · simp [alter, same, ih]

/-- The last entry of a key is what the key holds in the end. -/
theorem get?_foldl_put (entries m : List (κ × α)) (k : κ) :
    get? (entries.foldl (fun m e => put m e.1 e.2) m) k =
      ((entries.reverse.find? (·.1 = k)).map Prod.snd).or (get? m k) := by
  -- the last entry decides, so the induction takes it off
  induction entries using List.reverseRecOn with
  | nil => rfl
  | append_singleton entries last ih =>
      rw [List.foldl_append, List.foldl_cons, List.foldl_nil, get?_put, List.reverse_append,
        List.reverse_singleton, List.singleton_append]
      by_cases same : last.1 = k
      · rw [if_pos same, List.find?_cons_of_pos (by simpa using same)]
        rfl
      · rw [if_neg same, List.find?_cons_of_neg (by simpa using same), ih]

end Assoc

namespace Sample

/-- The labels under which a registry keeps a sample. -/
def labels (x : Sample) : Labels :=
  ⟨(Value.ofText? x.key.1).plain, (Value.ofText? x.key.2).plain, x.reason.text⟩

/-- The double as which a registry keeps a sample. -/
def amount (x : Sample) : Binary64 :=
  (Registry.toDouble x.value).toOption.getD Registry.zero

/-- A sample as an entry of a gauge. -/
def entry (x : Sample) : Labels × Binary64 :=
  (x.labels, x.amount)

end Sample

namespace Registry

theorem labelsOf_tags (x : Sample) : labelsOf x.tags = .ok x.labels :=
  rfl

theorem toDouble_zero : toDouble (.int 0) = .ok (.ofInt 0) :=
  rfl

theorem toDouble_one : toDouble (.int 1) = .ok (.ofInt 1) :=
  rfl

/-- What is recorded under other labels, or not at all, leaves a sample alone. -/
theorem value?_set_of_ne {r : Registry} {name : String} {tags : List (String × Value)} {v : Value}
    {labels : Labels} (h : labelsOf tags ≠ .ok labels) :
    (r.set name tags v).1.value? name labels = r.value? name labels := by
  unfold set value?
  split
  · rfl
  · cases ht : labelsOf tags with
    | error f => exact congrArg (Assoc.get? · labels) (samples_register r name name)
    | ok other =>
        have apart : other ≠ labels := fun same => h (same ▸ ht)
        cases toDouble v with
        | error f =>
            simp [samples_touch, samples_register, Assoc.putNew, Assoc.get?_alter, apart]
        | ok x =>
            simp [samples_assign, samples_touch, samples_register, Assoc.put, Assoc.putNew,
              Assoc.get?_alter, apart]

/-- The registry after samples of the reaper's gauge. -/
def collect (r : Registry) (offered : List Sample) : Registry :=
  offered.foldl (fun r x => (r.set Exposition.resultName x.tags x.value).1) r

theorem collect_concat (r : Registry) (offered : List Sample) (x : Sample) :
    r.collect (offered ++ [x]) =
      ((r.collect offered).set Exposition.resultName x.tags x.value).1 := by
  rw [collect, List.foldl_append]
  rfl

/-- The last sample of its labels is the value that is held. -/
theorem value?_collect_concat_self (r : Registry) (offered : List Sample) {x : Sample}
    {held : Binary64} (h : toDouble x.value = .ok held) :
    (r.collect (offered ++ [x])).value? Exposition.resultName x.labels = some held := by
  rw [collect_concat]
  exact value?_set (by decide) (labelsOf_tags x) h

theorem value?_collect_concat_of_ne (r : Registry) (offered : List Sample) {x : Sample}
    {labels : Labels} (h : x.labels ≠ labels) :
    (r.collect (offered ++ [x])).value? Exposition.resultName labels =
      (r.collect offered).value? Exposition.resultName labels := by
  rw [collect_concat]
  refine value?_set_of_ne fun same => h ?_
  rw [labelsOf_tags] at same
  exact Except.ok.inj same

theorem toDouble_of_binary {v : Value} (h : v = .int 0 ∨ v = .int 1) :
    ∃ held, toDouble v = .ok held := by
  rcases h with rfl | rfl
  · exact ⟨_, toDouble_zero⟩
  · exact ⟨_, toDouble_one⟩

/-- What is held under labels in the end depends on the samples under these labels only. -/
theorem value?_collect_filter {r : Registry} {offered : List Sample}
    (binary : ∀ x ∈ offered, x.value = .int 0 ∨ x.value = .int 1) (labels : Labels) :
    (r.collect offered).value? Exposition.resultName labels =
      (r.collect (offered.filter (·.labels = labels))).value? Exposition.resultName labels := by
  induction offered using List.reverseRecOn with
  | nil => rfl
  | append_singleton offered last ih =>
      have last_mem : last ∈ offered ++ [last] := List.mem_append_right _ (List.mem_singleton_self _)
      rw [List.filter_append]
      by_cases same : last.labels = labels
      · obtain ⟨held, known⟩ := toDouble_of_binary (binary last last_mem)
        have kept : [last].filter (·.labels = labels) = [last] :=
          List.filter_cons_of_pos (decide_eq_true same)
        rw [kept, ← same, value?_collect_concat_self r _ known, value?_collect_concat_self r _ known]
      · have dropped : [last].filter (·.labels = labels) = [] :=
          List.filter_cons_of_neg (by simpa using same)
        rw [dropped, List.append_nil, value?_collect_concat_of_ne r offered same]
        exact ih fun x hx => binary x (List.mem_append_left _ hx)

/-! ### What is kept -/

/-- A zero or a one is put under its labels. -/
theorem set_of_binary (r : Registry) {x : Sample} (binary : x.value = .int 0 ∨ x.value = .int 1) :
    (r.set Exposition.resultName x.tags x.value).1 =
      { gauges := Assoc.put r.gauges Exposition.resultName
          (Assoc.put (r.samples Exposition.resultName) x.labels x.amount) } := by
  obtain ⟨held, known⟩ := toDouble_of_binary binary
  have own : x.amount = held := by rw [Sample.amount, known]; rfl
  have named : Exposition.resultName ≠ "" := by decide
  simp only [set, if_neg named, labelsOf_tags, known, own]
  -- the gauge and the sample are made first, and then filled
  simp only [assign, touch, register, samples, Assoc.put, Assoc.putNew, Assoc.alter_alter,
    Assoc.get?_alter, if_true, Option.getD_some]

/-- Samples are put under their labels one after the other. -/
theorem samples_collect (r : Registry) {offered : List Sample}
    (binary : ∀ x ∈ offered, x.value = .int 0 ∨ x.value = .int 1) :
    (r.collect offered).samples Exposition.resultName =
      (offered.map Sample.entry).foldl (fun m e => Assoc.put m e.1 e.2)
        (r.samples Exposition.resultName) := by
  induction offered generalizing r with
  | nil => rfl
  | cons x rest ih =>
      have later := ih (r.set Exposition.resultName x.tags x.value).1
        fun y hy => binary y (List.mem_cons_of_mem _ hy)
      rw [set_of_binary r (binary x List.mem_cons_self)] at later
      rw [collect, List.foldl_cons, ← collect, set_of_binary r (binary x List.mem_cons_self), later]
      simp [samples, Assoc.get?_put, Sample.entry]

/-- Samples of the reaper's gauge leave the other gauges alone. -/
theorem samples_collect_of_ne (r : Registry) {offered : List Sample}
    (binary : ∀ x ∈ offered, x.value = .int 0 ∨ x.value = .int 1) {name : String}
    (other : Exposition.resultName ≠ name) :
    (r.collect offered).samples name = r.samples name := by
  induction offered generalizing r with
  | nil => rfl
  | cons x rest ih =>
      have later := ih (r.set Exposition.resultName x.tags x.value).1
        fun y hy => binary y (List.mem_cons_of_mem _ hy)
      rw [collect, List.foldl_cons, ← collect, later, set_of_binary r (binary x List.mem_cons_self)]
      simp [samples, Assoc.get?_put, other]

/-- What is held under labels in the end is the last sample under them, or else what was held
before. -/
theorem value?_collect_last (r : Registry) {offered : List Sample}
    (binary : ∀ x ∈ offered, x.value = .int 0 ∨ x.value = .int 1) (labels : Labels) :
    (r.collect offered).value? Exposition.resultName labels =
      ((offered.reverse.find? (·.labels = labels)).map Sample.amount).or
        (r.value? Exposition.resultName labels) := by
  rw [value?, samples_collect r binary, Assoc.get?_foldl_put, ← List.map_reverse, List.find?_map,
    Option.map_map]
  rfl

/-- An empty registry holds in the end the samples offered, each label set in its first place with its
last value. -/
theorem collect_fresh {offered : List Sample}
    (binary : ∀ x ∈ offered, x.value = .int 0 ∨ x.value = .int 1) :
    ({} : Registry).collect offered =
      { gauges := if offered = [] then []
          else [(Exposition.resultName, Assoc.ofList (offered.map Sample.entry))] } := by
  induction offered using List.reverseRecOn with
  | nil => rfl
  | append_singleton offered last ih =>
      have binary' : ∀ x ∈ offered, x.value = .int 0 ∨ x.value = .int 1 :=
        fun x hx => binary x (List.mem_append_left _ hx)
      have last_binary := binary last (List.mem_append_right _ (List.mem_singleton_self _))
      have held : (({} : Registry).collect offered).samples Exposition.resultName =
          Assoc.ofList (offered.map Sample.entry) := samples_collect {} binary'
      have more : offered ++ [last] ≠ [] := by simp
      rw [collect_concat, set_of_binary _ last_binary, held, ih binary', if_neg more, List.map_append,
        Assoc.ofList, Assoc.ofList, List.foldl_append]
      split
      · rfl
      · simp [Assoc.put, Assoc.alter, Sample.entry]

/-! ### What is raised -/

/-- A later sample does not lower what an earlier one of the same labels has raised. -/
def Lasting (earlier later : Sample) : Prop :=
  earlier.labels = later.labels → earlier.value = .int 1 → later.value ≠ .int 0

/-- Of samples that last, a label set is one in the end exactly if one of them has raised it. -/
theorem value?_collect {r : Registry} {offered : List Sample} {labels : Labels}
    (binary : ∀ x ∈ offered, x.value = .int 0 ∨ x.value = .int 1)
    (lasting : offered.Pairwise Lasting)
    (before : r.value? Exposition.resultName labels ≠ some (.ofInt 1)) :
    (r.collect offered).value? Exposition.resultName labels = some (.ofInt 1) ↔
      ∃ x ∈ offered, x.labels = labels ∧ x.value = .int 1 := by
  -- the last sample decides, so the induction takes it off
  induction offered using List.reverseRecOn with
  | nil => exact ⟨fun h => absurd h before, fun ⟨_, h, _⟩ => nomatch h⟩
  | append_singleton offered last ih =>
      have last_mem : last ∈ offered ++ [last] := List.mem_append_right _ (List.mem_singleton_self _)
      obtain ⟨lasting, -, kept⟩ := List.pairwise_append.mp lasting
      have earlier := ih (fun x hx => binary x (List.mem_append_left _ hx)) lasting
      by_cases same : last.labels = labels
      · subst same
        rcases binary last last_mem with lowered | raised
        · have zero : (.ofInt 0 : Binary64) ≠ .ofInt 1 := by decide +kernel
          rw [value?_collect_concat_self r offered (lowered ▸ toDouble_zero)]
          refine ⟨fun h => absurd (Option.some.inj h) zero, ?_⟩
          rintro ⟨x, hx, own, one⟩
          rcases List.mem_append.mp hx with hx | hx
          · exact absurd lowered (kept x hx last (List.mem_singleton_self _) own one)
          · obtain rfl := List.mem_singleton.mp hx
            rw [lowered] at one
            cases one
        · rw [value?_collect_concat_self r offered (raised ▸ toDouble_one)]
          exact ⟨fun _ => ⟨last, last_mem, rfl, raised⟩, fun _ => rfl⟩
      · rw [value?_collect_concat_of_ne r offered same, earlier]
        constructor
        · rintro ⟨x, hx, own, one⟩
          exact ⟨x, List.mem_append_left _ hx, own, one⟩
        · rintro ⟨x, hx, own, one⟩
          rcases List.mem_append.mp hx with hx | hx
          · exact ⟨x, hx, own, one⟩
          · exact absurd (List.mem_singleton.mp hx ▸ own) same

end Registry

end BudgetReaper
