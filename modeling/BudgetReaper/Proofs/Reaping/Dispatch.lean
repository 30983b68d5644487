import BudgetReaper.Proofs.Reaping.Agreement
import BudgetReaper.Proofs.Reaping.Delivery
import BudgetReaper.Proofs.Text.Trimming

/-!
# Reaping — one push, at the end, of everything

A gateway has an address if its text holds more than slashes (`address?_eq_none_iff`), and the address
is that text without the slashes at its end (`address?_eq_some_iff`).

**Dispatch** (`dispatched`).  However a run ends, and whatever the gateway answers, its delivery makes
one push if the gateway has an address and none otherwise.  Nothing follows the push but what is told of
it: all calls and all samples of the run have come before.  What is pushed is the exposition of the
registry that the samples have led to, and that holds for each label set the last sample under it.
-/

namespace BudgetReaper

/-! ### Addresses -/

namespace Gateway

/-- The value is a text of more than slashes. -/
def IsNamed (url : Value) : Prop :=
  ∃ text : String, url = .str text ∧ ∃ c ∈ text.toList, c ≠ '/'

/-- An address is what is left of a text without the slashes at its end, if something is left. -/
theorem address?_eq_some_iff {url address : String} :
    address? url = some address ↔
      ∃ slashes, url.toList = address.toList ++ slashes ∧ (∀ c ∈ slashes, c = '/') ∧
        ∃ some_left : address.toList ≠ [], address.toList.getLast some_left ≠ '/' := by
  have left : address? url = some address ↔
      Text.trimRight (· == '/') url.toList = address.toList ∧ address.toList ≠ [] := by
    rw [address?]
    cases Text.trimRight (· == '/') url.toList with
    | nil => exact ⟨nofun, fun ⟨h, some_left⟩ => absurd h.symm some_left⟩
    | cons c rest =>
        rw [Option.some_inj, ← String.toList_inj, String.toList_ofList]
        exact ⟨fun h => ⟨h, h ▸ List.cons_ne_nil c rest⟩, And.left⟩
  rw [left, Text.trimRight_eq_iff]
  simp only [beq_iff_eq]
  constructor
  · rintro ⟨⟨slashes, split, all, ends⟩, some_left⟩
    exact ⟨slashes, split, all, some_left, ends some_left⟩
  · rintro ⟨slashes, split, all, some_left, ends⟩
    exact ⟨⟨slashes, split, all, fun _ => ends⟩, some_left⟩

/-- Nothing is left of a text of slashes only. -/
theorem address?_eq_none_iff {url : String} : address? url = none ↔ ∀ c ∈ url.toList, c = '/' := by
  have left : address? url = none ↔ Text.trimRight (· == '/') url.toList = [] := by
    rw [address?]
    cases Text.trimRight (· == '/') url.toList <;> simp
  rw [left, Text.trimRight_eq_iff]
  simp

/-- Only a text gives an address. -/
theorem eq_of_addressOf {url : Value} {address : String} (h : addressOf url = .ok (some address)) :
    ∃ text, url = .str text ∧ address? text = some address := by
  unfold addressOf at h
  split at h
  · next text => exact ⟨text, rfl, Except.ok.inj h⟩
  · split at h <;> cases h

/-- A value gives an address exactly if it is a text of more than slashes. -/
theorem isNamed_iff {url : Value} {address : Option String} (h : addressOf url = .ok address) :
    IsNamed url ↔ ∃ a, address = some a := by
  constructor
  · rintro ⟨text, rfl, c, hc, other⟩
    rw [addressOf] at h
    cases Except.ok.inj h
    refine Option.ne_none_iff_exists'.mp fun none_left => other ?_
    exact address?_eq_none_iff.mp none_left c hc
  · rintro ⟨a, rfl⟩
    obtain ⟨text, rfl, known⟩ := eq_of_addressOf h
    refine ⟨text, rfl, ?_⟩
    by_contra all
    push Not at all
    rw [address?_eq_none_iff.mpr all] at known
    cases known

end Gateway

namespace Pass

open BudgetReaper.Action

/-- What a run and its delivery hand over to a gateway at `url`. -/
structure Dispatched (s : Session) (r : Registry) (url : Value) (job : String) : Prop where
  /-- One push if there is an address, none otherwise. -/
  once : Gateway.IsNamed url → (runAndDeliver s).pushes.length = 1
  never : ¬ Gateway.IsNamed url → (runAndDeliver s).pushes = []
  /-- Nothing follows a push but notices. -/
  last : ∀ before p after, (runAndDeliver s).trace = before ++ .push p :: after →
    ∀ e ∈ after, ∃ n, e = .notice n
  /-- A push is of all that the samples of the run have led to, under the address of the gateway. -/
  whole : ∀ p ∈ (runAndDeliver s).pushes, ∃ text address, url = .str text ∧
    Gateway.address? text = some address ∧ p.url = Gateway.target address job ∧
      p.body = Exposition.text (r.collect (runAndDeliver s).samples)
  /-- Under each label set the last sample is held, and where there is none what was held before. -/
  held : ∀ labels, (r.collect (runAndDeliver s).samples).value? Exposition.resultName labels =
    (((runAndDeliver s).samples.reverse.find? (·.labels = labels)).map Sample.amount).or
      (r.value? Exposition.resultName labels)
  /-- The other gauges are what they were. -/
  others : ∀ name, Exposition.resultName ≠ name →
    (r.collect (runAndDeliver s).samples).samples name = r.samples name
  /-- A registry that was empty holds nothing but the samples of the run. -/
  fresh : r = {} → (r.collect (runAndDeliver s).samples).gauges =
    if (runAndDeliver s).samples = [] then []
    else [(Exposition.resultName, Assoc.ofList ((runAndDeliver s).samples.map Sample.entry))]

/-- A delivery is told of behind the push that it makes, if it makes one. -/
theorem trace_runAndDeliver {s : Session} {r : Registry} {address : Option String} {job : String}
    (start : s.sink = .registry r address job) :
    ∃ told, (∀ e ∈ told, ∃ n, e = .notice n) ∧
      (runAndDeliver s).trace = (execute s).trace ++
        (((r.collect (execute s).samples).parcel? address job).toList.map .push ++ told) := by
  have reached := registry_execute start
  rw [runAndDeliver_apply]
  cases address with
  | none =>
      rw [deliver_of_alone reached]
      exact ⟨[.notice .noGateway], by simp, rfl⟩
  | some address =>
      rw [deliver_of_gateway reached]
      exact ⟨_, Gateway.Delivery.told_notices, rfl⟩

/-- Between a trace without pushes and notices there is one push at most, and behind it are the
notices. -/
theorem eq_of_push_split {t told before after : List Effect} {parcel : Option Push} {p : Push}
    (silent : t.filterMap Effect.push? = []) (only : ∀ e ∈ told, ∃ n, e = .notice n)
    (split : t ++ (parcel.toList.map .push ++ told) = before ++ .push p :: after) :
    after = told := by
  have unsent : .push p ∉ t := fun h => nomatch List.filterMap_eq_nil_iff.mp silent _ h
  have untold : .push p ∉ told := fun h => nomatch only _ h
  cases parcel with
  | none =>
      have sent : .push p ∈ t ++ told := split ▸ List.mem_append_right _ List.mem_cons_self
      exact absurd sent (by simp [unsent, untold])
  | some q => exact ((List.append_cons_inj_of_notMem unsent untold).mp split).2.2.symm

/-- One push, after all else, of all the samples of a run, each with its last value. -/
theorem dispatched {s : Session} {r : Registry} {url : Value} {address : Option String}
    {job : String} (start : s.sink = .registry r address job)
    (configured : Gateway.addressOf url = .ok address) : Dispatched s r url job := by
  obtain ⟨told, only, trace⟩ := trace_runAndDeliver start
  have seen {β : Type} {view : Effect → Option β} (hidden : ∀ n, view (.notice n) = none) :
      (runAndDeliver s).trace.filterMap view = (execute s).trace.filterMap view ++
        ((r.collect (execute s).samples).parcel? address job).toList.filterMap (view ∘ .push) := by
    rw [trace, List.filterMap_append, List.filterMap_append, Effect.filterMap_notices hidden only,
      List.append_nil, List.filterMap_map]
  have pushes : (runAndDeliver s).pushes =
      ((r.collect (execute s).samples).parcel? address job).toList := by
    rw [Outcome.pushes, seen fun _ => rfl, ← Outcome.pushes, pushes_execute]
    cases address <;> rfl
  have samples : (runAndDeliver s).samples = (execute s).samples := by
    rw [Outcome.samples, seen fun _ => rfl]
    cases address <;> exact List.append_nil _
  have binary : ∀ x ∈ (execute s).samples, x.value = .int 0 ∨ x.value = .int 1 :=
    fun _ => binary_of_mem_samples
  refine ⟨fun named => ?_, fun unnamed => ?_, fun before p after split => ?_, fun p hp => ?_,
    fun labels => ?_, fun name other => ?_, ?_⟩
  · obtain ⟨a, rfl⟩ := (Gateway.isNamed_iff configured).mp named
    rw [pushes]
    rfl
  · cases address with
    | none => rw [pushes]; rfl
    | some a => exact absurd ((Gateway.isNamed_iff configured).mpr ⟨a, rfl⟩) unnamed
  · rw [trace] at split
    rw [eq_of_push_split (pushes_execute s) only split]
    exact only
  · rw [pushes] at hp
    cases address with
    | none => cases hp
    | some a =>
        obtain rfl := List.mem_singleton.mp hp
        obtain ⟨text, rfl, known⟩ := Gateway.eq_of_addressOf configured
        rw [samples]
        exact ⟨text, a, rfl, known, rfl, rfl⟩
  · rw [samples, Registry.value?_collect_last r binary]
  · rw [samples, Registry.samples_collect_of_ne r binary other]
  · rintro rfl
    rw [samples, Registry.collect_fresh binary]

/-- The shop with a gateway that cannot be reached, where the first deletion breaks off the run. -/
def tornShop : Session :=
  { shop (failingDeletion 1 (.runtime "torn"))
      (.registry {} (some "http://gateway:9091") Sink.defaultJob) with
    answers := [.broken "no route to host"] }

/-- A run that breaks off is dispatched as any other. -/
theorem dispatched_tornShop :
    tornShop.sink = .registry {} (some "http://gateway:9091") Sink.defaultJob ∧
      Gateway.addressOf (.str "http://gateway:9091//") = .ok (some "http://gateway:9091") ∧
      (runAndDeliver tornShop).result = .error (.fault (.runtime "torn")) ∧
      (runAndDeliver tornShop).pushes.length = 1 ∧
      Dispatched tornShop {} (.str "http://gateway:9091//") Sink.defaultJob :=
  ⟨rfl, by rfl, by rfl, by rfl, dispatched rfl (by rfl)⟩

end Pass

end BudgetReaper
