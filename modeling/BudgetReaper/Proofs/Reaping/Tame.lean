import BudgetReaper.Proofs.Action.Break
import BudgetReaper.Proofs.Reaping.Course
import BudgetReaper.Proofs.Reaping.Pairing

/-!
# Reaping — tame sessions

A session is *tame* when its calls fail by a rejection or a break of the transport only
(`Plan.Remote`), and when its sink, if there is one, refuses a sample by a failure to record it
(`Sink.Lenient`).  Unlike a mild session it need not have a sink.

A run stays in tame sessions (`Replayed.tame`), and in them a signal about a budget that has
metadata goes through, whether or not it is refused: it breaks nothing off (`breaks_flag`,
`breaks_lower`).
-/

namespace BudgetReaper

/-- Calls fail by a rejection or a break of the transport only. -/
def Plan.Remote (p : Plan) : Prop :=
  ∀ call n, ∀ f ∈ p call n, f.isRemote = true

theorem Plan.remote_faultless : Plan.Remote Cluster.faultless :=
  fun _ _ _ h => nomatch h

/-- What the sink refuses of zeros and ones it refuses as a failure to record. -/
def Sink.Lenient (k : Sink) : Prop :=
  ∀ offered sample, sample.value = .int 0 ∨ sample.value = .int 1 →
    ∀ f ∈ ((k.after offered).record sample).2, f.isMetrics = true

namespace Sink

theorem Mild.lenient {k : Sink} (h : k.Mild) : k.Lenient :=
  h.refusal

/-- Where there is no sink nothing is refused. -/
theorem lenient_absent : absent.Lenient := by
  intro offered
  have gone : absent.after offered = absent := by
    induction offered with
    | nil => rfl
    | cons _ _ ih => exact ih
  rw [gone]
  intro _ _ f hf
  cases hf

theorem Lenient.after {k : Sink} (h : k.Lenient) (offered : List Sample) :
    (k.after offered).Lenient := by
  intro later
  rw [← after_append]
  exact h (offered ++ later)

end Sink

/-- Calls fail as planned by `p`, samples go anywhere or they do not, and the sink is lenient. -/
structure Session.Tame (p : Plan) (equipped : Bool) (s : Session) : Prop where
  plan : s.cluster.plan = p
  present : s.sink.isPresent = equipped
  sink : s.sink.Lenient

/-- A tame session stays tame. -/
theorem Replayed.tame {s t : Session} {l : List Effect} {p : Plan} {equipped : Bool}
    (h : Replayed s l t) (tame : s.Tame p equipped) : t.Tame p equipped where
  plan := by rw [h.cluster, Cluster.plan_after, tame.plan]
  present := by rw [h.sink, Sink.isPresent_after, tame.present]
  sink := h.sink ▸ tame.sink.after _

namespace Pass

open BudgetReaper.Action

theorem lenient_emptyRegistry : emptyRegistry.Lenient :=
  (Sink.mild_registry {} none Sink.defaultJob).lenient

theorem remote_rejectingEvents {p : Plan} (remote : p.Remote) : (rejectingEvents p).Remote := by
  intro call n f h
  rw [rejectingEvents] at h
  split at h
  · obtain rfl := Option.some.inj h
    rfl
  · exact remote call n f h

variable {p : Plan} {equipped : Bool} {v : Evidence × Ledger} {b : Budget} {reason : Reason}
  {D : Failure → List Effect → Evidence × Ledger → Prop}

/-- What follows a script in sessions with a sink, or without one, follows it in tame ones. -/
theorem follows_of_replayed {α : Type} {a : Pass α} {script : List Effect}
    (follows : Follows Session.findings (Session.Equipped equipped) a v script)
    (replayed : Obeys Replayed a) :
    Follows Session.findings (Session.Tame p equipped) a v script := by
  intro s hs tame
  obtain ⟨-, acts, whole⟩ := follows s hs tame.present
  exact ⟨(replayed s).tame tame, acts, whole⟩

/-! ### Signals in tame sessions -/

theorem announce_of_tame (remote : p.Remote) {m : Metadata} (hm : b.metadata = some m)
    {s : Session} (tame : s.Tame p equipped) : (announce b reason s).result = .ok () := by
  refine announce_of_refusable hm fun f hf => ?_
  rw [Cluster.planned, Cluster.count, tame.plan] at hf
  exact remote _ _ f hf

theorem tally_of_tame {m : Metadata} (hm : b.metadata = some m) {value : Value}
    (hv : value = .int 0 ∨ value = .int 1) {s : Session} (tame : s.Tame p equipped) :
    (tally b reason value s).result = .ok () := by
  cases hp : s.sink.isPresent with
  | false => rw [tally_absent hp]
  | true => exact tally_of_refusable hm hp (tame.sink [] (sampleOf m reason value) hv)

/-- In a tame session the signal of a budget with metadata goes through as a whole. -/
theorem signal_of_tame (remote : p.Remote) {m : Metadata} (hm : b.metadata = some m) {s : Session}
    (tame : s.Tame p equipped) (change : Ledger → Ledger) :
    (signal b reason change s).result = .ok () := by
  have tame' := (replayed_announce b reason s).tame tame
  rw [signal, bind_of_ok (announce_of_tame remote hm tame), post, update_bind]
  exact tally_of_tame hm (Or.inr rfl) ⟨tame'.plan, tame'.present, tame'.sink⟩

/-- The budget has no metadata, and the failure is not one that the program knows as its own. -/
def Unnamed (b : Budget) (f : Failure) : Prop :=
  b.metadata = none ∧ f.isReported = false

/-- A value is recorded unless its budget has no metadata. -/
theorem breaks_tally {value : Value} (hv : value = .int 0 ∨ value = .int 1)
    (bare : ∀ f l w, Unnamed b f → D f l w) :
    Breaks Session.findings (Session.Tame p equipped) (tally b reason value) v D := by
  cases hm : b.metadata with
  | some m => exact .of_ok fun s _ tame => ⟨(), tally_of_tame hm hv tame⟩
  | none =>
      intro s _ _ f hf
      cases hp : s.sink.isPresent with
      | false =>
          rw [tally_absent hp] at hf
          cases hf
      | true =>
          rw [tally_unnamed hp hm] at hf
          obtain rfl := Except.error.inj hf
          exact bare _ _ _ ⟨hm, rfl⟩

theorem breaks_lower (bare : ∀ f l w, Unnamed b f → D f l w) :
    Breaks Session.findings (Session.Tame p equipped) (lower b reason) v D :=
  breaks_tally (Or.inl rfl) bare

/-- A mark is signalled unless its budget has no metadata. -/
theorem breaks_flag (remote : p.Remote) (bare : ∀ f l w, Unnamed b f → D f l w) :
    Breaks Session.findings (Session.Tame p equipped)
      (announce b reason >>= fun _ => raise b reason) v D := by
  have flag : (announce b reason >>= fun _ => raise b reason) = signal b reason id := rfl
  rw [flag]
  cases hm : b.metadata with
  | some m => exact .of_ok fun s _ tame => ⟨(), signal_of_tame remote hm tame id⟩
  | none =>
      intro s _ _ f hf
      rw [signal_unnamed hm] at hf
      obtain rfl := Except.error.inj hf
      exact bare _ _ _ ⟨hm, rfl⟩

theorem breaks_mark (bare : ∀ f l w, Unnamed b f → D f l w) :
    Breaks Session.findings (Session.Tame p equipped) (mark b) v D := by
  unfold mark metadataOf
  cases hm : b.metadata with
  | some m =>
      rw [done_bind]
      exact .update _
  | none =>
      rw [fail_bind]
      exact .fail (bare _ _ _ ⟨hm, rfl⟩)

end Pass

end BudgetReaper
