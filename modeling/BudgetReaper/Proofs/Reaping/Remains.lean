import BudgetReaper.Proofs.Reaping.Bookkeeping

/-!
# Reaping — what calls leave of a cluster

Where no deletion is planned to fail, a deletion takes the budgets of its key away, or there are none
(`answerToDelete_of_spares`).  So what calls leave of a cluster is told by the keys that they ask to
delete, whichever of them have been granted (`budgets_after`, `holds_after`).
-/

namespace BudgetReaper

/-- No deletion is planned to fail. -/
def Plan.Spares (p : Plan) : Prop :=
  ∀ key n, p (.delete key) n = none

theorem Plan.spares_faultless : Plan.Spares Cluster.faultless :=
  fun _ _ => rfl

namespace Cluster

/-- The keys that calls ask to delete. -/
def asked (calls : List Call) : List Key :=
  calls.filterMap fun call => (Effect.call call).deleted?

/-- A deletion takes the budgets of its key away, or finds none. -/
theorem answerToDelete_of_spares {c : Cluster} (named : c.isNamed = true) (spares : c.plan.Spares)
    (key : Key) :
    c.answerToDelete key =
      if c.holds key then .ok ((c.count (.delete key)).1.without key) else .error notFound := by
  have granted : c.planned (.delete key) = none := spares key _
  have named' : (c.count (.delete key)).1.isNamed = true := named
  rw [answerToDelete, granted, delete, named']
  rfl

theorem listings_serve (c : Cluster) (call : Call) : (c.serve call).1.listings = c.listings := by
  by_cases h : call.kind = .delete
  · cases call with
    | delete key =>
        rw [serve_delete]
        cases ha : c.answerToDelete key with
        | ok without => rw [answerToDelete_eq_ok ha]; rfl
        | error f => rfl
    | listAll | listIn _ | listPods _ _ | createEvent _ _ => cases h
  · rw [serve_of_ne_delete c h]
    rfl

theorem listings_after (c : Cluster) (calls : List Call) :
    (c.after calls).listings = c.listings := by
  induction calls generalizing c with
  | nil => rfl
  | cons call rest ih => exact (ih (c.serve call).1).trans (c.listings_serve call)

/-- A call takes the budgets of the key away that it asks to delete. -/
theorem budgets_serve {c : Cluster} (named : c.isNamed = true) (spares : c.plan.Spares)
    (call : Call) :
    (c.serve call).1.budgets = c.budgets.filter fun b => b.key? ∉ (asked [call]).map some := by
  by_cases h : call.kind = .delete
  · cases call with
    | delete key =>
        have other (b : Budget) : decide (b.key? ∉ (asked [.delete key]).map some) =
            (b.key? != some key) := by
          simp [asked, Effect.deleted?, bne, Bool.beq_eq_decide_eq]
        simp only [other]
        rw [serve_delete, answerToDelete_of_spares named spares]
        cases held : c.holds key with
        | true => rfl
        | false =>
            -- nothing is held under the key, so nothing is taken away
            refine (List.filter_eq_self.mpr fun b hb => ?_).symm
            have apart := List.any_eq_false.mp held b hb
            simpa [bne] using apart
    | listAll | listIn _ | listPods _ _ | createEvent _ _ => cases h
  · have none_asked : asked [call] = [] := by
      cases call with
      | delete key => exact absurd rfl h
      | listAll | listIn _ | listPods _ _ | createEvent _ _ => rfl
    rw [serve_of_ne_delete c h, none_asked]
    exact (List.filter_eq_self.mpr fun b _ => rfl).symm

/-- What is left are the budgets whose keys no call has asked to delete. -/
theorem budgets_after {c : Cluster} (named : c.isNamed = true) (spares : c.plan.Spares)
    (calls : List Call) :
    (c.after calls).budgets = c.budgets.filter fun b => b.key? ∉ (asked calls).map some := by
  induction calls generalizing c with
  | nil => exact (List.filter_eq_self.mpr fun b _ => rfl).symm
  | cons call rest ih =>
      have rest_left := ih (isNamed_serve named call) ((c.plan_serve call).symm ▸ spares)
      have split : asked (call :: rest) = asked [call] ++ asked rest :=
        List.filterMap_append (l := [call])
      change ((c.serve call).1.after rest).budgets = _
      rw [rest_left, budgets_serve named spares, List.filter_filter, split, List.map_append]
      refine List.filter_congr fun b _ => ?_
      simp only [List.mem_append, not_or, Bool.decide_and, Bool.and_comm]

/-- A key is held after calls if it was before and no call has asked to delete it. -/
theorem holds_after {c : Cluster} (named : c.isNamed = true) (spares : c.plan.Spares)
    (calls : List Call) (key : Key) :
    (c.after calls).holds key = true ↔ c.holds key = true ∧ key ∉ asked calls := by
  rw [holds, holds, budgets_after named spares, List.any_eq_true, List.any_eq_true]
  constructor
  · rintro ⟨b, hb, own⟩
    obtain ⟨hb, kept⟩ := List.mem_filter.mp hb
    refine ⟨⟨b, hb, own⟩, fun asked => of_decide_eq_true kept ?_⟩
    rw [eq_of_beq own]
    exact List.mem_map_of_mem asked
  · rintro ⟨⟨b, hb, own⟩, kept⟩
    refine ⟨b, List.mem_filter.mpr ⟨hb, decide_eq_true fun asked => kept ?_⟩, own⟩
    obtain ⟨key', asked, same⟩ := List.mem_map.mp asked
    rw [eq_of_beq own] at same
    exact Option.some.inj same ▸ asked

end Cluster

namespace Pass

open BudgetReaper.Action

/-- What is asked for in the calls of an outcome are its deletions. -/
theorem asked_calls {α : Type} (o : Outcome Session α) : Cluster.asked o.calls = o.deletions :=
  o.deletions_eq_calls.symm

end Pass

end BudgetReaper
