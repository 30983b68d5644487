import BudgetReaper.Proofs.Reaping.Bookkeeping
import BudgetReaper.Proofs.Reaping.Halt

/-!
# Reaping — how a removal fails

In a tame session a removal fails in one of two ways (`refused_of_remove`): its deletion is refused,
otherwise than for finding nothing, and then it is the only act of the removal; or a part of a budget
is absent, of the one to remove or of one in the cluster, and then the failure is not one that the
program knows as its own.
-/

namespace BudgetReaper.Pass

open BudgetReaper.Action

/-- A deletion fails as planned, or because there is nothing to delete, or because a budget of the
cluster has no metadata. -/
theorem refusal_of_delete {c : Cluster} {key : Key} {f : Fault}
    (h : c.answerToDelete key = .error f) :
    c.planned (.delete key) = some f ∨ f = Cluster.notFound ∨
      f = Cluster.unnamed ∧ c.isNamed = false := by
  cases named : c.isNamed with
  | true =>
      exact (Cluster.answerToDelete_eq_error named h).imp_right Or.inl
  | false =>
      unfold Cluster.answerToDelete Cluster.delete at h
      split at h
      · next planned =>
          obtain rfl := Except.error.inj h
          exact Or.inl planned
      · have unnamed : (c.count (.delete key)).1.isNamed = false := named
        rw [unnamed] at h
        exact Or.inr (Or.inr ⟨(Except.error.inj h).symm, rfl⟩)

section Tame

variable {p : Plan} {equipped : Bool} {s : Session} {entry : Key × Budget} {f : Failure}

/-- In a tame session, what follows a deletion fails only for a budget without metadata. -/
theorem unnamed_of_settle (remote : p.Remote) (tame : s.Tame p equipped)
    (failed : (settle entry true s).result = .error f) : Unnamed entry.2 f := by
  rw [settle_granted, say_bind] at failed
  cases hm : entry.2.metadata with
  | none =>
      rw [signal_unnamed hm] at failed
      obtain rfl := Except.error.inj failed
      exact ⟨hm, rfl⟩
  | some m =>
      cases failed.symm.trans (signal_of_tame remote hm tame _)

/-- How a removal fails in a tame session. -/
theorem refused_of_remove (remote : p.Remote) (tame : s.Tame p equipped)
    (failed : (remove entry s).result = .error f) :
    (∃ fault, f = .call (.delete entry.1) fault ∧ fault.isNotFound = false ∧
        (remove entry s).trace.filter Effect.isAct = [.call (.delete entry.1)] ∧
        (remove entry s).state.ledger = s.ledger) ∨
      f.isReported = false ∧ (entry.2.metadata = none ∨ s.cluster.isNamed = false) := by
  cases hd : s.settings.dryRun.holds with
  | true =>
      rw [remove_of_dry hd] at failed
      cases failed
  | false =>
      rw [remove_of_wet hd] at failed ⊢
      cases ha : s.cluster.answerToDelete entry.1 with
      | ok without =>
          have deleted := deleteBudget_of_ok ha
          have tame' : Session.Tame p equipped { s with cluster := without } := by
            have replayed := replayed_deleteBudget entry.1 s
            rw [deleted] at replayed
            exact replayed.tame tame
          rw [bind_of_ok (x := true) (by rw [deleted]), deleted] at failed
          obtain ⟨bare, foreign⟩ := unnamed_of_settle remote tame' failed
          exact Or.inr ⟨foreign, Or.inl bare⟩
      | error fault =>
          have refused := deleteBudget_of_error ha
          cases found : fault.isNotFound with
          | true =>
              rw [found, if_pos rfl] at refused
              rw [bind_of_ok (x := false) (by rw [refused]), refused] at failed
              cases failed
          | false =>
              rw [found, if_neg Bool.false_ne_true] at refused
              rw [bind_of_error (by rw [refused]), refused] at failed ⊢
              obtain rfl := Except.error.inj failed
              have told (far : fault.isRemote = true) :
                  failureOf (.delete entry.1) fault = .call (.delete entry.1) fault := if_pos far
              rcases refusal_of_delete ha with planned | rfl | ⟨rfl, unnamed⟩
              · rw [Cluster.planned, Cluster.count, tame.plan] at planned
                exact Or.inl ⟨fault, told (remote _ _ fault planned), found, rfl, rfl⟩
              · exact Or.inl ⟨_, told rfl, found, rfl, rfl⟩
              · exact Or.inr ⟨rfl, Or.inr unnamed⟩

end Tame

/-- A removal that fails ends the conclusion there. -/
theorem conclude_of_error {s : Session} {f : Failure}
    (failed : (forEach remove s.ledger.reapable s).result = .error f) :
    conclude s = ⟨.error (Phase.deletion.wrap f), (forEach remove s.ledger.reapable s).state,
      (forEach remove s.ledger.reapable s).trace⟩ := by
  have stopped : (inPhase .deletion removeMarked s).result = .error (Phase.deletion.wrap f) :=
    congrArg (Except.mapError Phase.deletion.wrap) failed
  exact bind_of_error stopped _

end BudgetReaper.Pass
