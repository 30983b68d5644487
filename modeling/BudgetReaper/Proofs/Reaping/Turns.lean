import BudgetReaper.Proofs.Action.Turns
import BudgetReaper.Proofs.Reaping.Refusal
import BudgetReaper.Proofs.Reaping.Remains

/-!
# Reaping — the deletion in turns

Where several reapers work on one cluster, a reaper is interrupted between its calls.  So its deletions
are cut into turns with at most one call each (`removals`, `single_removals`): in one the deletion of a
budget is asked for (`ask`), and in the next what has come of it is settled (`follow`).  Without
interruption the turns are the deletion (`leads_removeMarked`).

Where no deletion is planned to fail, asking tells whether the key is held and changes nothing but the
cluster (`ask_apply`); settling changes nothing in the cluster, never fails, and publishes and books the
deletion if it has been granted (`settle_apply`).
-/

namespace BudgetReaper

/-- The key whose deletion an effect publishes. -/
def Effect.obituary? : Effect → Option Key
  | call (.createEvent space event) =>
    if event.reason = .deleted then some (space, event.name) else none
  | _ => none

namespace Pass

open BudgetReaper.Action

/-! ### The deletion in turns -/

/-- Keeps the text of a marked budget and asks for its deletion, unless the run is dry. -/
def ask (entry : Key × Budget) : Pass (Option Bool) := do
  say (deleting entry.1)
  say (.dumped entry.1.text entry.2.dump)
  let s ← settings
  if s.dryRun.holds then
    say (.kept entry.1.text)
    return none
  else
    let granted ← deleteBudget entry.1
    return some granted

/-- What is done about a budget once its deletion has been answered, if it has been asked for. -/
def follow (entry : Key × Budget) : Option Bool → Pass Unit
  | none => done ()
  | some granted => settle entry granted

/-- The deletion of budgets in turns. -/
def removals : List (Key × Budget) → Turns Session
  | [] => .ended (.ok ())
  | entry :: rest => .turn (ask entry) fun answer => .turn (follow entry answer) fun _ => removals rest

theorem remove_eq_ask (entry : Key × Budget) : remove entry = ask entry >>= follow entry := by
  rw [remove_eq, ask, LawfulMonad.bind_assoc]
  refine bind_congr fun _ => ?_
  rw [LawfulMonad.bind_assoc]
  refine bind_congr fun _ => ?_
  rw [LawfulMonad.bind_assoc, dispose]
  refine bind_congr fun s => ?_
  split
  · rw [LawfulMonad.bind_assoc]
    exact (bind_done _).symm
  · rw [LawfulMonad.bind_assoc]
    rfl

/-- Without interruption the turns are the deletion. -/
theorem whole_removals (entries : List (Key × Budget)) :
    (removals entries).whole = forEach remove entries := by
  induction entries with
  | nil => rfl
  | cons entry rest ih =>
      rw [forEach, remove_eq_ask, LawfulMonad.bind_assoc, ← ih]
      rfl

/-- A reaper that is left alone comes to the outcome of the deletion of what it has marked. -/
theorem leads_removeMarked (s : Session) :
    Thread.Leads ⟨removals s.ledger.reapable, s, []⟩
      ⟨.ended (removeMarked s).result, (removeMarked s).state, (removeMarked s).trace⟩ := by
  have alone : removeMarked s = (removals s.ledger.reapable).whole s := by
    rw [whole_removals]
    rfl
  rw [alone]
  exact Thread.leads_whole _ s []

/-! ### One turn -/

theorem calls_ask (entry : Key × Budget) (s : Session) :
    (ask entry s).calls = if s.settings.dryRun.holds then [] else [.delete entry.1] := by
  rw [Outcome.calls, ask, say_bind, say_bind, settings_bind_apply]
  split
  · rfl
  · change ((deleteBudget entry.1 >>= _) s).trace.filterMap Effect.call? = _
    rw [Emits.filterMap_bind fun _ => .pure _, trace_deleteBudget]
    rfl

/-- What comes after an announcement in a settlement is no call. -/
theorem calls_settle (entry : Key × Budget) (s : Session) :
    (settle entry true s).calls = (announce entry.2 .deleted s).calls := by
  rw [settle_granted, Outcome.calls, say_bind]
  exact Emits.filterMap_bind
    (fun _ => .bind (.update _) fun _ => emits_tally (fun _ => rfl) fun _ _ => rfl) s

/-- Every turn of the deletion makes at most one call. -/
theorem single_removals (entries : List (Key × Budget)) : (removals entries).Single := by
  induction entries with
  | nil => trivial
  | cons entry rest ih =>
      refine ⟨fun s => ?_, fun answer => ⟨fun s => ?_, fun _ => ih⟩⟩
      · rw [calls_ask]
        split <;> simp
      · match answer with
        | none | some false => exact Nat.zero_le 1
        | some true =>
            rw [follow, calls_settle]
            cases hm : entry.2.metadata with
            | none =>
                rw [announce_unnamed hm]
                exact Nat.zero_le 1
            | some m =>
                rw [Outcome.calls, ← Effect.filterMap_acts _ fun _ => rfl, (acts_announce hm ..).2]
                exact Nat.le_refl 1

/-- Outside of a dry run, where no deletion is planned to fail, asking tells whether the key is held. -/
theorem ask_apply {entry : Key × Budget} {s : Session} (wet : s.settings.dryRun.holds = false)
    (named : s.cluster.isNamed = true) (spares : s.cluster.plan.Spares) :
    ask entry s =
      ⟨.ok (some (s.cluster.holds entry.1)), { s with cluster := s.cluster.after [.delete entry.1] },
        [.notice (deleting entry.1), .notice (.dumped entry.1.text entry.2.dump),
          .call (.delete entry.1)]⟩ := by
  have answer := Cluster.answerToDelete_of_spares named spares entry.1
  have served : s.cluster.after [.delete entry.1] = (s.cluster.serve (.delete entry.1)).1 := rfl
  have granted : deleteBudget entry.1 s =
      ⟨.ok (s.cluster.holds entry.1), { s with cluster := s.cluster.after [.delete entry.1] },
        [.call (.delete entry.1)]⟩ := by
    rw [deleteBudget_apply, served, Cluster.serve_delete, answer]
    cases s.cluster.holds entry.1 <;> rfl
  rw [ask, say_bind, say_bind, settings_bind_apply, wet, if_neg Bool.false_ne_true,
    bind_of_ok (x := s.cluster.holds entry.1) (by rw [granted]), granted]
  rfl

/-- What is settled of a deletion that has been granted goes into the ledger and is published, and
nothing else does. -/
theorem settle_apply {entry : Key × Budget} (own : entry.2.key? = some entry.1) {s : Session}
    (remote : s.cluster.plan.Remote) (lenient : s.sink.Lenient) (granted : Bool) :
    (settle entry granted s).result = .ok () ∧
      (settle entry granted s).state.ledger.reaped =
        s.ledger.reaped ++ (if granted then [entry.1] else []).map Key.text ∧
      (settle entry granted s).trace.filterMap Effect.obituary? =
        if granted then [entry.1] else [] := by
  cases granted with
  | false => exact ⟨rfl, (List.append_nil _).symm, rfl⟩
  | true =>
      obtain ⟨m, hm, key⟩ := Option.map_eq_some_iff.mp own
      have tame : s.Tame s.cluster.plan s.sink.isPresent := ⟨rfl, rfl, lenient⟩
      have announced : (announce entry.2 .deleted s).result = .ok () :=
        announce_of_tame remote hm tame
      obtain ⟨counted, published⟩ := acts_announce hm .deleted s
      rw [settle_granted, say_bind]
      refine ⟨signal_of_tame remote hm tame _, ?_, ?_⟩
      · have kept : Keeps (fun s => s.ledger.reaped) (tally entry.2 .deleted (.int 1)) :=
          keeps_tally (fun _ _ => rfl) _ _ _
        rw [signal, bind_of_ok announced, post, update_bind, counted]
        exact kept _
      · have silent (x : Unit) : Emits (fun e => e.obituary? = none)
            (post (·.reap entry.1.text) >>= fun _ => raise entry.2 .deleted) :=
          .bind (.update _) fun _ => emits_tally (fun _ => rfl) fun _ _ => rfl
        change (signal entry.2 .deleted (·.reap entry.1.text) s).trace.filterMap _ = _
        rw [signal, Emits.filterMap_bind silent, ← Effect.filterMap_acts _ fun _ => rfl, published,
          ← key]
        rfl

theorem keeps_settle (entry : Key × Budget) (granted : Bool) :
    Keeps Session.settings (settle entry granted) := by
  refine .ite (.bind (fun _ => rfl) fun _ => ?_) fun _ => rfl
  exact .bind (keeps_announce (fun _ _ => rfl) _ _) fun _ =>
    .bind (fun _ => rfl) fun _ => keeps_tally (fun _ _ => rfl) _ _ _

/-- A settlement asks for no deletion. -/
theorem deletions_settle (entry : Key × Budget) (granted : Bool) (s : Session) :
    (settle entry granted s).deletions = [] :=
  List.filterMap_eq_nil_iff.mpr (emits_settle entry granted s)

end Pass

end BudgetReaper
