import BudgetReaper.Proofs.Action.Yield
import BudgetReaper.Proofs.Reaping.Detection

/-!
# Reaping — the trace of the deletion

Each marked budget has its text kept before anything else happens to it; then, unless the run is
dry, comes the one call that deletes it, and after that no other deletion (`trace_remove`).  A
deletion that fails ends the phase, so the keys asked to be deleted are the first of those marked
(`deletions_conclude`).

A dry run calls nothing, gives no sample and never fails in this phase (`conclude_of_dry`).
-/

namespace BudgetReaper

/-- Every deletion of the trace is of an entry whose text has been kept before. -/
def Prepared (entries : List (Key × Budget)) (trace : List Effect) : Prop :=
  ∀ before key after, trace = before ++ .call (.delete key) :: after →
    ∃ b, (key, b) ∈ entries ∧ .notice (.dumped key.text b.dump) ∈ before

namespace Prepared

variable {entries : List (Key × Budget)} {t t' : List Effect}

theorem of_none (h : ∀ e ∈ t, e.deleted? = none) : Prepared entries t := by
  rintro before key after rfl
  have := h (.call (.delete key)) (List.mem_append_right _ (List.mem_cons_self ..))
  cases this

theorem append (h : Prepared entries t) (h' : Prepared entries t') :
    Prepared entries (t ++ t') := by
  intro before key after ht
  rcases List.append_eq_append_iff.mp ht with ⟨mid, rfl, rfl⟩ | ⟨mid, rfl, hmid⟩
  · obtain ⟨b, hb, kept⟩ := h' mid key after rfl
    exact ⟨b, hb, List.mem_append_right _ kept⟩
  · cases mid with
    | nil =>
        obtain ⟨b, -, kept⟩ := h' [] key after hmid.symm
        cases kept
    | cons e mid =>
        obtain ⟨rfl, -⟩ := List.cons.inj hmid
        exact h before key mid rfl

theorem mono {wider : List (Key × Budget)} (h : Prepared entries t)
    (hw : ∀ entry ∈ entries, entry ∈ wider) : Prepared wider t := by
  intro before key after ht
  obtain ⟨b, hb, kept⟩ := h before key after ht
  exact ⟨b, hw _ hb, kept⟩

end Prepared

namespace Pass

open BudgetReaper.Action

/-! ### One budget -/

theorem trace_deleteBudget (key : Key) (s : Session) :
    (deleteBudget key s).trace = [.call (.delete key)] := by
  rw [deleteBudget_apply]
  split <;> rfl

/-- The notice that a marked budget is about to be deleted. -/
def deleting (key : Key) : Notice :=
  .info "Deleting offending PDB" [("pdb", .str key.text)]

/-- What is done about a budget once its deletion has been answered. -/
def settle (entry : Key × Budget) (gone : Bool) : Pass Unit :=
  if gone then do
    say (.removed entry.1.text)
    announce entry.2 .deleted
    post (·.reap entry.1.text)
    raise entry.2 .deleted
  else say (.alreadyGone entry.1.text)

/-- What is done about a marked budget once its text has been kept. -/
def dispose (entry : Key × Budget) : Pass Unit := do
  let s ← settings
  if s.dryRun.holds then say (.kept entry.1.text)
  else deleteBudget entry.1 >>= settle entry

theorem remove_eq (entry : Key × Budget) :
    remove entry = (do
      say (deleting entry.1)
      say (.dumped entry.1.text entry.2.dump)
      dispose entry) := rfl

theorem dispose_of_dry {entry : Key × Budget} {s : Session}
    (dry : s.settings.dryRun.holds = true) :
    dispose entry s = ⟨.ok (), s, [.notice (.kept entry.1.text)]⟩ := by
  change (if s.settings.dryRun.holds then say _ else _) s = _
  rw [if_pos dry]
  rfl

theorem dispose_of_wet {entry : Key × Budget} {s : Session}
    (wet : s.settings.dryRun.holds = false) :
    dispose entry s = (deleteBudget entry.1 >>= settle entry) s := by
  change (if s.settings.dryRun.holds then say _ else _) s = _
  rw [wet]
  rfl

theorem emits_settle (entry : Key × Budget) (gone : Bool) :
    Emits (fun e => e.deleted? = none) (settle entry gone) := by
  refine .ite (.bind (.say rfl) fun _ => ?_) (.say rfl)
  refine .bind (emits_announce (fun _ => rfl) fun _ _ _ => rfl) fun _ => ?_
  exact .bind (.update _) fun _ => emits_tally (fun _ => rfl) fun _ _ => rfl

/-- A closed class holds a removal if it holds the disposal of its budget. -/
theorem closed_remove {C : ∀ α : Type, Pass α → Prop} (h : Closed C)
    (said : ∀ n, C Unit (say n)) {entry : Key × Budget}
    (disposal : C Unit (deleteBudget entry.1 >>= settle entry)) : C Unit (remove entry) := by
  rw [remove_eq]
  refine h.bind (said _) fun _ => h.bind (said _) fun _ => ?_
  exact h.bind (closed_settings h) fun st => Closed.ite (said _) disposal

/-- A removal obeys a law that its disposal obeys. -/
theorem obeys_remove {P : Law Session} [P.Composes] (said : ∀ n, Obeys P (say n))
    {entry : Key × Budget} (disposal : Obeys P (deleteBudget entry.1 >>= settle entry)) :
    Obeys P (remove entry) :=
  closed_remove Obeys.closed said disposal

/-- The text of a budget is kept first; then comes its deletion, unless the run is dry. -/
theorem trace_remove (entry : Key × Budget) (s : Session) :
    ∃ later, (remove entry s).trace =
        .notice (deleting entry.1) :: .notice (.dumped entry.1.text entry.2.dump) ::
          ((if s.settings.dryRun.holds then [] else [.call (.delete entry.1)]) ++ later) ∧
      ∀ e ∈ later, e.deleted? = none := by
  rw [remove_eq, say_bind, say_bind]
  cases hd : s.settings.dryRun.holds with
  | true =>
      rw [dispose_of_dry hd]
      refine ⟨[.notice (.kept entry.1.text)], rfl, fun e he => ?_⟩
      rcases List.mem_singleton.mp he with rfl
      rfl
  | false =>
      obtain ⟨later, ht, hl⟩ :=
        Emits.trace_bind (a := deleteBudget entry.1) (emits_settle entry) s
      rw [dispose_of_wet hd]
      refine ⟨later, ?_, hl⟩
      dsimp only
      rw [ht, trace_deleteBudget]
      rfl

theorem prepared_remove (entry : Key × Budget) (s : Session) :
    Prepared [entry] (remove entry s).trace := by
  obtain ⟨later, ht, none_later⟩ := trace_remove entry s
  rw [ht]
  intro before key after h
  -- the deletion is neither of the first two effects, so both stand before it
  rcases before with _ | ⟨first, _ | ⟨second, before⟩⟩
  · cases h
  · cases h
  · simp only [List.cons_append, List.cons.injEq] at h
    obtain ⟨-, rfl, h⟩ := h
    have asked : .call (.delete key) ∈
        (if s.settings.dryRun.holds then [] else [Effect.call (.delete entry.1)]) ++ later :=
      h ▸ List.mem_append_right _ (List.mem_cons_self ..)
    have own : key = entry.1 := by
      rcases List.mem_append.mp asked with asked | asked
      · split at asked
        · cases asked
        · cases List.mem_singleton.mp asked
          rfl
      · cases none_later _ asked
    subst own
    exact ⟨entry.2, List.mem_singleton_self _, by simp⟩

theorem deletions_remove (entry : Key × Budget) (s : Session) :
    (remove entry s).deletions = if s.settings.dryRun.holds then [] else [entry.1] := by
  obtain ⟨later, ht, none_later⟩ := trace_remove entry s
  have none_left : later.filterMap Effect.deleted? = [] := List.filterMap_eq_nil_iff.mpr none_later
  rw [Outcome.deletions, ht]
  cases s.settings.dryRun.holds with
  | true => exact none_left
  | false => exact congrArg (entry.1 :: ·) none_left

/-! ### All of them -/

theorem prepared_forEach (entries : List (Key × Budget)) (s : Session) :
    Prepared entries (forEach remove entries s).trace := by
  induction entries generalizing s with
  | nil => exact .of_none fun _ he => nomatch he
  | cons entry rest ih =>
      have first : Prepared (entry :: rest) (remove entry s).trace :=
        (prepared_remove entry s).mono (by simp)
      rw [forEach]
      cases hr : (remove entry s).result with
      | error f =>
          rw [bind_of_error hr]
          exact first
      | ok _ =>
          rw [bind_of_ok hr]
          exact first.append ((ih _).mono fun _ => List.mem_cons_of_mem entry)

/-- The keys asked to be deleted are the first of those marked, none of them in a dry run. -/
theorem deletions_forEach (entries : List (Key × Budget)) (s : Session) :
    (forEach remove entries s).deletions <+:
      if s.settings.dryRun.holds then [] else Assoc.keys entries := by
  induction entries generalizing s with
  | nil => exact List.nil_prefix
  | cons entry rest ih =>
      have first := deletions_remove entry s
      rw [forEach]
      cases hr : (remove entry s).result with
      | error f =>
          rw [Outcome.deletions, bind_of_error hr]
          change (remove entry s).deletions <+: _
          rw [first]
          split
          · exact List.prefix_rfl
          · exact ⟨Assoc.keys rest, rfl⟩
      | ok _ =>
          have later := ih (remove entry s).state
          have kept : (remove entry s).state.settings = s.settings :=
            keeps_remove (fun _ _ => rfl) (fun _ _ => rfl) (fun _ _ => rfl) entry s
          rw [kept] at later
          rw [Outcome.deletions, bind_of_ok hr, List.filterMap_append]
          change (remove entry s).deletions ++
            (forEach remove rest (remove entry s).state).deletions <+: _
          rw [first]
          cases hd : s.settings.dryRun.holds with
          | true => simpa [hd] using later
          | false =>
              rw [hd] at later
              exact List.prefix_append_right_inj [entry.1] |>.mpr later

/-- A removal is the disposal of its budget, after the text of the budget has been kept. -/
theorem remove_of_wet {entry : Key × Budget} {s : Session}
    (wet : s.settings.dryRun.holds = false) :
    remove entry s =
      ⟨((deleteBudget entry.1 >>= settle entry) s).result,
        ((deleteBudget entry.1 >>= settle entry) s).state,
        .notice (deleting entry.1) :: .notice (.dumped entry.1.text entry.2.dump) ::
          ((deleteBudget entry.1 >>= settle entry) s).trace⟩ := by
  rw [remove_eq, say_bind, say_bind, dispose_of_wet wet]

/-- The first call about the marked budgets is the deletion of the first of them. -/
theorem calls_forEach_cons {s : Session} (wet : s.settings.dryRun.holds = false)
    (entry : Key × Budget) (rest : List (Key × Budget)) :
    ∃ later, (forEach remove (entry :: rest) s).calls = .delete entry.1 :: later := by
  obtain ⟨more, hm⟩ := trace_bind (remove entry) (fun _ => forEach remove rest) s
  obtain ⟨later, hl, -⟩ := trace_remove entry s
  rw [Outcome.calls, forEach, hm, hl, wet]
  exact ⟨_, rfl⟩

/-- Removals that do not fail have asked to delete every marked key. -/
theorem deletions_forEach_of_ok {entries : List (Key × Budget)} {s : Session}
    (wet : s.settings.dryRun.holds = false) (done : (forEach remove entries s).result = .ok ()) :
    (forEach remove entries s).deletions = Assoc.keys entries := by
  induction entries generalizing s with
  | nil => rfl
  | cons entry rest ih =>
      obtain ⟨_, first, later⟩ := ok_of_bind (a := remove entry) done
      have kept : (remove entry s).state.settings = s.settings :=
        keeps_remove (fun _ _ => rfl) (fun _ _ => rfl) (fun _ _ => rfl) entry s
      have asked := deletions_remove entry s
      rw [wet, if_neg Bool.false_ne_true] at asked
      rw [forEach, Outcome.deletions, bind_of_ok first, List.filterMap_append]
      change (remove entry s).deletions ++
        (forEach remove rest (remove entry s).state).deletions = _
      rw [asked, ih (kept ▸ wet) later]
      rfl

/-! ### The conclusion -/

/-- What follows the removals is said, not done. -/
theorem trace_conclude (s : Session) :
    ∃ later, (conclude s).trace = (forEach remove s.ledger.reapable s).trace ++ later ∧
      ∀ e ∈ later, ∃ n, e = .notice n := by
  have said : Emits (fun e => ∃ n, e = .notice n) summarize :=
    .bind .state fun _ => .say ⟨_, rfl⟩
  exact Emits.trace_bind (a := inPhase .deletion removeMarked) (fun _ => said) s

/-- The conclusion calls what the removals call. -/
theorem calls_conclude_eq (s : Session) :
    (conclude s).calls = (forEach remove s.ledger.reapable s).calls := by
  obtain ⟨later, ht, told⟩ := trace_conclude s
  rw [Outcome.calls, ht, List.filterMap_append, Effect.filterMap_notices (fun _ => rfl) told,
    List.append_nil]
  rfl

/-- The conclusion ends as the removals do, their own failures as an abort of the phase. -/
theorem result_conclude (s : Session) :
    (conclude s).result = (inPhase .deletion (forEach remove s.ledger.reapable) s).result := by
  change ((inPhase .deletion (forEach remove s.ledger.reapable) >>= fun _ => summarize) s).result = _
  cases hr : (inPhase .deletion (forEach remove s.ledger.reapable) s).result with
  | error f => rw [bind_of_error hr]
  | ok _ => rw [bind_of_ok hr]; rfl

/-- A conclusion that is past is past its removals. -/
theorem removed_of_concluded {s : Session} (concluded : (conclude s).result = .ok ()) :
    (forEach remove s.ledger.reapable s).result = .ok () := by
  rw [result_conclude, inPhase, rephrase_apply] at concluded
  cases hr : (forEach remove s.ledger.reapable s).result with
  | ok _ => rfl
  | error f =>
      rw [hr] at concluded
      cases concluded

/-- The conclusion obeys a law that the disposal of every marked budget obeys. -/
theorem obeys_conclude {P : Law Session} [P.Composes] (said : ∀ n, Obeys P (say n)) {s : Session}
    (disposal : ∀ entry ∈ s.ledger.reapable, Obeys P (deleteBudget entry.1 >>= settle entry)) :
    P s (conclude s).trace (conclude s).state := by
  have removal : Obeys P (forEach remove s.ledger.reapable) :=
    .forEach fun entry he => obeys_remove said (disposal entry he)
  have whole : Obeys P (inPhase .deletion (forEach remove s.ledger.reapable) >>= fun _ =>
      summarize) :=
    .bind (.rephrase removal _) fun _ => .bind .state fun _ => said _
  -- the phase reads the marks first; from `s` it is the loop over the marks of `s`
  exact whole s

theorem prepared_conclude (s : Session) : Prepared s.ledger.reapable (conclude s).trace := by
  obtain ⟨later, ht, told⟩ := trace_conclude s
  rw [ht]
  refine (prepared_forEach _ s).append (.of_none fun e he => ?_)
  obtain ⟨n, rfl⟩ := told e he
  rfl

theorem deletions_conclude (s : Session) :
    (conclude s).deletions <+:
      if s.settings.dryRun.holds then [] else Assoc.keys s.ledger.reapable := by
  obtain ⟨later, ht, told⟩ := trace_conclude s
  have none_left : later.filterMap Effect.deleted? = [] :=
    Effect.filterMap_notices (fun _ => rfl) told
  rw [Outcome.deletions, ht, List.filterMap_append, none_left, List.append_nil]
  exact deletions_forEach _ s

/-! ### A dry run -/

theorem remove_of_dry {s : Session} (dry : s.settings.dryRun.holds = true)
    (entry : Key × Budget) :
    remove entry s =
      ⟨.ok (), s, [.notice (deleting entry.1), .notice (.dumped entry.1.text entry.2.dump),
        .notice (.kept entry.1.text)]⟩ := by
  rw [remove_eq, say_bind, say_bind, dispose_of_dry dry]

/-- In a dry run the conclusion never fails, changes nothing and only tells. -/
theorem conclude_of_dry {s : Session} (dry : s.settings.dryRun.holds = true) :
    (conclude s).result = .ok () ∧ (conclude s).state = s ∧
      ∀ e ∈ (conclude s).trace, ∃ n, e = .notice n := by
  have removal (entries : List (Key × Budget)) :
      (forEach remove entries s).result = .ok () ∧ (forEach remove entries s).state = s ∧
        ∀ e ∈ (forEach remove entries s).trace, ∃ n, e = .notice n := by
    induction entries with
    | nil => exact ⟨rfl, rfl, fun _ he => nomatch he⟩
    | cons entry rest ih =>
        have first := remove_of_dry dry entry
        have done : (remove entry s).result = .ok () := by rw [first]
        rw [forEach, bind_of_ok done, first]
        refine ⟨ih.1, ih.2.1, fun e he => ?_⟩
        rcases List.mem_append.mp he with he | he
        · simp only [List.mem_cons, List.not_mem_nil, or_false] at he
          rcases he with rfl | rfl | rfl <;> exact ⟨_, rfl⟩
        · exact ih.2.2 e he
  obtain ⟨done, same, told⟩ := removal s.ledger.reapable
  have removed : (inPhase .deletion removeMarked s).result = .ok () :=
    congrArg (Except.mapError _) done
  rw [conclude, bind_of_ok removed]
  refine ⟨rfl, same, fun e he => ?_⟩
  rcases List.mem_append.mp he with he | he
  · exact told e he
  · exact ⟨_, List.mem_singleton.mp he⟩

/-- If the conclusion calls the cluster at all, it begins with a deletion. -/
theorem calls_conclude (s : Session) :
    (conclude s).calls = [] ∨ ∃ key rest, (conclude s).calls = .delete key :: rest := by
  rw [calls_conclude_eq]
  cases hd : s.settings.dryRun.holds with
  | true =>
      have told := (conclude_of_dry hd).2.2
      exact Or.inl (calls_conclude_eq s ▸ Effect.filterMap_notices (fun _ => rfl) told)
  | false =>
      cases s.ledger.reapable with
      | nil => exact Or.inl rfl
      | cons entry rest =>
          obtain ⟨later, first⟩ := calls_forEach_cons hd entry rest
          exact Or.inr ⟨entry.1, later, first⟩

end Pass

end BudgetReaper
