import BudgetReaper.Proofs.Reaping.Evidence

/-!
# Reaping — admission of the listed budgets

Before the scan groups what is listed it goes through the list once, to say which namespaces are
left alone.  Whether it gets to the end of the list is decided by the settings and the list alone
(`admission`): a budget without metadata ends it, and so does a namespace that cannot be looked up.
On its way it changes nothing (`tellExcluded_apply`).

So a run that is past its detection knows a namespace for every budget of the cluster
(`isNamed_of_detected`).
-/

namespace BudgetReaper

/-- The namespace of a budget is left alone. -/
def Settings.leavesAlone (st : Settings) (b : Budget) : Bool :=
  b.metadata.any fun m => affirms (st.isExcluded (.ofText? m.space))

/-- The budgets whose namespaces are not left alone. -/
def Settings.attended (st : Settings) (budgets : List Budget) : List Budget :=
  budgets.filter fun b => !st.leavesAlone b

/-- The first failure to tell of listed budgets whether their namespaces are left alone. -/
def Settings.admission (st : Settings) : List Budget → Except Failure Unit
  | [] => .ok ()
  | b :: rest =>
    match b.metadata with
    | none => .error (.missing "namespace")
    | some m =>
      match st.isExcluded (.ofText? m.space) with
      | .error f => .error (.value f)
      | .ok _ => st.admission rest

namespace Settings

variable {st : Settings}

/-- What is left alone is admitted, so the admission may pass over it. -/
theorem admission_attended (st : Settings) (budgets : List Budget) :
    st.admission (st.attended budgets) = st.admission budgets := by
  induction budgets with
  | nil => rfl
  | cons b rest ih =>
      rw [attended] at ih ⊢
      cases hb : st.leavesAlone b with
      | true =>
          obtain ⟨m, hm, affirmed⟩ := (Option.any_eq_true _ _).mp hb
          rw [List.filter_cons_of_neg (by simp [hb]), ih, admission, hm]
          dsimp only
          cases hx : st.isExcluded (.ofText? m.space) with
          | error f => simp [hx, affirms] at affirmed
          | ok excluded => rfl
      | false =>
          rw [List.filter_cons_of_pos (by simp [hb]), admission, admission, ih]

/-- Budgets are admitted if each of them has metadata and its namespace can be looked up. -/
theorem admission_eq_ok_iff {budgets : List Budget} :
    st.admission budgets = .ok () ↔
      ∀ b ∈ budgets, ∃ m excluded,
        b.metadata = some m ∧ st.isExcluded (.ofText? m.space) = .ok excluded := by
  induction budgets with
  | nil => exact ⟨fun _ _ hb => (nomatch hb), fun _ => rfl⟩
  | cons b rest ih =>
      rw [admission, List.forall_mem_cons, ← ih]
      cases b.metadata with
      | none => simp
      | some m => cases h : st.isExcluded (.ofText? m.space) <;> simp [h]

/-- Every budget admitted has metadata. -/
theorem metadata_of_admission {budgets : List Budget} (h : st.admission budgets = .ok ()) :
    ∀ b ∈ budgets, b.metadata.isSome = true := by
  induction budgets with
  | nil => exact fun _ hb => nomatch hb
  | cons b rest ih =>
      rw [admission] at h
      cases hm : b.metadata with
      | none => simp [hm] at h
      | some m =>
          rw [hm] at h
          dsimp only at h
          split at h
          · cases h
          · intro b' hb
            rcases List.mem_cons.mp hb with rfl | hb
            · rw [hm]
              rfl
            · exact ih h b' hb

end Settings

namespace Pass

open BudgetReaper.Action

theorem settings_bind_apply {α : Type} (next : Settings → Pass α) (s : Session) :
    (settings >>= next) s = next s.settings s := by
  rw [settings, LawfulMonad.bind_assoc, state_bind, LawfulMonad.pure_bind]

/-- Going through the list ends as the admission does, changes nothing, and only tells of
namespaces that are left alone. -/
theorem tellExcluded_apply (told : List (Option String)) (budgets : List Budget) (s : Session) :
    (tellExcluded told budgets s).result = s.settings.admission budgets ∧
      (tellExcluded told budgets s).state = s ∧
      ∀ e ∈ (tellExcluded told budgets s).trace, ∃ space, e = .notice (.excluded space) := by
  induction budgets generalizing told with
  | nil => exact ⟨rfl, rfl, fun _ he => absurd he List.not_mem_nil⟩
  | cons b rest ih =>
      rw [tellExcluded, Settings.admission, metadataOf]
      cases hm : b.metadata with
      | none => exact ⟨rfl, rfl, fun _ he => absurd he List.not_mem_nil⟩
      | some m =>
          dsimp only
          rw [done_bind, settings_bind_apply]
          cases hx : s.settings.isExcluded (.ofText? m.space) with
          | error f => exact ⟨rfl, rfl, fun _ he => absurd he List.not_mem_nil⟩
          | ok excluded =>
              rw [ofExcept_ok, LawfulMonad.pure_bind]
              dsimp only
              split
              · obtain ⟨result, state, notices⟩ := ih (m.space :: told)
                rw [say_bind]
                refine ⟨result, state, fun e he => ?_⟩
                rcases List.mem_cons.mp he with rfl | he
                · exact ⟨m.space, rfl⟩
                · exact notices e he
              · exact ih told

/-- Enters groups of budgets into the ledger. -/
def enter (groups : List (Option String × List Budget)) : Pass Unit := do
  post (·.group (severalOf groups))
  forEach (fun group => forEach (sort group.1) group.2) groups

/-- Admits budgets that have been listed, and enters their groups. -/
def sortOut (budgets : List Budget) : Pass Unit := do
  tellExcluded [] budgets
  let s ← settings
  enter (groupsOf s budgets)

theorem scan_eq : scan = listBudgets "" >>= sortOut := rfl

theorem scan_of_planned {s : Session} {f : Fault} (h : s.cluster.planned .listAll = some f) :
    scan s = ⟨.error (failureOf (.listBudgets "") f), s.counted .listAll, [.call .listAll]⟩ := by
  have failed : listBudgets "" s =
      ⟨.error (failureOf (.listBudgets "") f), s.counted .listAll, [.call .listAll]⟩ := by
    rw [listBudgets_apply, h]
    rfl
  rw [scan_eq, bind_of_error (by rw [failed]), failed]

theorem scan_of_listed {s : Session} (h : s.cluster.planned .listAll = none) :
    scan s =
      ⟨(sortOut s.cluster.budgets (s.counted .listAll)).result,
        (sortOut s.cluster.budgets (s.counted .listAll)).state,
        .call .listAll :: (sortOut s.cluster.budgets (s.counted .listAll)).trace⟩ := by
  have listed : listBudgets "" s = ⟨.ok s.cluster.budgets, s.counted .listAll, [.call .listAll]⟩ := by
    rw [listBudgets_apply, h]
    rfl
  rw [scan_eq, bind_of_ok (x := s.cluster.budgets) (by rw [listed]), listed]
  rfl

/-- A run that completes has completed both of its parts. -/
theorem parts_of_completed {s : Session} (completed : (execute s).result = .ok ()) :
    (detect s).result = .ok () ∧ (conclude (detect s).state).result = .ok () := by
  rw [execute_eq] at completed
  obtain ⟨_, detected, concluded⟩ := ok_of_bind completed
  exact ⟨detected, concluded⟩

/-- A run that is past its detection is past its scan, the first thing that it does. -/
theorem scan_of_detected {s : Session} (detected : (detect s).result = .ok ()) :
    (scan s).result = .ok () := by
  obtain ⟨_, h, -⟩ := ok_of_bind (a := inPhase .scan scan) (s := s) detected
  cases hr : (scan s).result with
  | ok _ => rfl
  | error f =>
      rw [inPhase, rephrase_apply, hr] at h
      cases h

/-- A scan that returns has been given a list, and has admitted every budget of it. -/
theorem admitted_of_scanned {s : Session} (scanned : (scan s).result = .ok ()) :
    s.cluster.planned .listAll = none ∧ s.settings.admission s.cluster.budgets = .ok () := by
  cases hp : s.cluster.planned .listAll with
  | some f =>
      rw [scan_of_planned hp] at scanned
      cases scanned
  | none =>
      rw [scan_of_listed hp] at scanned
      obtain ⟨_, h, -⟩ := ok_of_bind (a := tellExcluded [] s.cluster.budgets) scanned
      exact ⟨rfl, (tellExcluded_apply [] s.cluster.budgets (s.counted .listAll)).1.symm.trans h⟩

/-- A run that is past its detection has admitted every budget listed. -/
theorem admission_of_detected {s : Session} (detected : (detect s).result = .ok ()) :
    s.settings.admission s.cluster.budgets = .ok () :=
  (admitted_of_scanned (scan_of_detected detected)).2

/-- Past its detection, a run knows a namespace for every budget of the cluster. -/
theorem isNamed_of_detected {s : Session} (detected : (detect s).result = .ok ()) :
    s.cluster.isNamed = true :=
  List.all_eq_true.mpr (Settings.metadata_of_admission (admission_of_detected detected))

end Pass

end BudgetReaper
