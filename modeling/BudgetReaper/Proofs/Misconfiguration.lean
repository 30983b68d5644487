import BudgetReaper.Misconfiguration
import BudgetReaper.Proofs.Binary64.Range

/-!
# Misconfiguration — when there is no verdict

One bound decides whether a budget is misconfigured, the first that is set (`Spec.deciding`).  The
verdict fails in two ways and in no other (`isMisconfigured_eq_error_iff`): a bound cannot be read, or the
deciding bound is a percentage whose share of the pods is beyond the doubles (`Bound.Overflows`).
Only the first is a fault of a bound.
-/

namespace BudgetReaper

/-- A finite double has an integer next above it. -/
theorem Number.rounded_of_isFinite {x : Binary64} (finite : x.isFinite = true) :
    ∃ n, rounded Binary64.ceil? x = .ok n := by
  cases x with
  | nan | infinite _ => cases finite
  | finite negative m e => exact ⟨_, rfl⟩

/-- A share of integers fails only beyond the doubles. -/
theorem Value.share_int (n total : Int) :
    (int n).share (int total) =
      if (n * total).natAbs < Binary64.limit * 100 then .ok (.ofIntRatio (n * total) 100)
      else .error (.number .quotientTooLarge) := by
  have finite : (Binary64.ofIntRatio (n * total) 100).isFinite = true ↔ _ :=
    Binary64.isFinite_ofIntRatio_iff (n * total) (by decide)
  change (Number.dividedBy (.whole (n * total)) 100).mapError Fault.number = _
  unfold Number.dividedBy
  dsimp only
  by_cases below : (n * total).natAbs < Binary64.limit * 100
  · rw [if_pos (finite.mpr below), if_pos below]
    rfl
  · rw [if_neg (mt finite.mp below), if_neg below]
    rfl

namespace Bound

/-- The bound is a percentage whose share of `total` pods is beyond the doubles. -/
def Overflows (b : Bound) (total : Nat) : Prop :=
  ∃ n, b = .percentage (.int n) ∧ Binary64.limit * 100 ≤ (n * (total : Int)).natAbs

/-- A bound that has been read gives a count unless its share is beyond the doubles. -/
theorem countAmong_eq_error_iff {v : Value} {b : Bound} (read : ofValue v = .ok (some b))
    {total : Nat} {g : BoundFailure} :
    b.countAmong total = .error g ↔
      b.Overflows total ∧ g = .value (.number .quotientTooLarge) := by
  cases b with
  | absolute count =>
      refine iff_of_false nofun ?_
      rintro ⟨⟨n, percentage, -⟩, -⟩
      cases percentage
  | percentage percent =>
      obtain ⟨n, rfl⟩ := eq_int_of_ofValue read
      have whole : (percentage (.int n)).countAmong total =
          ((Value.int n).share (.int total) >>= fun share =>
            ((Number.rounded Binary64.ceil? share).map .int).mapError .number).mapError .value := rfl
      rw [whole, Value.share_int]
      by_cases below : (n * (total : Int)).natAbs < Binary64.limit * 100
      · have finite := (Binary64.isFinite_ofIntRatio_iff (n * total) (by decide)).mpr below
        obtain ⟨count, rounded⟩ := Number.rounded_of_isFinite finite
        rw [if_pos below]
        simp only [bind, Except.bind, rounded]
        refine iff_of_false nofun ?_
        rintro ⟨⟨n', same, above⟩, -⟩
        obtain rfl := Value.int.inj (Bound.percentage.inj same)
        exact absurd below (Nat.not_lt.mpr above)
      · rw [if_neg below]
        constructor
        · intro failed
          exact ⟨⟨n, rfl, Nat.not_lt.mp below⟩, (Except.error.inj failed).symm⟩
        · rintro ⟨-, rfl⟩
          rfl

end Bound

namespace Spec

/-- The bound that decides whether a spec is misconfigured, the first that is set. -/
def deciding (s : Spec) : Except Bound.Fault (Option Bound) := do
  match ← Bound.ofValue s.maxUnavailable with
  | some b => return some b
  | none => Bound.ofValue s.minAvailable

variable {s : Spec} {podCount : Nat} {expected : Value} {g : BoundFailure}

/-- What a verdict compares the count of its bound with, if it has a bound. -/
theorem isMisconfigured_eq (s : Spec) (podCount : Nat) (expected : Value) :
    ∃ permitted, s.isMisconfigured podCount expected =
      (s.deciding.mapError .fault >>= fun bound? => match bound? with
        | none => .ok false
        | some b => (b.countAmong podCount).map (·.equals permitted)) := by
  unfold isMisconfigured deciding readBound
  cases Bound.ofValue s.maxUnavailable with
  | error f => exact ⟨expected, rfl⟩
  | ok bound? =>
      cases bound? with
      | some b => exact ⟨.int 0, rfl⟩
      | none =>
          refine ⟨expected, ?_⟩
          cases Bound.ofValue s.minAvailable with
          | error f => rfl
          | ok bound? => cases bound? <;> rfl

/-- The deciding bound has been read. -/
theorem read_of_deciding {b : Bound} (h : s.deciding = .ok (some b)) :
    ∃ v, Bound.ofValue v = .ok (some b) := by
  unfold deciding at h
  cases first : Bound.ofValue s.maxUnavailable with
  | error f =>
      rw [first] at h
      cases h
  | ok bound? =>
      rw [first] at h
      cases bound? with
      | some b' =>
          obtain rfl := Option.some.inj (Except.ok.inj h)
          exact ⟨_, first⟩
      | none => exact ⟨_, h⟩

/-- A verdict fails for a bound that cannot be read, or for a share beyond the doubles. -/
theorem isMisconfigured_eq_error_iff :
    s.isMisconfigured podCount expected = .error g ↔
      (∃ f, s.deciding = .error f ∧ g = .fault f) ∨
        ∃ b, s.deciding = .ok (some b) ∧ b.Overflows podCount ∧
          g = .value (.number .quotientTooLarge) := by
  obtain ⟨permitted, whole⟩ := s.isMisconfigured_eq podCount expected
  rw [whole]
  cases hd : s.deciding with
  | error f =>
      constructor
      · intro failed
        exact Or.inl ⟨f, rfl, (Except.error.inj failed).symm⟩
      · rintro (⟨f', same, rfl⟩ | ⟨b, decided, -⟩)
        · exact congrArg (Except.error ∘ BoundFailure.fault) (Except.error.inj same)
        · cases decided
  | ok bound? =>
      cases bound? with
      | none =>
          refine iff_of_false nofun ?_
          rintro (⟨f, unread, -⟩ | ⟨b, decided, -⟩)
          · cases unread
          · cases decided
      | some b =>
          obtain ⟨v, read⟩ := read_of_deciding hd
          have count : b.countAmong podCount = .error g ↔ _ := Bound.countAmong_eq_error_iff read
          have mapped : (b.countAmong podCount).map (·.equals permitted) = .error g ↔
              b.countAmong podCount = .error g := by
            cases b.countAmong podCount with
            | ok _ => exact iff_of_false nofun nofun
            | error _ => exact ⟨congrArg _ ∘ Except.error.inj, congrArg _ ∘ Except.error.inj⟩
          change (b.countAmong podCount).map (·.equals permitted) = .error g ↔ _
          rw [mapped, count]
          constructor
          · exact fun ⟨overflows, told⟩ => Or.inr ⟨b, rfl, overflows, told⟩
          · rintro (⟨f, unread, -⟩ | ⟨b', decided, overflows, told⟩)
            · cases unread
            · obtain rfl := Option.some.inj (Except.ok.inj decided)
              exact ⟨overflows, told⟩

end Spec

end BudgetReaper
