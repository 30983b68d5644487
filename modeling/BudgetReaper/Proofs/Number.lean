import BudgetReaper.Number
import BudgetReaper.Proofs.Binary64.Order

/-!
# Numbers — their order

Numbers are compared by their places among the rationals and the two infinities, whether they are integers
or doubles (`le_iff`).  So `le` is transitive (`le_trans`): what is at least a number is at least every
lower one, and what is at most one is at most every greater one.  Between numbers of some value it is the
order of the values (`le_iff_of_value?`).
-/

namespace BudgetReaper.Number

open BudgetReaper.Binary64 (Place atLeast_iff_place atLeast_opposite_iff_place)

/-! ### Places -/

/-- The place of a number; what is no number has none. -/
def place? : Number → Option Place
  | whole n => some (.of n)
  | real x => x.place?

/-- Numbers are compared by their places. -/
theorem le_iff {a b : Number} :
    a.le b = true ↔ ∃ p q, a.place? = some p ∧ b.place? = some q ∧ p ≤ q := by
  cases a with
  | whole m => cases b with
      | whole n => simp [place?]
      | real y => simp [le, place?, atLeast_iff_place]
  | real x => cases b with
      | whole n => simp [le, place?, atLeast_opposite_iff_place]
      | real y => exact Binary64.le_iff

theorem le_trans {a b c : Number} (h : a.le b = true) (h' : b.le c = true) : a.le c = true := by
  obtain ⟨p, q, here, there, le⟩ := le_iff.mp h
  obtain ⟨q', r, there', beyond, le'⟩ := le_iff.mp h'
  obtain rfl := Option.some.inj (there.symm.trans there')
  exact le_iff.mpr ⟨p, r, here, beyond, le.trans le'⟩

/-! ### Values -/

/-- The rational that a number is; an infinity is none, nor is what is no number. -/
def value? : Number → Option ℚ
  | whole n => some n
  | real x => x.toRat?

/-- A double is within the ranges of doubles. -/
def Proper : Number → Prop
  | whole _ => True
  | real x => x.Proper

theorem place?_eq_of {a : Number} {v : ℚ} (worth : a.value? = some v) : a.place? = some (.of v) := by
  cases a with
  | whole n =>
      obtain rfl := Option.some.inj worth
      rfl
  | real x => exact Binary64.place?_eq_of worth

/-- Numbers are compared by their values. -/
theorem le_iff_of_value? {a b : Number} {v w : ℚ} (worth : a.value? = some v)
    (worth' : b.value? = some w) : a.le b = true ↔ v ≤ w := by
  rw [le_iff, place?_eq_of worth, place?_eq_of worth', ← Place.of_le_of]
  simp

end BudgetReaper.Number
