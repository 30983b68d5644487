import Mathlib.Data.List.DropRight
import BudgetReaper.Text.Blank

/-!
# Text — what trimming leaves

Trimming takes off at the ends of a text what belongs to a class of characters, as much as it can, and
nothing else (`trimRight_eq_iff`, `trim_eq_iff`).
-/

namespace BudgetReaper.Text

variable {p : Char → Bool}

/-- What trimming leaves is what stands before the trimmed characters and does not end in one. -/
theorem trimRight_eq_iff {cs kept : List Char} :
    trimRight p cs = kept ↔
      ∃ trimmed, cs = kept ++ trimmed ∧ (∀ c ∈ trimmed, p c = true) ∧
        ∀ some_kept : kept ≠ [], ¬ p (kept.getLast some_kept) = true := by
  have library (cs : List Char) : trimRight p cs = cs.rdropWhile p := rfl
  constructor
  · rintro rfl
    refine ⟨cs.rtakeWhile p, ?_, fun c => List.mem_rtakeWhile_imp, List.rdropWhile_last_not p cs⟩
    rw [library, List.rdropWhile_append_rtakeWhile]
  · rintro ⟨trimmed, rfl, all, ends⟩
    have dropped : trimRight p (kept ++ trimmed) = trimRight p kept := by
      rw [trimRight, List.reverse_append,
        List.dropWhile_append_of_pos fun c hc => all c (List.mem_reverse.mp hc), ← trimRight]
    rw [dropped, library, List.rdropWhile_eq_self_iff]
    exact ends

/-- The text neither begins nor ends with a character of `p`. -/
structure Bare (p : Char → Bool) (cs : List Char) : Prop where
  first : ∀ filled : cs ≠ [], ¬ p (cs.head filled) = true
  last : ∀ filled : cs ≠ [], ¬ p (cs.getLast filled) = true

theorem bare_of_none {cs : List Char} (h : ∀ c ∈ cs, ¬ p c = true) : Bare p cs :=
  ⟨fun filled => h _ (List.head_mem filled), fun filled => h _ (List.getLast_mem filled)⟩

/-- The text has characters of `p` around `core`, which is bare of them. -/
def Surrounds (p : Char → Bool) (cs core : List Char) : Prop :=
  ∃ before after, cs = before ++ core ++ after ∧ (∀ c ∈ before, p c = true) ∧
    (∀ c ∈ after, p c = true) ∧ Bare p core

/-- What trimming leaves is what the trimmed characters surround. -/
theorem trim_eq_iff {cs core : List Char} : trim p cs = core ↔ Surrounds p cs core := by
  constructor
  · intro h
    obtain ⟨after, left, all, last⟩ := trimRight_eq_iff.mp h
    refine ⟨cs.takeWhile p, after, ?_, fun c => List.mem_takeWhile_imp, all, ?_, last⟩
    · rw [List.append_assoc, ← left, List.takeWhile_append_dropWhile]
    · intro filled
      have some_left : cs.dropWhile p ≠ [] := by simp [left, filled]
      have same : (cs.dropWhile p).head some_left = core.head filled := by
        simp only [left, List.head_append_of_ne_nil filled]
      rw [← same, List.head_dropWhile_not p some_left]
      exact Bool.false_ne_true
  · rintro ⟨before, after, rfl, all, all', bare⟩
    rw [List.append_assoc, trim, List.dropWhile_append_of_pos all]
    cases core with
    | nil => rw [List.nil_append, List.dropWhile_eq_nil_iff.mpr all', trimRight_nil]
    | cons c rest =>
        have first : ¬ p c = true := bare.first (List.cons_ne_nil c rest)
        rw [List.cons_append, List.dropWhile_cons_of_neg first]
        exact trimRight_eq_iff.mpr ⟨after, rfl, all', bare.last⟩

end BudgetReaper.Text
