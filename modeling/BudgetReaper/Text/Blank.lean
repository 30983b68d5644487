/-!
# Text — blanks

Two classes of blank character.  `isBlank` is what trimming a word removes and what separates
words: the ASCII blanks, the four information separators U+001C to U+001F, the next-line
character and every space, line and paragraph separator above ASCII.  `isNumeralBlank` is what
may surround a written number: the same class without the information separators.

`trim p` removes the characters of `p` from both ends and keeps all else (`trim_of_none`).
-/

namespace BudgetReaper.Text

/-- A character that trimming removes from a word. -/
def isBlank (c : Char) : Bool :=
  let n := c.toNat
  (0x09 ≤ n && n ≤ 0x0D) || (0x1C ≤ n && n ≤ 0x20) || n == 0x85 || n == 0xA0 || n == 0x1680 ||
    (0x2000 ≤ n && n ≤ 0x200A) || n == 0x2028 || n == 0x2029 || n == 0x202F || n == 0x205F ||
    n == 0x3000

/-- The information separators, U+001C to U+001F. -/
def isSeparator (c : Char) : Bool :=
  0x1C ≤ c.toNat && c.toNat ≤ 0x1F

/-- A character that may surround a written number. -/
def isNumeralBlank (c : Char) : Bool :=
  isBlank c && !isSeparator c

/-- `cs` without the characters of `p` at its end. -/
def trimRight (p : Char → Bool) (cs : List Char) : List Char :=
  (cs.reverse.dropWhile p).reverse

/-- `cs` without the characters of `p` at either end. -/
def trim (p : Char → Bool) (cs : List Char) : List Char :=
  trimRight p (cs.dropWhile p)

/-- Every blank of the ASCII class is a blank. -/
theorem isBlank_of_isWhitespace {c : Char} (h : c.isWhitespace = true) : isBlank c = true := by
  simp only [Char.isWhitespace, Bool.or_eq_true, decide_eq_true_eq] at h
  rcases h with ((h | h) | h) | h <;> subst h <;> decide

@[simp] theorem trimRight_nil (p : Char → Bool) : trimRight p [] = [] := rfl

@[simp] theorem trim_nil (p : Char → Bool) : trim p [] = [] := rfl

theorem dropWhile_of_none {p : Char → Bool} {cs : List Char} (h : ∀ c ∈ cs, p c = false) :
    cs.dropWhile p = cs := by
  cases cs with
  | nil => rfl
  | cons c rest => simp [List.dropWhile, h c (by simp)]

/-- A text that holds no character of `p` is its own trimming. -/
theorem trim_of_none {p : Char → Bool} {cs : List Char} (h : ∀ c ∈ cs, p c = false) :
    trim p cs = cs := by
  rw [trim, dropWhile_of_none h, trimRight, dropWhile_of_none (by simpa using h),
    List.reverse_reverse]

end BudgetReaper.Text
