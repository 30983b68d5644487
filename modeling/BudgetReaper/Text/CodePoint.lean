/-!
# Text — code points

A code point is a character, or half of a UTF-16 pair, which is no character.  `CodePoint.ofNat`
reads a number as a code point, and `CodePoint.number` gives the number back (`number_ofNat`).  A
stream of characters cannot hold a half: `shown` puts the replacement character in its place.
-/

namespace BudgetReaper

/-- A character, or half of a UTF-16 pair. -/
inductive CodePoint where
  | char (c : Char)
  | half (n : Nat)
  deriving DecidableEq, Repr, Inhabited

namespace CodePoint

/-- The number is that of half of a pair. -/
def isHalf (n : Nat) : Bool :=
  0xD800 ≤ n && n < 0xE000

/-- The code point with a number. -/
def ofNat (n : Nat) : CodePoint :=
  if isHalf n then half n else char (Char.ofNat n)

/-- The number of a code point. -/
def number : CodePoint → Nat
  | char c => c.toNat
  | half n => n

/-- The code points of characters. -/
def ofChars (cs : List Char) : List CodePoint :=
  cs.map char

/-- A code point with a large letter for a small one of the ASCII alphabet. -/
def upper : CodePoint → CodePoint
  | char c => char c.toUpper
  | half n => half n

/-- What stands for a half where only characters can stand. -/
def replacement : Char := '\ufffd'

/-- A code point as a character. -/
def shown : CodePoint → Char
  | char c => c
  | half _ => replacement

/-- Code points as a text. -/
def text (ps : List CodePoint) : String :=
  String.ofList (ps.map shown)

/-- Every number up to the last gives a code point of its own. -/
theorem number_ofNat {n : Nat} (h : n < 0x110000) : (ofNat n).number = n := by
  by_cases hn : isHalf n
  · simp [ofNat, hn, number]
  · have range : ¬ (0xD800 ≤ n ∧ n < 0xE000) := by simpa [isHalf] using hn
    have valid : n.isValidChar := by
      simp only [Nat.isValidChar]
      omega
    simp only [ofNat, hn, number]
    rw [Char.ofNat, dif_pos valid]
    rfl

end CodePoint

end BudgetReaper
