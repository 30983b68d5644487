/-!
# Text — hexadecimal code units

`hexDigits width n` writes the last `width` hexadecimal digits of `n` in lower case, and
`ofHexDigits?` reads a run of digits in either case.  The two are inverse on numbers that fit
(`ofHexDigits?_hexDigits`).
-/

namespace BudgetReaper.Text

/-- The value of a hexadecimal digit in either case. -/
def hexValue? (c : Char) : Option Nat :=
  let n := c.toNat
  if 0x30 ≤ n ∧ n ≤ 0x39 then some (n - 0x30)
  else if 0x41 ≤ n ∧ n ≤ 0x46 then some (n - 0x41 + 10)
  else if 0x61 ≤ n ∧ n ≤ 0x66 then some (n - 0x61 + 10)
  else none

/-- The last `width` hexadecimal digits of `n`, in lower case. -/
def hexDigits : (width : Nat) → Nat → List Char
  | 0, _ => []
  | width + 1, n => hexDigits width (n / 16) ++ [Nat.digitChar (n % 16)]

/-- The number that a run of hexadecimal digits writes; `none` if another character is in it. -/
def ofHexDigits? (cs : List Char) : Option Nat :=
  cs.foldlM (fun n c => (hexValue? c).map (16 * n + ·)) 0

theorem hexValue?_digitChar {n : Nat} (h : n < 16) : hexValue? (Nat.digitChar n) = some n := by
  revert n
  decide

@[simp] theorem length_hexDigits (width n : Nat) : (hexDigits width n).length = width := by
  induction width generalizing n with
  | zero => rfl
  | succ width ih => simp [hexDigits, ih]

/-- Reading `width` digits of a number gives the number modulo `16 ^ width`. -/
theorem ofHexDigits?_hexDigits_mod (width n : Nat) :
    ofHexDigits? (hexDigits width n) = some (n % Nat.pow 16 width) := by
  induction width generalizing n with
  | zero => simp [hexDigits, ofHexDigits?, Nat.pow, Nat.mod_one]
  | succ width ih =>
    have step := ih (n / 16)
    simp only [ofHexDigits?] at step
    simp only [hexDigits, ofHexDigits?, List.foldlM_append, step, List.foldlM_cons,
      List.foldlM_nil, hexValue?_digitChar (Nat.mod_lt n (by decide : 0 < 16)), Option.map_some,
      Option.pure_def, Option.bind_eq_bind, Option.bind_some, Option.some.injEq]
    change _ = n % (Nat.pow 16 width * 16)
    rw [Nat.mul_comm (Nat.pow 16 width) 16, Nat.mod_mul, Nat.add_comm]

/-- A number that fits is read back from its digits. -/
theorem ofHexDigits?_hexDigits {width n : Nat} (h : n < Nat.pow 16 width) :
    ofHexDigits? (hexDigits width n) = some n := by
  rw [ofHexDigits?_hexDigits_mod, Nat.mod_eq_of_lt h]

end BudgetReaper.Text
