import BudgetReaper.Value.Json

/-!
# Values — reading JSON text

`read?` reads the JSON text of one value.  Blanks may surround every token.  A numeral with a
fraction or an exponent is the nearest double, every other numeral an integer of any size.  Two
escaped units of a surrogate pair give one character; a unit that is half of a pair is refused.
-/

namespace BudgetReaper.Value

open BudgetReaper.Text (ofHexDigits?)

/-- A character that may stand between tokens. -/
def isJsonBlank (c : Char) : Bool :=
  c == ' ' || c == '\t' || c == '\n' || c == '\r'

/-- What follows the blanks in front. -/
def skipBlanks (cs : List Char) : List Char :=
  cs.dropWhile isJsonBlank

/-! ### Texts -/

/-- The character of an escape of one letter. -/
def shortEscape? : Char → Option Char
  | '"' => some '"'
  | '\\' => some '\\'
  | '/' => some '/'
  | 'b' => some '\x08'
  | 'f' => some '\x0c'
  | 'n' => some '\n'
  | 'r' => some '\r'
  | 't' => some '\t'
  | _ => none

/-- The character of a code point. -/
def charOf? (n : Nat) : Option Char :=
  if h : n.isValidChar then some (Char.ofNatAux n h) else none

/-- The character that two units of a surrogate pair denote. -/
def charOfPair? (high low : Nat) : Option Char :=
  if 0xD800 ≤ high ∧ high < 0xDC00 ∧ 0xDC00 ≤ low ∧ low < 0xE000 then
    charOf? (0x10000 + (high - 0xD800) * 0x400 + (low - 0xDC00))
  else none

/-- The UTF-16 unit of the escape in front, and what follows it. -/
def readUnit? : List Char → Option (Nat × List Char)
  | '\\' :: 'u' :: a :: b :: c :: d :: rest => (ofHexDigits? [a, b, c, d]).map (·, rest)
  | _ => none

/-- The character that the escaped units in front denote, and what follows them. -/
def readUnits? (cs : List Char) : Option (Char × List Char) := do
  let (unit, rest) ← readUnit? cs
  match charOf? unit with
  | some c => some (c, rest)
  | none =>
    let (low, rest) ← readUnit? rest
    (charOfPair? unit low).map (·, rest)

/-- The character in front, its escape resolved, and what follows it. -/
def readChar? : List Char → Option (Char × List Char)
  | [] => none
  | ['\\'] => none
  | '\\' :: c :: rest =>
    if c = 'u' then readUnits? ('\\' :: c :: rest) else (shortEscape? c).map (·, rest)
  | c :: rest => some (c, rest)

theorem readUnit?_shorter {cs rest : List Char} {n : Nat} (h : readUnit? cs = some (n, rest)) :
    rest.length < cs.length := by
  unfold readUnit? at h
  split at h
  · simp only [Option.map_eq_some_iff, Prod.mk.injEq] at h
    obtain ⟨_, _, _, rfl⟩ := h
    simp only [List.length_cons]
    omega
  · cases h

theorem readUnits?_shorter {cs rest : List Char} {c : Char}
    (h : readUnits? cs = some (c, rest)) : rest.length < cs.length := by
  simp only [readUnits?, Option.bind_eq_bind, Option.bind_eq_some_iff, Prod.exists] at h
  obtain ⟨unit, rest₁, h₁, h⟩ := h
  have first := readUnit?_shorter h₁
  split at h
  · cases h; exact first
  · simp only [Option.bind_eq_some_iff, Prod.exists, Option.map_eq_some_iff, Prod.mk.injEq] at h
    obtain ⟨low, rest₂, h₂, _, _, _, rfl⟩ := h
    exact Nat.lt_trans (readUnit?_shorter h₂) first

theorem readChar?_shorter {cs rest : List Char} {c : Char} (h : readChar? cs = some (c, rest)) :
    rest.length < cs.length := by
  unfold readChar? at h
  split at h
  · cases h
  · cases h
  · split at h
    · exact readUnits?_shorter h
    · simp only [Option.map_eq_some_iff, Prod.mk.injEq] at h
      obtain ⟨_, _, _, rfl⟩ := h
      simp only [List.length_cons]
      omega
  · cases h; simp

/-- The characters of a text up to its closing quote, after those of `done` in reverse, and what
follows the quote. -/
def readText? (done : List Char) (cs : List Char) : Option (List Char × List Char) :=
  match cs with
  | '"' :: rest => some (done.reverse, rest)
  | cs =>
    match _h : readChar? cs with
    | some (c, rest) => readText? (c :: done) rest
    | none => none
termination_by cs.length
decreasing_by exact readChar?_shorter _h

/-! ### Numbers -/

/-- A character of a numeral. -/
def isNumeralChar (c : Char) : Bool :=
  c.isDigit || c == '-' || c == '+' || c == '.' || c == 'e' || c == 'E'

/-- The number in front and what follows it. -/
def readNumber? (cs : List Char) : Option (Value × List Char) :=
  let numeral := cs.takeWhile isNumeralChar
  let rest := cs.dropWhile isNumeralChar
  if numeral.any fun c => c == '.' || c == 'e' || c == 'E' then
    (Binary64.read? numeral).map (float ·, rest)
  else
    (Decimal.readInt? numeral).map (int ·, rest)

/-! ### Values -/

mutual

/-- The value in front and what follows it, in at most `fuel` nested steps. -/
def readValue? : (fuel : Nat) → List Char → Option (Value × List Char)
  | 0, _ => none
  | fuel + 1, cs =>
    match skipBlanks cs with
    | 'n' :: 'u' :: 'l' :: 'l' :: rest => some (null, rest)
    | 't' :: 'r' :: 'u' :: 'e' :: rest => some (bool true, rest)
    | 'f' :: 'a' :: 'l' :: 's' :: 'e' :: rest => some (bool false, rest)
    | '"' :: rest => (readText? [] rest).map fun (s, rest) => (str (String.ofList s), rest)
    | '[' :: rest =>
      match skipBlanks rest with
      | ']' :: rest => some (list [], rest)
      | rest => (readItems? fuel rest).map fun (items, rest) => (list items, rest)
    | '\x7b' :: rest =>
      match skipBlanks rest with
      | '\x7d' :: rest => some (object [], rest)
      | rest => (readFields? fuel rest).map fun (fields, rest) => (object fields, rest)
    | cs => readNumber? cs

/-- The items of a list up to its closing bracket, and what follows it. -/
def readItems? : (fuel : Nat) → List Char → Option (List Value × List Char)
  | 0, _ => none
  | fuel + 1, cs => do
    let (v, rest) ← readValue? fuel cs
    match skipBlanks rest with
    | ',' :: rest =>
      let (vs, rest) ← readItems? fuel rest
      some (v :: vs, rest)
    | ']' :: rest => some ([v], rest)
    | _ => none

/-- The fields of an object up to its closing brace, and what follows it. -/
def readFields? : (fuel : Nat) → List Char → Option (List (String × Value) × List Char)
  | 0, _ => none
  | fuel + 1, cs =>
    match skipBlanks cs with
    | '"' :: rest => do
      let (k, rest) ← readText? [] rest
      match skipBlanks rest with
      | ':' :: rest =>
        let (v, rest) ← readValue? fuel rest
        match skipBlanks rest with
        | ',' :: rest =>
          let (fields, rest) ← readFields? fuel rest
          some ((String.ofList k, v) :: fields, rest)
        | '\x7d' :: rest => some ([(String.ofList k, v)], rest)
        | _ => none
      | _ => none
    | _ => none

end

/-- The value that a JSON text denotes; `none` if it is not the text of one value. -/
def read? (s : String) : Option Value :=
  match readValue? (s.length + 1) s.toList with
  | some (v, rest) => if (skipBlanks rest).isEmpty then some v else none
  | none => none

end BudgetReaper.Value
