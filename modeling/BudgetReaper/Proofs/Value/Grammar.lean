import BudgetReaper.Proofs.Decimal.Numeral
import BudgetReaper.Value.Reader

/-!
# Values — the grammar of JSON

Which texts denote which values, whoever writes or reads them (`Denotes`): tokens with blanks around
them, each character of a text as it is, escaped or as its UTF-16 units (`Spelled`), integers without
leading zeros (`Numeral`).  Numerals with a fraction or an exponent are left out, and an integer has at
most `Decimal.digitLimit` digits.
-/

namespace BudgetReaper.Value

open BudgetReaper.Text (ofHexDigits?)

/-- Characters that may stand between tokens. -/
def Blanks (cs : List Char) : Prop :=
  ∀ c ∈ cs, isJsonBlank c = true

/-! ### Texts -/

/-- An escape of a UTF-16 unit by its four digits. -/
inductive SpelledUnit (n : Nat) : List Char → Prop
  | escape {digits : List Char} : digits.length = 4 → ofHexDigits? digits = some n →
      SpelledUnit n ('\\' :: 'u' :: digits)

/-- The ways to spell a character of a text. -/
inductive Spelled (c : Char) : List Char → Prop
  /-- As it is; a quote, a backslash and a control character have to be escaped. -/
  | bare : 0x20 ≤ c.toNat → c ≠ '"' → c ≠ '\\' → Spelled c [c]
  /-- An escape of one letter. -/
  | short {d : Char} : shortEscape? d = some c → Spelled c ['\\', d]
  /-- Its unit. -/
  | unit {cs : List Char} : SpelledUnit c.toNat cs → Spelled c cs
  /-- The two halves of its pair. -/
  | pair {high low : Nat} {cs cs' : List Char} : SpelledUnit high cs → SpelledUnit low cs' →
      charOfPair? high low = some c → Spelled c (cs ++ cs')

/-- The second text is what the first one spells. -/
inductive SpelledAll : List Char → List Char → Prop
  | nil : SpelledAll [] []
  | cons {c : Char} {cs written meant : List Char} : Spelled c cs → SpelledAll written meant →
      SpelledAll (cs ++ written) (c :: meant)

/-! ### Numbers -/

/-- Digits without a leading zero, and the number that they denote. -/
structure Digits (cs : List Char) (n : Nat) : Prop where
  denotes : Decimal.Denotes cs n
  plain : ∀ c ∈ cs, c.isDigit = true
  leading : cs.head? = some '0' → cs = ['0']

/-- Digits, with a minus sign in front or none. -/
inductive Numeral : List Char → Int → Prop
  | positive {cs : List Char} {n : Nat} : Digits cs n → Numeral cs n
  | negative {cs : List Char} {n : Nat} : Digits cs n → Numeral ('-' :: cs) (-n)

/-! ### Values -/

/-- What a part of a JSON text denotes. -/
inductive Part where
  /-- A value. -/
  | value (v : Value)
  /-- A value with blanks around it. -/
  | element (v : Value)
  /-- Elements separated by commas. -/
  | elements (vs : List Value)
  /-- A name with blanks around it, a colon and an element. -/
  | member (k : String) (v : Value)
  /-- Members separated by commas. -/
  | members (fields : List (String × Value))

/-- The text denotes the part. -/
inductive Denotes : List Char → Part → Prop
  | null : Denotes "null".toList (.value null)
  | true : Denotes "true".toList (.value (bool true))
  | false : Denotes "false".toList (.value (bool false))
  | int {cs : List Char} {n : Int} : Numeral cs n → Denotes cs (.value (int n))
  | str {cs : List Char} {s : String} : SpelledAll cs s.toList →
      Denotes ('"' :: cs ++ ['"']) (.value (str s))
  | empty {cs : List Char} : Blanks cs → Denotes ('[' :: cs ++ [']']) (.value (list []))
  | list {cs : List Char} {vs : List Value} : Denotes cs (.elements vs) →
      Denotes ('[' :: cs ++ [']']) (.value (list vs))
  | bare {cs : List Char} : Blanks cs → Denotes ('\x7b' :: cs ++ ['\x7d']) (.value (object []))
  | object {cs : List Char} {fields : List (String × Value)} : Denotes cs (.members fields) →
      Denotes ('\x7b' :: cs ++ ['\x7d']) (.value (object fields))
  | element {before cs after : List Char} {v : Value} : Blanks before → Denotes cs (.value v) →
      Blanks after → Denotes (before ++ cs ++ after) (.element v)
  | last {cs : List Char} {v : Value} : Denotes cs (.element v) → Denotes cs (.elements [v])
  | more {cs rest : List Char} {v : Value} {vs : List Value} : Denotes cs (.element v) →
      Denotes rest (.elements vs) → Denotes (cs ++ ',' :: rest) (.elements (v :: vs))
  | member {before name after cs : List Char} {k : String} {v : Value} : Blanks before →
      SpelledAll name k.toList → Blanks after → Denotes cs (.element v) →
      Denotes (before ++ '"' :: name ++ '"' :: after ++ ':' :: cs) (.member k v)
  | lastMember {cs : List Char} {k : String} {v : Value} : Denotes cs (.member k v) →
      Denotes cs (.members [(k, v)])
  | moreMembers {cs rest : List Char} {k : String} {v : Value} {fields : List (String × Value)} :
      Denotes cs (.member k v) → Denotes rest (.members fields) →
      Denotes (cs ++ ',' :: rest) (.members ((k, v) :: fields))

end BudgetReaper.Value
