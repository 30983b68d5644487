import BudgetReaper.Proofs.Decimal.Writing
import BudgetReaper.Proofs.Value.Grammar

/-!
# Values — what is written

What every JSON text can hold is plain (`Plain`).

**Writing** (`denotes_jsonChars`, `printable_jsonChars`).  The text of a plain value denotes it, and it
consists of the characters from the space to the tilde, whatever the texts and the names in it hold.
-/

namespace BudgetReaper.Value

open BudgetReaper.Text (hexDigits length_hexDigits ofHexDigits?_hexDigits)

/-- Nothing in the value is beyond a JSON text: its integers have numerals, it holds no double, and the
fields of its objects have distinct names. -/
inductive Plain : Value → Prop
  | null : Plain null
  | bool (b : Bool) : Plain (bool b)
  | int {n : Int} : Decimal.Fits n → Plain (int n)
  | str (s : String) : Plain (str s)
  | list {items : List Value} : (∀ v ∈ items, Plain v) → Plain (list items)
  | object {fields : List (String × Value)} :
      (fields.map Prod.fst).Nodup → (∀ f ∈ fields, Plain f.2) → Plain (object fields)

theorem plain_list {items : List Value} : (list items).Plain ↔ ∀ v ∈ items, v.Plain :=
  ⟨fun | .list plain => plain, .list⟩

theorem plain_object {fields : List (String × Value)} :
    (object fields).Plain ↔ (fields.map Prod.fst).Nodup ∧ ∀ f ∈ fields, f.2.Plain :=
  ⟨fun | .object distinct plain => ⟨distinct, plain⟩, fun h => .object h.1 h.2⟩

/-! ### Printable text -/

/-- A character from the space to the tilde. -/
def IsAsciiPrintable (c : Char) : Prop :=
  0x20 ≤ c.toNat ∧ c.toNat ≤ 0x7E

instance (c : Char) : Decidable (IsAsciiPrintable c) :=
  inferInstanceAs (Decidable (_ ∧ _))

theorem isAsciiPrintable_of_isDigit {c : Char} (h : c.isDigit = true) : IsAsciiPrintable c := by
  have bounds : 0x30 ≤ c.toNat ∧ c.toNat ≤ 0x39 := Char.isDigit_iff_toNat.mp h
  exact ⟨by omega, by omega⟩

theorem printable_of_all {cs : List Char} (h : cs.all (IsAsciiPrintable ·) = true) :
    ∀ c ∈ cs, IsAsciiPrintable c :=
  fun c hc => of_decide_eq_true (List.all_eq_true.mp h c hc)

theorem printable_hexDigits (width n : Nat) : ∀ c ∈ hexDigits width n, IsAsciiPrintable c := by
  have digit : ∀ d < 16, IsAsciiPrintable (Nat.digitChar d) := by decide
  induction width generalizing n with
  | zero => exact List.forall_mem_nil _
  | succ width ih =>
      exact List.forall_mem_append.mpr
        ⟨ih (n / 16), List.forall_mem_singleton.mpr (digit _ (Nat.mod_lt n (by decide)))⟩

theorem printable_escapedUnit (n : Nat) : ∀ c ∈ escapedUnit n, IsAsciiPrintable c := by
  simp only [escapedUnit, List.forall_mem_cons]
  exact ⟨by decide, by decide, printable_hexDigits 4 n⟩

/-! ### Texts -/

theorem toNat_lt (c : Char) : c.toNat < 0x110000 := by
  have valid := c.valid
  simp only [UInt32.isValidChar, Nat.isValidChar] at valid
  change c.val.toNat < _
  omega

theorem charOf?_toNat (c : Char) : charOf? c.toNat = some c := by
  rw [charOf?, dif_pos (show c.toNat.isValidChar from c.valid)]
  rfl

/-- A character beyond the first plane is denoted by its two units. -/
theorem charOfPair?_units {c : Char} (h : 0x10000 ≤ c.toNat) :
    charOfPair? (0xD800 + (c.toNat - 0x10000) / 0x400) (0xDC00 + (c.toNat - 0x10000) % 0x400) =
      some c := by
  have bound := toNat_lt c
  have whole : 0x10000 + (0xD800 + (c.toNat - 0x10000) / 0x400 - 0xD800) * 0x400 +
      (0xDC00 + (c.toNat - 0x10000) % 0x400 - 0xDC00) = c.toNat := by omega
  rw [charOfPair?, if_pos (by omega), whole, charOf?_toNat]

theorem spelledUnit_escapedUnit {n : Nat} (h : n < 0x10000) : SpelledUnit n (escapedUnit n) :=
  .escape (length_hexDigits 4 n) (ofHexDigits?_hexDigits h)

/-- What is written of a character spells it, and is printable. -/
theorem spelled_jsonChar (c : Char) :
    Spelled c (jsonChar c) ∧ ∀ d ∈ jsonChar c, IsAsciiPrintable d := by
  have short {d : Char} (escape : shortEscape? d = some c) (printable : IsAsciiPrintable d) :
      Spelled c ['\\', d] ∧ ∀ d' ∈ ['\\', d], IsAsciiPrintable d' :=
    ⟨.short escape, by simpa only [List.forall_mem_cons] using
      ⟨by decide, printable, List.forall_mem_nil _⟩⟩
  -- Named, so that what is written stands in one place only when the cases are split.
  generalize written : jsonChar c = cs
  unfold jsonChar at written
  split_ifs at written with quote slash newline ret tab form back plain small <;> subst written
  case pos | pos | pos | pos | pos | pos | pos =>
    all_goals exact short (by subst c; rfl) (by decide)
  · exact ⟨.bare plain.1 quote slash, List.forall_mem_singleton.mpr ⟨plain.1, by omega⟩⟩
  · exact ⟨.unit (spelledUnit_escapedUnit small), printable_escapedUnit _⟩
  · have bound := toNat_lt c
    have denotes := charOfPair?_units (Nat.le_of_not_lt small)
    exact ⟨.pair (spelledUnit_escapedUnit (by omega)) (spelledUnit_escapedUnit (by omega)) denotes,
      List.forall_mem_append.mpr ⟨printable_escapedUnit _, printable_escapedUnit _⟩⟩

theorem spelledAll_flatMap (cs : List Char) : SpelledAll (cs.flatMap jsonChar) cs := by
  induction cs with
  | nil => exact .nil
  | cons c cs ih => exact .cons (spelled_jsonChar c).1 ih

theorem printable_jsonText (s : String) : ∀ c ∈ jsonText s, IsAsciiPrintable c := by
  simp only [jsonText, List.cons_append, List.forall_mem_cons, List.forall_mem_append,
    List.forall_mem_flatMap]
  exact ⟨by decide, fun c _ => (spelled_jsonChar c).2, by decide, List.forall_mem_nil _⟩

/-! ### Numbers -/

theorem digits_ofNat {n : Nat} (fits : Decimal.length n ≤ Decimal.digitLimit) :
    Digits (Decimal.ofNat n) n where
  denotes := Decimal.denotes_ofNat fits
  plain _ := Decimal.isDigit_of_mem_ofNat
  leading := Decimal.ofNat_eq_of_head?

theorem numeral_ofInt {n : Int} (fits : Decimal.Fits n) : Numeral (Decimal.ofInt n) n := by
  cases n with
  | ofNat n => exact .positive (digits_ofNat fits)
  | negSucc n => exact .negative (digits_ofNat fits)

theorem printable_ofInt (n : Int) : ∀ c ∈ Decimal.ofInt n, IsAsciiPrintable c := by
  intro c h
  rcases Decimal.mem_ofInt h with rfl | digit
  · decide
  · exact isAsciiPrintable_of_isDigit digit

/-! ### Lists -/

theorem blanks_nil : Blanks [] :=
  List.forall_mem_nil _

/-- A value is an element with nothing around it. -/
theorem Denotes.alone {cs : List Char} {v : Value} (h : Denotes cs (.value v)) :
    Denotes cs (.element v) := by
  simpa using Denotes.element blanks_nil h blanks_nil

/-- A blank may stand in front of an element. -/
theorem Denotes.blank_element {cs : List Char} {v : Value} (h : Denotes cs (.element v)) :
    Denotes (' ' :: cs) (.element v) := by
  cases h with
  | @element before cs after _ blanks value blanks' =>
      have more : Blanks (' ' :: before) := List.forall_mem_cons.mpr ⟨rfl, blanks⟩
      exact .element more value blanks'

theorem Denotes.blank_elements {cs : List Char} {vs : List Value} (h : Denotes cs (.elements vs)) :
    Denotes (' ' :: cs) (.elements vs) := by
  cases h with
  | last first => exact .last first.blank_element
  | more first rest => exact .more first.blank_element rest

theorem jsonItems_cons (v : Value) {items : List Value} (h : items ≠ []) :
    jsonItems (v :: items) = v.jsonChars ++ ',' :: ' ' :: jsonItems items := by
  cases items with
  | nil => exact absurd rfl h
  | cons => rfl

/-- The items of a list, the last one apart. -/
theorem denotes_jsonItems {items : List Value} (filled : items ≠ [])
    (denotes : ∀ v ∈ items, Denotes v.jsonChars (.value v)) :
    Denotes (jsonItems items) (.elements items) := by
  induction items with
  | nil => exact absurd rfl filled
  | cons v items ih =>
      obtain ⟨here, later⟩ := List.forall_mem_cons.mp denotes
      by_cases last : items = []
      · subst last
        exact .last here.alone
      · rw [jsonItems_cons v last]
        exact .more here.alone (ih last later).blank_elements

theorem printable_jsonItems {items : List Value}
    (printable : ∀ v ∈ items, ∀ c ∈ v.jsonChars, IsAsciiPrintable c) :
    ∀ c ∈ jsonItems items, IsAsciiPrintable c := by
  induction items with
  | nil => exact List.forall_mem_nil _
  | cons v items ih =>
      obtain ⟨here, later⟩ := List.forall_mem_cons.mp printable
      by_cases last : items = []
      · subst last
        exact here
      · simp only [jsonItems_cons v last, List.forall_mem_append, List.forall_mem_cons]
        exact ⟨here, by decide, by decide, ih later⟩

/-! ### Objects -/

theorem Denotes.blank_member {cs : List Char} {k : String} {v : Value}
    (h : Denotes cs (.member k v)) : Denotes (' ' :: cs) (.member k v) := by
  cases h with
  | @member before name after cs _ _ blanks spelled blanks' value =>
      have more : Blanks (' ' :: before) := List.forall_mem_cons.mpr ⟨rfl, blanks⟩
      exact .member more spelled blanks' value

theorem Denotes.blank_members {cs : List Char} {fields : List (String × Value)}
    (h : Denotes cs (.members fields)) : Denotes (' ' :: cs) (.members fields) := by
  cases h with
  | lastMember first => exact .lastMember first.blank_member
  | moreMembers first rest => exact .moreMembers first.blank_member rest

theorem denotes_member (k : String) {v : Value} (h : Denotes v.jsonChars (.value v)) :
    Denotes (jsonText k ++ ':' :: ' ' :: v.jsonChars) (.member k v) :=
  .member blanks_nil (spelledAll_flatMap k.toList) blanks_nil h.alone.blank_element

theorem jsonFields_cons (k : String) (v : Value) {fields : List (String × Value)} (h : fields ≠ []) :
    jsonFields ((k, v) :: fields) =
      jsonText k ++ ':' :: ' ' :: v.jsonChars ++ ',' :: ' ' :: jsonFields fields := by
  cases fields with
  | nil => exact absurd rfl h
  | cons => rfl

/-- The fields of an object, the last one apart. -/
theorem denotes_jsonFields {fields : List (String × Value)} (filled : fields ≠ [])
    (denotes : ∀ f ∈ fields, Denotes f.2.jsonChars (.value f.2)) :
    Denotes (jsonFields fields) (.members fields) := by
  induction fields with
  | nil => exact absurd rfl filled
  | cons f fields ih =>
      obtain ⟨k, v⟩ := f
      obtain ⟨here, later⟩ := List.forall_mem_cons.mp denotes
      by_cases last : fields = []
      · subst last
        exact .lastMember (denotes_member k here)
      · rw [jsonFields_cons k v last]
        exact .moreMembers (denotes_member k here) (ih last later).blank_members

theorem printable_jsonFields {fields : List (String × Value)}
    (printable : ∀ f ∈ fields, ∀ c ∈ f.2.jsonChars, IsAsciiPrintable c) :
    ∀ c ∈ jsonFields fields, IsAsciiPrintable c := by
  induction fields with
  | nil => exact List.forall_mem_nil _
  | cons f fields ih =>
      obtain ⟨k, v⟩ := f
      obtain ⟨here, later⟩ := List.forall_mem_cons.mp printable
      have name := printable_jsonText k
      by_cases last : fields = []
      · subst last
        simp only [jsonFields, List.forall_mem_append, List.forall_mem_cons]
        exact ⟨name, by decide, by decide, here⟩
      · simp only [jsonFields_cons k v last, List.forall_mem_append, List.forall_mem_cons]
        exact ⟨⟨name, by decide, by decide, here⟩, by decide, by decide, ih later⟩

/-! ### Values -/

/-- The text of a plain value denotes it. -/
theorem denotes_jsonChars {v : Value} (plain : v.Plain) : Denotes v.jsonChars (.value v) := by
  induction plain with
  | null => exact .null
  | bool b => cases b <;> constructor
  | int fits => exact .int (numeral_ofInt fits)
  | str s => exact .str (spelledAll_flatMap s.toList)
  | @list items _ ih =>
      by_cases empty : items = []
      · subst empty
        exact .empty blanks_nil
      · exact .list (denotes_jsonItems empty ih)
  | @object fields _ _ ih =>
      by_cases empty : fields = []
      · subst empty
        exact .bare blanks_nil
      · exact .object (denotes_jsonFields empty ih)

/-- The text of a plain value is printable, whatever its texts hold. -/
theorem printable_jsonChars {v : Value} (plain : v.Plain) :
    ∀ c ∈ v.jsonChars, IsAsciiPrintable c := by
  induction plain with
  | null => exact printable_of_all rfl
  | bool b => cases b <;> exact printable_of_all rfl
  | int _ => exact printable_ofInt _
  | str s => exact printable_jsonText s
  | list _ ih =>
      simp only [jsonChars, List.cons_append, List.forall_mem_cons, List.forall_mem_append]
      exact ⟨by decide, printable_jsonItems ih, by decide, List.forall_mem_nil _⟩
  | object _ _ ih =>
      simp only [jsonChars, List.cons_append, List.forall_mem_cons, List.forall_mem_append]
      exact ⟨by decide, printable_jsonFields ih, by decide, List.forall_mem_nil _⟩

end BudgetReaper.Value
