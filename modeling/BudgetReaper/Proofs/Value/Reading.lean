import BudgetReaper.Proofs.Value.Writing

/-!
# Values — reading what the grammar allows

Each reader takes what denotes its part and leaves what follows: a character however it is spelled
(`Spelled.read`), a text up to its closing quote (`SpelledAll.read`), an integer up to what ends its
numeral (`Numeral.read`), and so on by induction on the grammar (`reads_of_denotes`).  A part needs no more
steps than its text has characters, since each level of nesting takes a bracket.

**Reading** (`read?_of_denotes`).  A text that denotes a value, with blanks around it or none, is read as
that value.

**Reading back** (`read?_json`).  So is the JSON text of a plain value.
-/

namespace BudgetReaper.Value

/-! ### Characters -/

/-- A unit that is half of a pair is no character. -/
theorem charOf?_eq_none {n : Nat} (low : 0xD800 ≤ n) (high : n < 0xE000) : charOf? n = none := by
  rw [charOf?, dif_neg]
  rintro (h | h) <;> omega

/-- What stands in front of another unit that it makes a character with is none itself. -/
theorem charOf?_of_charOfPair? {high low : Nat} {c : Char} (denotes : charOfPair? high low = some c) :
    charOf? high = none := by
  rw [charOfPair?] at denotes
  split at denotes
  · next halves => exact charOf?_eq_none halves.1 (Nat.lt_trans halves.2.1 (by decide))
  · cases denotes

theorem SpelledUnit.read {n : Nat} {cs : List Char} (h : SpelledUnit n cs) (tail : List Char) :
    readUnit? (cs ++ tail) = some (n, tail) := by
  cases h with
  | escape four denotes =>
      obtain ⟨a, b, c, d, rfl⟩ := List.length_eq_four.mp four
      simp [readUnit?, denotes]

theorem SpelledUnit.begins {n : Nat} {cs : List Char} (h : SpelledUnit n cs) :
    ∃ rest, cs = '\\' :: 'u' :: rest := by
  cases h with
  | escape => exact ⟨_, rfl⟩

/-- Where a unit begins, units are read. -/
theorem SpelledUnit.readChar? {n : Nat} {cs : List Char} (h : SpelledUnit n cs) (tail : List Char) :
    readChar? (cs ++ tail) = readUnits? (cs ++ tail) := by
  obtain ⟨rest, rfl⟩ := h.begins
  rfl

/-- A character is read back, however it is spelled. -/
theorem Spelled.read {c : Char} {cs : List Char} (h : Spelled c cs) (tail : List Char) :
    readChar? (cs ++ tail) = some (c, tail) := by
  cases h with
  | bare _ _ slash => simp [readChar?, slash]
  | @short d escape =>
      have letter : d ≠ 'u' := by
        rintro rfl
        cases escape
      simp [readChar?, letter, escape]
  | unit spelled =>
      rw [spelled.readChar?, readUnits?, spelled.read]
      simp [charOf?_toNat]
  | pair high low denotes =>
      rw [List.append_assoc, high.readChar?, readUnits?, high.read]
      simp [charOf?_of_charOfPair? denotes, low.read, denotes]

example (tail : List Char) :
    readChar? ('\\' :: 'u' :: 'd' :: '8' :: '3' :: 'd' :: '\\' :: 'u' :: 'd' :: 'e' :: '0' :: '0' :: tail) =
      some ('😀', tail) := by
  rfl

/-! ### Texts -/

/-- What spells a character has no bare quote in front. -/
theorem Spelled.head {c : Char} {cs : List Char} (h : Spelled c cs) :
    ∃ d rest, cs = d :: rest ∧ d ≠ '"' := by
  cases h with
  | bare _ quote => exact ⟨c, [], rfl, quote⟩
  | short => exact ⟨'\\', _, rfl, by decide⟩
  | unit spelled =>
      obtain ⟨rest, rfl⟩ := spelled.begins
      exact ⟨'\\', _, rfl, by decide⟩
  | pair spelled =>
      obtain ⟨rest, rfl⟩ := spelled.begins
      exact ⟨'\\', _, rfl, by decide⟩

/-- A text is read up to its closing quote. -/
theorem SpelledAll.read {written meant : List Char} (h : SpelledAll written meant)
    (done rest : List Char) :
    readText? done (written ++ '"' :: rest) = some (done.reverse ++ meant, rest) := by
  induction h generalizing done with
  | nil => simp [readText?]
  | @cons c cs written meant spelled _ ih =>
      obtain ⟨d, ds, rfl, bare⟩ := spelled.head
      have read := spelled.read (written ++ '"' :: rest)
      rw [List.append_assoc, readText?.eq_def]
      split
      · next heads => exact absurd (List.cons.inj heads).1 bare
      · split
        · next found =>
            obtain ⟨rfl, rfl⟩ := Prod.mk.inj (Option.some.inj (found.symm.trans read))
            rw [ih, List.reverse_cons, List.append_assoc]
            rfl
        · next missing =>
            rw [read] at missing
            cases missing

/-! ### Numbers -/

/-- What follows does not go on with a numeral. -/
def Ends (rest : List Char) : Prop :=
  ∀ c ∈ rest.head?, isNumeralChar c = false

theorem ends_nil : Ends [] :=
  nofun

theorem ends_cons {c : Char} (h : isNumeralChar c = false) (rest : List Char) : Ends (c :: rest) := by
  intro d hd
  cases hd
  exact h

section

variable {cs rest : List Char} (inside : ∀ c ∈ cs, isNumeralChar c = true) (ends : Ends rest)

include inside ends

theorem takeWhile_append_of_ends : (cs ++ rest).takeWhile isNumeralChar = cs := by
  rw [List.takeWhile_append_of_pos inside]
  cases rest with
  | nil => simp
  | cons c rest => simp [ends c rfl]

theorem dropWhile_append_of_ends : (cs ++ rest).dropWhile isNumeralChar = rest := by
  rw [List.dropWhile_append_of_pos inside]
  cases rest with
  | nil => rfl
  | cons c rest => simp [ends c rfl]

end

theorem Numeral.writes {cs : List Char} {n : Int} (h : Numeral cs n) : Decimal.Writes cs n := by
  cases h with
  | positive digits => exact digits.denotes.writes
  | negative digits => exact digits.denotes.writes_neg

theorem Numeral.mem {cs : List Char} {n : Int} (h : Numeral cs n) {c : Char} (hc : c ∈ cs) :
    c = '-' ∨ c.isDigit = true := by
  cases h with
  | positive digits => exact .inr (digits.plain c hc)
  | negative digits =>
      rcases List.mem_cons.mp hc with rfl | hc
      · exact .inl rfl
      · exact .inr (digits.plain c hc)

theorem Numeral.isNumeralChar {cs : List Char} {n : Int} (h : Numeral cs n) :
    ∀ c ∈ cs, isNumeralChar c = true := by
  intro c hc
  rcases h.mem hc with rfl | digit
  · rfl
  · simp [Value.isNumeralChar, digit]

theorem Numeral.ne_nil {cs : List Char} {n : Int} (h : Numeral cs n) : cs ≠ [] := by
  cases h with
  | positive digits =>
      obtain ⟨ds, run, -⟩ := digits.denotes
      obtain ⟨c, rest, _, rfl, -⟩ := run.begins
      exact List.cons_ne_nil c rest
  | negative => exact List.cons_ne_nil _ _

/-- An integer is read up to what ends its numeral. -/
theorem Numeral.read {cs : List Char} {n : Int} (h : Numeral cs n) {rest : List Char}
    (ends : Ends rest) : readNumber? (cs ++ rest) = some (int n, rest) := by
  have whole : cs.any (fun c => c == '.' || c == 'e' || c == 'E') = false := by
    rw [List.any_eq_false]
    intro c hc
    rcases h.mem hc with rfl | digit
    · decide
    · rintro h
      simp only [Bool.or_eq_true, beq_iff_eq] at h
      rcases h with (rfl | rfl) | rfl <;> exact absurd digit (by decide)
  rw [readNumber?, takeWhile_append_of_ends h.isNumeralChar ends,
    dropWhile_append_of_ends h.isNumeralChar ends, whole, Decimal.readInt?_eq_some_iff.mpr h.writes]
  rfl

/-! ### Blanks -/

theorem skipBlanks_cons {c : Char} (h : isJsonBlank c = false) (cs : List Char) :
    skipBlanks (c :: cs) = c :: cs := by
  simp [skipBlanks, h]

theorem Blanks.skip {blanks : List Char} (h : Blanks blanks) (cs : List Char) :
    skipBlanks (blanks ++ cs) = skipBlanks cs :=
  List.dropWhile_append_of_pos h

theorem skipBlanks_skipBlanks (cs : List Char) : skipBlanks (skipBlanks cs) = skipBlanks cs :=
  List.dropWhile_idempotent _ cs

theorem readValue?_skipBlanks (fuel : Nat) (cs : List Char) :
    readValue? fuel (skipBlanks cs) = readValue? fuel cs := by
  cases fuel with
  | zero => rfl
  | succ fuel => rw [readValue?, readValue?, skipBlanks_skipBlanks]

theorem readItems?_skipBlanks (fuel : Nat) (cs : List Char) :
    readItems? fuel (skipBlanks cs) = readItems? fuel cs := by
  cases fuel with
  | zero => rfl
  | succ fuel => rw [readItems?, readItems?, readValue?_skipBlanks]

theorem readFields?_skipBlanks (fuel : Nat) (cs : List Char) :
    readFields? fuel (skipBlanks cs) = readFields? fuel cs := by
  cases fuel with
  | zero => rfl
  | succ fuel => rw [readFields?, readFields?, skipBlanks_skipBlanks]

theorem isJsonBlank_of_isNumeralChar {c : Char} (h : isNumeralChar c = true) :
    isJsonBlank c = false := by
  rw [← Bool.not_eq_true]
  intro blank
  simp only [isJsonBlank, Bool.or_eq_true, beq_iff_eq] at blank
  rcases blank with ((rfl | rfl) | rfl) | rfl <;> exact absurd h (by decide)

/-- A blank ends a numeral. -/
theorem Blanks.ends {blanks rest : List Char} (h : Blanks blanks) (ends : Ends rest) :
    Ends (blanks ++ rest) := by
  cases blanks with
  | nil => exact ends
  | cons c blanks =>
      refine ends_cons ?_ _
      rw [← Bool.not_eq_true]
      intro numeral
      have apart := isJsonBlank_of_isNumeralChar numeral
      rw [h c List.mem_cons_self] at apart
      cases apart

/-! ### Lists and objects -/

/-- Where a numeral begins, a number is read. -/
theorem readValue?_of_isNumeralChar (fuel : Nat) {c : Char} (h : isNumeralChar c = true)
    (cs : List Char) : readValue? (fuel + 1) (c :: cs) = readNumber? (c :: cs) := by
  rw [readValue?, skipBlanks_cons (isJsonBlank_of_isNumeralChar h)]
  split
  case h_7 => rfl
  all_goals
    next heads =>
      obtain ⟨rfl, -⟩ := List.cons.inj heads
      exact absurd h (by decide)

/-- No item begins with the bracket that closes the list. -/
theorem readItems?_bracket (fuel : Nat) (cs : List Char) : readItems? fuel (']' :: cs) = none := by
  cases fuel with
  | zero => rfl
  | succ fuel => cases fuel <;> rfl

/-- No field begins with the brace that closes the object. -/
theorem readFields?_brace (fuel : Nat) (cs : List Char) : readFields? fuel ('\x7d' :: cs) = none := by
  cases fuel <;> rfl

/-- A list is read if its items are. -/
theorem readValue?_list {fuel : Nat} {cs rest : List Char} {items : List Value}
    (h : readItems? fuel cs = some (items, rest)) :
    readValue? (fuel + 1) ('[' :: cs) = some (list items, rest) := by
  obtain ⟨inside, skipped⟩ : ∃ inside, skipBlanks cs = inside := ⟨_, rfl⟩
  rw [← readItems?_skipBlanks, skipped] at h
  rw [readValue?, skipBlanks_cons (by decide)]
  simp only [skipped]
  split
  · rw [readItems?_bracket] at h
    cases h
  · rw [h]
    rfl

/-- An object is read if its fields are. -/
theorem readValue?_object {fuel : Nat} {cs rest : List Char} {fields : List (String × Value)}
    (h : readFields? fuel cs = some (fields, rest)) :
    readValue? (fuel + 1) ('\x7b' :: cs) = some (object fields, rest) := by
  obtain ⟨inside, skipped⟩ : ∃ inside, skipBlanks cs = inside := ⟨_, rfl⟩
  rw [← readFields?_skipBlanks, skipped] at h
  rw [readValue?, skipBlanks_cons (by decide)]
  simp only [skipped]
  split
  · rw [readFields?_brace] at h
    cases h
  · rw [h]
    rfl

/-! ### Parts -/

/-- With enough steps the part in front is read, and what follows it is left.  The closing bracket of a
list and the closing brace of an object are read with what is in them. -/
def Reads (cs : List Char) : Part → Prop
  | .value v => ∀ fuel rest, cs.length < fuel → Ends rest →
      readValue? fuel (cs ++ rest) = some (v, rest)
  | .element v => ∀ fuel rest, cs.length < fuel → Ends rest →
      ∃ left, readValue? fuel (cs ++ rest) = some (v, left) ∧ skipBlanks left = skipBlanks rest
  | .elements vs => ∀ fuel rest, cs.length < fuel →
      readItems? (fuel + 1) (cs ++ ']' :: rest) = some (vs, rest)
  | .member k v => ∀ fuel rest, cs.length < fuel →
      readFields? (fuel + 1) (cs ++ '\x7d' :: rest) = some ([(k, v)], rest) ∧
        readFields? (fuel + 1) (cs ++ ',' :: rest) =
          (readFields? fuel rest).map fun (fields, rest) => ((k, v) :: fields, rest)
  | .members fields => ∀ fuel rest, cs.length < fuel →
      readFields? (fuel + 1) (cs ++ '\x7d' :: rest) = some (fields, rest)

theorem reads_int {cs : List Char} {n : Int} (numeral : Numeral cs n) :
    Reads cs (.value (int n)) := by
  intro fuel rest enough ends
  obtain ⟨fuel, rfl⟩ := Nat.exists_eq_add_one_of_ne_zero (Nat.ne_zero_of_lt enough)
  obtain ⟨c, cs, rfl⟩ := List.exists_cons_of_ne_nil numeral.ne_nil
  rw [List.cons_append, readValue?_of_isNumeralChar fuel (numeral.isNumeralChar c List.mem_cons_self),
    ← List.cons_append, numeral.read ends]

theorem reads_str {cs : List Char} {s : String} (spelled : SpelledAll cs s.toList) :
    Reads ('"' :: cs ++ ['"']) (.value (str s)) := by
  intro fuel rest enough _
  obtain ⟨fuel, rfl⟩ := Nat.exists_eq_add_one_of_ne_zero (Nat.ne_zero_of_lt enough)
  rw [List.append_assoc, List.cons_append, readValue?, skipBlanks_cons (by decide)]
  simp [spelled.read]

theorem reads_empty {cs : List Char} (blanks : Blanks cs) :
    Reads ('[' :: cs ++ [']']) (.value (list [])) := by
  intro fuel rest enough _
  obtain ⟨fuel, rfl⟩ := Nat.exists_eq_add_one_of_ne_zero (Nat.ne_zero_of_lt enough)
  rw [List.append_assoc, List.cons_append, readValue?, skipBlanks_cons (by decide)]
  simp [blanks.skip, skipBlanks_cons, isJsonBlank]

theorem reads_bare {cs : List Char} (blanks : Blanks cs) :
    Reads ('\x7b' :: cs ++ ['\x7d']) (.value (object [])) := by
  intro fuel rest enough _
  obtain ⟨fuel, rfl⟩ := Nat.exists_eq_add_one_of_ne_zero (Nat.ne_zero_of_lt enough)
  rw [List.append_assoc, List.cons_append, readValue?, skipBlanks_cons (by decide)]
  simp [blanks.skip, skipBlanks_cons, isJsonBlank]

theorem reads_list {cs : List Char} {vs : List Value} (h : Reads cs (.elements vs)) :
    Reads ('[' :: cs ++ [']']) (.value (list vs)) := by
  intro fuel rest enough _
  simp only [List.length_append, List.length_cons, List.length_nil] at enough
  obtain ⟨fuel, rfl⟩ : ∃ k, fuel = k + 2 := ⟨fuel - 2, by omega⟩
  have items := h fuel rest (by omega)
  rw [List.append_assoc, List.cons_append]
  exact readValue?_list items

theorem reads_object {cs : List Char} {fields : List (String × Value)}
    (h : Reads cs (.members fields)) : Reads ('\x7b' :: cs ++ ['\x7d']) (.value (object fields)) := by
  intro fuel rest enough _
  simp only [List.length_append, List.length_cons, List.length_nil] at enough
  obtain ⟨fuel, rfl⟩ : ∃ k, fuel = k + 2 := ⟨fuel - 2, by omega⟩
  have items := h fuel rest (by omega)
  rw [List.append_assoc, List.cons_append]
  exact readValue?_object items

theorem reads_element {before cs after : List Char} {v : Value} (blanks : Blanks before)
    (h : Reads cs (.value v)) (blanks' : Blanks after) :
    Reads (before ++ cs ++ after) (.element v) := by
  intro fuel rest enough ends
  simp only [List.length_append] at enough
  have value := h fuel (after ++ rest) (by omega) (blanks'.ends ends)
  refine ⟨after ++ rest, ?_, blanks'.skip rest⟩
  rw [List.append_assoc, List.append_assoc, ← readValue?_skipBlanks, blanks.skip,
    readValue?_skipBlanks, value]

theorem reads_last {cs : List Char} {v : Value} (h : Reads cs (.element v)) :
    Reads cs (.elements [v]) := by
  intro fuel rest enough
  obtain ⟨left, value, skipped⟩ := h fuel (']' :: rest) enough (ends_cons (by decide) rest)
  rw [readItems?, value]
  simp [skipped, skipBlanks_cons, isJsonBlank]

theorem reads_more {cs cs' : List Char} {v : Value} {vs : List Value} (h : Reads cs (.element v))
    (h' : Reads cs' (.elements vs)) : Reads (cs ++ ',' :: cs') (.elements (v :: vs)) := by
  intro fuel rest enough
  simp only [List.length_append, List.length_cons] at enough
  obtain ⟨fuel, rfl⟩ := Nat.exists_eq_add_one_of_ne_zero (Nat.ne_zero_of_lt enough)
  have later := h' fuel rest (by omega)
  obtain ⟨left, value, skipped⟩ :=
    h (fuel + 1) (',' :: cs' ++ ']' :: rest) (by omega) (ends_cons (by decide) _)
  rw [List.append_assoc, readItems?, value]
  simp [skipped, skipBlanks_cons, isJsonBlank, later]

theorem reads_member {before name after cs : List Char} {k : String} {v : Value}
    (blanks : Blanks before) (spelled : SpelledAll name k.toList) (blanks' : Blanks after)
    (h : Reads cs (.element v)) :
    Reads (before ++ '"' :: name ++ '"' :: after ++ ':' :: cs) (.member k v) := by
  intro fuel rest enough
  simp only [List.length_append, List.length_cons] at enough
  have start (tail : List Char) :
      readFields? (fuel + 1) (before ++ '"' :: name ++ '"' :: after ++ ':' :: cs ++ tail) =
        readFields? (fuel + 1) ('"' :: (name ++ '"' :: (after ++ ':' :: (cs ++ tail)))) := by
    simp only [List.append_assoc, List.cons_append]
    rw [← readFields?_skipBlanks, blanks.skip, readFields?_skipBlanks]
  have quote (tail : List Char) : skipBlanks ('"' :: tail) = '"' :: tail :=
    skipBlanks_cons (by decide) tail
  have colon (tail : List Char) : skipBlanks (':' :: tail) = ':' :: tail :=
    skipBlanks_cons (by decide) tail
  constructor
  · obtain ⟨left, value, skipped⟩ :=
      h fuel ('\x7d' :: rest) (by omega) (ends_cons (by decide) rest)
    rw [start, readFields?, quote]
    simp [spelled.read, blanks'.skip, colon, value, skipped, skipBlanks_cons, isJsonBlank]
  · obtain ⟨left, value, skipped⟩ := h fuel (',' :: rest) (by omega) (ends_cons (by decide) rest)
    rw [start, readFields?, quote]
    simp only [spelled.read, blanks'.skip, colon, value, skipped, Option.bind_eq_bind,
      Option.bind_some, skipBlanks_cons (c := ',') (by decide), List.reverse_nil, List.nil_append,
      String.ofList_toList]
    cases readFields? fuel rest <;> rfl

theorem reads_moreMembers {cs cs' : List Char} {k : String} {v : Value}
    {fields : List (String × Value)} (h : Reads cs (.member k v)) (h' : Reads cs' (.members fields)) :
    Reads (cs ++ ',' :: cs') (.members ((k, v) :: fields)) := by
  intro fuel rest enough
  simp only [List.length_append, List.length_cons] at enough
  obtain ⟨fuel, rfl⟩ := Nat.exists_eq_add_one_of_ne_zero (Nat.ne_zero_of_lt enough)
  have later := h' fuel rest (by omega)
  have here := (h (fuel + 1) (cs' ++ '\x7d' :: rest) (by omega)).2
  rw [List.append_assoc, List.cons_append, here, later]
  rfl

/-- Whatever denotes a part is read as that part. -/
theorem reads_of_denotes {cs : List Char} {part : Part} (h : Denotes cs part) : Reads cs part := by
  induction h with
  | null | true | false =>
      intro fuel rest enough _
      obtain ⟨fuel, rfl⟩ := Nat.exists_eq_add_one_of_ne_zero (Nat.ne_zero_of_lt enough)
      rfl
  | int numeral => exact reads_int numeral
  | str spelled => exact reads_str spelled
  | empty blanks => exact reads_empty blanks
  | list _ ih => exact reads_list ih
  | bare blanks => exact reads_bare blanks
  | object _ ih => exact reads_object ih
  | element blanks _ blanks' ih => exact reads_element blanks ih blanks'
  | last _ ih => exact reads_last ih
  | more _ _ ih ih' => exact reads_more ih ih'
  | member blanks spelled blanks' _ ih => exact reads_member blanks spelled blanks' ih
  | lastMember _ ih => exact fun fuel rest enough => (ih fuel rest enough).1
  | moreMembers _ _ ih ih' => exact reads_moreMembers ih ih'

/-- A text that denotes a value is read as that value. -/
theorem read?_of_denotes {s : String} {v : Value} (h : Denotes s.toList (.element v)) :
    read? s = some v := by
  have enough : s.toList.length < s.length + 1 := by
    rw [String.length_toList]
    exact Nat.lt_succ_self _
  obtain ⟨left, value, skipped⟩ := reads_of_denotes h (s.length + 1) [] enough ends_nil
  rw [List.append_nil] at value
  rw [read?, value]
  dsimp only
  rw [skipped]
  rfl

/-- The JSON text of a plain value denotes it. -/
theorem read?_json {v : Value} (plain : v.Plain) : read? v.json = some v := by
  refine read?_of_denotes ?_
  rw [json, String.toList_ofList]
  exact (denotes_jsonChars plain).alone

end BudgetReaper.Value
