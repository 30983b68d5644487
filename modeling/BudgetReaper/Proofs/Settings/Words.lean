import Mathlib.Data.List.Forall2
import BudgetReaper.Proofs.Decimal.Numeral
import BudgetReaper.Settings.Environment

/-!
# Settings — what the texts of variables say

A truth value is spelled by one of eight words, with blanks around it and in letters of any size
(`readTruth?_eq_some_iff`).  A list of names is a text with commas: the parts between them, without the
blanks around them and without the empty ones (`names_eq_iff`).  So for each kind of variable it is said
which values its texts have, apart from how they are read (`Kind.Reads`), and what is read is that
(`Kind.read?_eq_some_iff`).
-/

namespace BudgetReaper.Settings

open BudgetReaper.Text

/-! ### Words -/

/-- The text is the word `w`, in letters of any size and with blanks around it. -/
def Spells (raw w : String) : Prop :=
  ∃ before core after, raw.toList = before ++ core ++ after ∧ (∀ c ∈ before, isBlank c = true) ∧
    (∀ c ∈ after, isBlank c = true) ∧ core.map Char.toLower = w.toList

/-- Blanks are no letters. -/
theorem toLower_of_isBlank {c : Char} (h : isBlank c = true) : c.toLower = c := by
  refine dif_neg fun upper => ?_
  have least : 65 ≤ c.toNat := upper.1
  have most : c.toNat ≤ 90 := upper.2
  simp only [isBlank, Bool.or_eq_true, Bool.and_eq_true, decide_eq_true_eq, beq_iff_eq] at h
  omega

/-- A word for a truth value has no blanks. -/
theorem unblank_of_mem {w : String} (h : w ∈ trueWords ++ falseWords) :
    ∀ c ∈ w.toList, ¬ isBlank c = true := by
  have unblank : ∀ w ∈ trueWords ++ falseWords, (w.toList.any isBlank) = false := by decide
  simpa using unblank w h

theorem word_eq_iff {raw w : String} (h : w ∈ trueWords ++ falseWords) :
    word raw = w ↔ Spells raw w := by
  constructor
  · rintro rfl
    obtain ⟨before, after, split, all, all', -⟩ := trim_eq_iff.mp (Eq.refl (trim isBlank raw.toList))
    exact ⟨before, _, after, split, all, all', by rw [word, String.toList_ofList]⟩
  · rintro ⟨before, core, after, split, all, all', same⟩
    have bare : Bare isBlank core := bare_of_none fun c hc blank => by
      have small : c.toLower ∈ w.toList := same ▸ List.mem_map_of_mem hc
      rw [toLower_of_isBlank blank] at small
      exact unblank_of_mem h c small blank
    rw [word, trim_eq_iff.mpr ⟨before, after, split, all, all', bare⟩, same, String.ofList_toList]

/-- The words for a truth value. -/
def wordsFor (b : Bool) : List String :=
  if b then trueWords else falseWords

theorem mem_words_iff {w : String} : w ∈ trueWords ++ falseWords ↔ ∃ b, w ∈ wordsFor b := by
  rw [List.mem_append, Bool.exists_bool, or_comm]
  rfl

theorem mem_words {w : String} {b : Bool} (h : w ∈ wordsFor b) : w ∈ trueWords ++ falseWords :=
  mem_words_iff.mpr ⟨b, h⟩

/-- An empty text spells no word. -/
theorem not_spells_empty {w : String} (h : w ∈ trueWords ++ falseWords) : ¬ Spells "" w := by
  intro spells
  have filled : ∀ w ∈ trueWords ++ falseWords, w ≠ word "" := by decide
  exact filled w h ((word_eq_iff h).mpr spells).symm

/-- A truth value is read exactly from the texts that spell a word for it. -/
theorem readTruth?_eq_some_iff {raw : String} {b : Bool} :
    readTruth? raw = some b ↔ ∃ w ∈ wordsFor b, Spells raw w := by
  have known (b : Bool) : (∃ w ∈ wordsFor b, Spells raw w) ↔ word raw ∈ wordsFor b := by
    constructor
    · rintro ⟨w, hw, spells⟩
      exact (word_eq_iff (mem_words hw)).mpr spells ▸ hw
    · intro hw
      exact ⟨_, hw, (word_eq_iff (mem_words hw)).mp rfl⟩
  have apart : ∀ w ∈ trueWords, w ∉ falseWords := by decide
  rw [known, readTruth?]
  simp only [List.contains_iff_mem]
  split
  · next yes => cases b <;> simp [wordsFor, yes, apart _ yes]
  · next no =>
      split
      · next off => cases b <;> simp [wordsFor, no, off]
      · next neither => cases b <;> simp [wordsFor, no, neither]

/-! ### Lists of names -/

/-- The text lists the names: they are its parts between commas, without the blanks around them and
without the empty ones. -/
def Lists (raw : String) (names : List String) : Prop :=
  ∃ parts cores, parts ≠ [] ∧ raw.toList = [','].intercalate parts ∧ (∀ part ∈ parts, ',' ∉ part) ∧
    List.Forall₂ (Surrounds isBlank) parts cores ∧
    names = (cores.filter (· ≠ [])).map String.ofList

theorem splitAt_eq_splitOn (sep : Char) (cs : List Char) : splitAt sep cs = cs.splitOn sep := by
  induction cs with
  | nil => rfl
  | cons c rest ih =>
      rw [splitAt, ih, List.splitOn_cons_eq_if_modifyHead]
      simp only [beq_iff_eq]
      split
      · rfl
      · cases parts : rest.splitOn sep with
        | nil => exact absurd parts (List.splitOn_ne_nil sep rest)
        | cons part parts => rfl

/-- The separator is in no part. -/
theorem not_mem_of_mem_splitAt {sep : Char} {cs part : List Char} (h : part ∈ splitAt sep cs) :
    sep ∉ part := by
  induction cs generalizing part with
  | nil => simp_all [splitAt]
  | cons c rest ih =>
      rw [splitAt] at h
      split at h
      · rcases List.mem_cons.mp h with rfl | h
        · exact List.not_mem_nil
        · exact ih h
      · next apart =>
          split at h
          · simpa [List.mem_singleton.mp h] using Ne.symm apart
          · next first parts split =>
              rcases List.mem_cons.mp h with rfl | h
              · have free := ih (split ▸ List.mem_cons_self)
                exact fun hm => (List.mem_cons.mp hm).elim (fun same => apart same.symm) free
              · exact ih (split ▸ List.mem_cons_of_mem _ h)

theorem forall₂_surrounds_iff {p : Char → Bool} {parts cores : List (List Char)} :
    List.Forall₂ (Surrounds p) parts cores ↔ parts.map (trim p) = cores := by
  rw [← List.forall₂_eq_eq_eq, List.forall₂_map_left_iff]
  simp only [trim_eq_iff]

/-- Names are read exactly from the texts that list them. -/
theorem names_eq_iff {raw : String} {ns : List String} : names raw = ns ↔ Lists raw ns := by
  have kept (cores : List (List Char)) :
      (cores.filterMap fun name => if name.isEmpty then none else some (String.ofList name)) =
        (cores.filter (· ≠ [])).map String.ofList := by
    induction cores with
    | nil => rfl
    | cons core rest ih =>
        cases core with
        | nil => exact ih
        | cons c cs => exact congrArg (String.ofList (c :: cs) :: ·) ih
  rw [names, kept]
  constructor
  · rintro rfl
    refine ⟨splitAt ',' raw.toList, _, ?_, ?_, fun _ => not_mem_of_mem_splitAt,
      forall₂_surrounds_iff.mpr rfl, rfl⟩
    · rw [splitAt_eq_splitOn]
      exact List.splitOn_ne_nil ',' _
    · rw [splitAt_eq_splitOn, List.intercalate_splitOn]
  · rintro ⟨parts, cores, filled, split, free, around, rfl⟩
    rw [← forall₂_surrounds_iff.mp around, split, splitAt_eq_splitOn,
      List.splitOn_intercalate ',' free filled]

/-! ### Kinds of variables -/

/-- How the text of a variable is read. -/
inductive Kind where
  | truth
  | integer
  | text
  | names
  deriving DecidableEq, Repr

namespace Kind

/-- What the text of a variable says. -/
inductive Reads : Kind → String → Value → Prop where
  | truth {raw w : String} {b : Bool} (word : w ∈ wordsFor b) (spells : Spells raw w) :
      Reads .truth raw (.bool b)
  | integer {raw : String} {n : Int} (writes : Decimal.Writes raw.toList n) :
      Reads .integer raw (.int n)
  | text (raw : String) : Reads .text raw (.str raw)
  | names {raw : String} {ns : List String} (lists : Lists raw ns) : Reads .names raw (.texts ns)

/-- The text says something of the kind: one of the eight words, or an integer; where a text or a list of
names is sought, every text says something. -/
def Admits : Kind → String → Prop
  | .truth, raw => ∃ w ∈ trueWords ++ falseWords, Spells raw w
  | .integer, raw => ∃ n, Decimal.Writes raw.toList n
  | .text, _ | .names, _ => True

theorem admits_iff {kind : Kind} {raw : String} : kind.Admits raw ↔ ∃ v, kind.Reads raw v := by
  cases kind with
  | truth =>
      constructor
      · rintro ⟨w, known, spells⟩
        obtain ⟨b, word⟩ := mem_words_iff.mp known
        exact ⟨_, .truth word spells⟩
      · rintro ⟨_, ⟨word, spells⟩⟩
        exact ⟨_, mem_words word, spells⟩
  | integer =>
      constructor
      · rintro ⟨n, writes⟩
        exact ⟨_, .integer writes⟩
      · rintro ⟨_, _ | writes⟩
        exact ⟨_, writes⟩
  | text => exact iff_of_true trivial ⟨_, .text raw⟩
  | names => exact iff_of_true trivial ⟨_, .names (names_eq_iff.mp rfl)⟩

/-- What is read from the text of a variable. -/
def read? : Kind → String → Option Value
  | .truth, raw => (readTruth? raw).map .bool
  | .integer, raw => (Decimal.readInt? raw.toList).map .int
  | .text, raw => some (.str raw)
  | .names, raw => some (.texts (Settings.names raw))

/-- What is read is what the text says. -/
theorem read?_eq_some_iff {kind : Kind} {raw : String} {v : Value} :
    kind.read? raw = some v ↔ kind.Reads raw v := by
  cases kind with
  | truth =>
      rw [read?, Option.map_eq_some_iff]
      simp only [readTruth?_eq_some_iff]
      constructor
      · rintro ⟨b, ⟨w, word, spells⟩, rfl⟩
        exact .truth word spells
      · rintro ⟨word, spells⟩
        exact ⟨_, ⟨_, word, spells⟩, rfl⟩
  | integer =>
      rw [read?, Option.map_eq_some_iff]
      simp only [Decimal.readInt?_eq_some_iff]
      constructor
      · rintro ⟨n, writes, rfl⟩
        exact .integer writes
      · rintro (_ | writes)
        exact ⟨_, writes, rfl⟩
  | text =>
      rw [read?, Option.some_inj]
      constructor
      · rintro rfl
        exact .text raw
      · rintro ⟨⟩
        rfl
  | names =>
      rw [read?, Option.some_inj]
      constructor
      · rintro rfl
        exact .names (names_eq_iff.mp rfl)
      · rintro (_ | _ | _ | lists)
        rw [names_eq_iff.mpr lists]

end Kind

end BudgetReaper.Settings
