import Mathlib.Data.List.TakeWhile
import Mathlib.Data.Multiset.Basic
import BudgetReaper.Cluster.Basic
import BudgetReaper.Text.Lines
import BudgetReaper.Proofs.Selector.Arrangement

/-!
# Selectors — what a query tells

The text of a part of a selector has no comma outside parentheses (`Unparted`), so that a query falls
apart at such commas into the texts of its parts (`pieces_intercalate`).  What follows the plain
characters at its start tells what kind of part it is (`readPiece_part`).

**Lossless queries** (`lossless`).  Keys and values without separators are what a cluster admits.  A
selector of such has a query, and the query tells its requirements: each label, and each key with its
operator and its values, as often as the selector has it.  Two that ask for other labels never ask for
their pods with the same call.
-/

namespace BudgetReaper

/-! ### Requirements -/

/-- What a part of a selector asks for, whatever the order of its values. -/
inductive Requirement where
  | label (key value : String)
  | expression (key operator : String) (values : Multiset String)

/-- A character that separates nothing in a query. -/
def plain (c : Char) : Bool :=
  c ∉ [',', ' ', '(', ')', '=', '!']

theorem plain_iff {c : Char} :
    plain c = true ↔ c ≠ ',' ∧ c ≠ ' ' ∧ c ≠ '(' ∧ c ≠ ')' ∧ c ≠ '=' ∧ c ≠ '!' := by
  simp [plain]

/-- A text without separators. -/
def IsPlain (t : String) : Prop :=
  ∀ c ∈ t.toList, plain c = true

instance (t : String) : Decidable (IsPlain t) :=
  decidable_of_iff (t.toList.all plain = true) List.all_eq_true

/-- An expression that a cluster admits. -/
structure Expression.WellFormed (e : Expression) : Prop where
  named : e.bareKey ≠ ""
  key : IsPlain e.bareKey
  operator : e.operator ∈ [some "In", some "NotIn"] ∧ e.valueList ≠ [] ∨
    e.operator ∈ [some "Exists", some "DoesNotExist"] ∧ e.valueList = []
  values : ∀ v ∈ e.valueList, IsPlain v

/-- What a cluster admits as a part of a selector. -/
inductive Selector.Part.WellFormed : Selector.Part → Prop where
  | label {key value : String} (named : key ≠ "") (plain : IsPlain key) (plain' : IsPlain value) :
      Part.WellFormed (.label key value)
  | expression {e : Expression} (h : e.WellFormed) : Part.WellFormed (.expression e)

namespace Selector

/-- A selector that a cluster admits. -/
def WellFormed (s : Selector) : Prop :=
  ∀ p ∈ s.parts, p.WellFormed

/-- What a part asks for. -/
def Part.requirement : Part → Requirement
  | .label key value => .label key value
  | .expression e => .expression e.bareKey (e.operator.getD "") e.valueList

/-- What a selector asks for. -/
def requirements (s : Selector) : Multiset Requirement :=
  (s.parts.map Part.requirement : List Requirement)

/-! ### Pieces -/

/-- The pieces of a text between its commas, those inside parentheses apart. -/
def pieces : Bool → List Char → List (List Char)
  | _, [] => [[]]
  | inside, c :: rest =>
      if c = ',' ∧ inside = false then [] :: pieces false rest
      else Text.extendFirst c (pieces (c = '(' || (inside && c ≠ ')')) rest)

theorem foldr_extendFirst (t p : List Char) (ps : List (List Char)) :
    t.foldr Text.extendFirst (p :: ps) = (t ++ p) :: ps := by
  induction t with
  | nil => rfl
  | cons c t ih => rw [List.foldr_cons, ih, Text.extendFirst, List.cons_append]

/-- Without parentheses, and without commas unless inside of some, a text adds to the first piece. -/
theorem pieces_append {inside : Bool} {t : List Char}
    (h : ∀ c ∈ t, c ≠ '(' ∧ c ≠ ')' ∧ (c = ',' → inside = true)) (rest : List Char) :
    pieces inside (t ++ rest) = t.foldr Text.extendFirst (pieces inside rest) := by
  induction t with
  | nil => rfl
  | cons c t ih =>
      obtain ⟨⟨opening, closing, comma⟩, h⟩ := List.forall_mem_cons.mp h
      have kept : ¬ (c = ',' ∧ inside = false) := fun ⟨here, outside⟩ => by simp [comma here] at outside
      rw [List.cons_append, pieces, if_neg kept, List.foldr_cons, ← ih h]
      simp [opening, closing]

/-- A text that no comma parts, whatever follows it. -/
def Unparted (t : List Char) : Prop :=
  ∀ rest, pieces false (t ++ rest) = t.foldr Text.extendFirst (pieces false rest)

theorem Unparted.append {t u : List Char} (ht : Unparted t) (hu : Unparted u) : Unparted (t ++ u) :=
  fun rest => by rw [List.append_assoc, ht, hu, List.foldr_append]

theorem Unparted.of_plain {t : List Char} (h : ∀ c ∈ t, plain c = true) : Unparted t :=
  pieces_append fun c hc =>
    have ⟨comma, _, opening, closing, _⟩ := plain_iff.mp (h c hc)
    ⟨opening, closing, fun here => absurd here comma⟩

theorem Unparted.separator {c : Char} (h : c ∈ [' ', '=', '!']) : Unparted [c] := by
  simp only [List.mem_cons, List.not_mem_nil, or_false] at h
  refine pieces_append (List.forall_mem_singleton.mpr ?_)
  rcases h with rfl | rfl | rfl <;> decide

theorem Unparted.parentheses {t : List Char} (h : ∀ c ∈ t, c ≠ '(' ∧ c ≠ ')') :
    Unparted ('(' :: t ++ [')']) := fun rest => by
  have inside : pieces true (t ++ ')' :: rest) = t.foldr Text.extendFirst (pieces true (')' :: rest)) :=
    pieces_append (fun c hc => ⟨(h c hc).1, (h c hc).2, fun _ => rfl⟩) _
  rw [List.cons_append, List.cons_append, List.append_assoc, List.singleton_append, pieces,
    if_neg (by decide), List.foldr_cons, List.foldr_append]
  simp only [decide_true, Bool.true_or, inside]
  -- the closing parenthesis ends what the opening one has begun
  rw [pieces, if_neg (by decide)]
  rfl

/-- Texts that are not parted are the pieces of the text that they make. -/
theorem pieces_intercalate {ts : List (List Char)} (filled : ts ≠ []) (h : ∀ t ∈ ts, Unparted t) :
    pieces false ([','].intercalate ts) = ts := by
  induction ts with
  | nil => exact absurd rfl filled
  | cons t ts ih =>
      obtain ⟨first, h⟩ := List.forall_mem_cons.mp h
      cases ts with
      | nil =>
          have alone := first []
          rw [List.append_nil, pieces, foldr_extendFirst, List.append_nil] at alone
          rw [List.intercalate_singleton, alone]
      | cons u ts =>
          rw [List.intercalate_cons_cons, List.append_assoc, first, List.singleton_append, pieces,
            if_pos ⟨rfl, rfl⟩, ih (List.cons_ne_nil u ts) h, foldr_extendFirst, List.append_nil]

/-! ### Reading -/

/-- The operator of a word. -/
def operatorOf (word : List Char) : Option String :=
  if word = "in".toList then some "In" else if word = "notin".toList then some "NotIn" else none

/-- What is asked of a key, by what follows it. -/
def readAfter : List Char → List Char → Option Requirement
  | key, '=' :: value => some (.label (.ofList key) (.ofList value))
  | key, ' ' :: rest =>
      match operatorOf (rest.takeWhile plain), rest.dropWhile plain with
      | some operator, ' ' :: '(' :: list =>
          let values : List String := (list.dropLast.splitOn ',').map .ofList
          some (.expression (.ofList key) operator values)
      | _, _ => none
  | [], '!' :: key => some (.expression (.ofList key) "DoesNotExist" 0)
  | c :: key, [] => some (.expression (.ofList (c :: key)) "Exists" 0)
  | _, _ => none

/-- What the text of a part asks for. -/
def readPiece (t : List Char) : Option Requirement :=
  readAfter (t.takeWhile plain) (t.dropWhile plain)

/-- What a query asks for. -/
def requirementsOf (q : String) : Multiset Requirement :=
  ((pieces false q.toList).filterMap readPiece : List Requirement)

theorem takeWhile_plain {t rest : List Char} {c : Char} (h : ∀ c ∈ t, plain c = true)
    (separates : plain c = false) : (t ++ c :: rest).takeWhile plain = t := by
  rw [List.takeWhile_append_of_pos h, List.takeWhile_cons_of_neg (by simp [separates]), List.append_nil]

theorem dropWhile_plain {t rest : List Char} {c : Char} (h : ∀ c ∈ t, plain c = true)
    (separates : plain c = false) : (t ++ c :: rest).dropWhile plain = c :: rest := by
  rw [List.dropWhile_append_of_pos h, List.dropWhile_cons_of_neg (by simp [separates])]

/-- What separates the key from the rest tells where the key ends. -/
theorem readPiece_append {key rest : List Char} {c : Char} (h : ∀ c ∈ key, plain c = true)
    (separates : plain c = false) : readPiece (key ++ c :: rest) = readAfter key (c :: rest) := by
  rw [readPiece, takeWhile_plain h separates, dropWhile_plain h separates]

theorem readPiece_label {key value : List Char} (h : ∀ c ∈ key, plain c = true) :
    readPiece (key ++ '=' :: value) = some (.label (.ofList key) (.ofList value)) := by
  rw [readPiece_append h (by decide), readAfter]

theorem readPiece_marked (key : List Char) :
    readPiece ('!' :: key) = some (.expression (.ofList key) "DoesNotExist" 0) :=
  rfl

theorem readPiece_bare {key : List Char} (named : key ≠ []) (h : ∀ c ∈ key, plain c = true) :
    readPiece key = some (.expression (.ofList key) "Exists" 0) := by
  rw [readPiece, List.takeWhile_eq_self_iff.mpr h, List.dropWhile_eq_nil_iff.mpr h]
  cases key with
  | nil => exact absurd rfl named
  | cons c key => rfl

theorem readPiece_listing {key word : List Char} {operator : String} {values : List (List Char)}
    (h : ∀ c ∈ key, plain c = true) (spelled : operatorOf word = some operator)
    (h' : ∀ c ∈ word, plain c = true) (filled : values ≠ [])
    (parted : ∀ v ∈ values, ',' ∉ v) :
    readPiece (key ++ ' ' :: (word ++ ' ' :: '(' :: ([','].intercalate values ++ [')']))) =
      some (.expression (.ofList key) operator (values.map String.ofList : List String)) := by
  rw [readPiece_append h (by decide), readAfter, takeWhile_plain h' (by decide),
    dropWhile_plain h' (by decide), spelled]
  simp only [List.dropLast_concat, List.splitOn_intercalate ',' parted filled]

/-! ### The text of a part -/

theorem forall_mem_intercalate {P : Char → Prop} {ts : List (List Char)} (comma : P ',')
    (h : ∀ t ∈ ts, ∀ c ∈ t, P c) : ∀ c ∈ [','].intercalate ts, P c := by
  induction ts with
  | nil => exact nofun
  | cons t ts ih =>
      obtain ⟨first, h⟩ := List.forall_mem_cons.mp h
      cases ts with
      | nil => rwa [List.intercalate_singleton]
      | cons u ts =>
          rw [List.intercalate_cons_cons]
          exact List.forall_mem_append.mpr ⟨List.forall_mem_append.mpr ⟨first, by simpa⟩, ih h⟩

/-- The characters of the text of a listing. -/
theorem toList_listing (key word : String) (values : List String) :
    (key ++ word ++ (" (" ++ ",".intercalate values ++ ")")).toList = key.toList ++ (word.toList ++
      ' ' :: '(' :: ([','].intercalate (values.map String.toList) ++ [')'])) := by
  simp [String.toList_intercalate]

/-- The word of an operator follows a blank, and no other operator has it. -/
theorem exists_word {operator word : String}
    (spelled : (operator, word) ∈ [("In", " in"), ("NotIn", " notin")]) :
    ∃ w, word.toList = ' ' :: w ∧ (∀ c ∈ w, plain c = true) ∧ operatorOf w = some operator := by
  simp only [List.mem_cons, Prod.mk.injEq, List.not_mem_nil, or_false] at spelled
  rcases spelled with ⟨rfl, rfl⟩ | ⟨rfl, rfl⟩
  · exact ⟨"in".toList, rfl, List.all_eq_true.mp rfl, rfl⟩
  · exact ⟨"notin".toList, rfl, List.all_eq_true.mp rfl, rfl⟩

/-- The values of a listing are as plain as those of its expression. -/
theorem plain_of_sorted {e : Expression} (fit : e.WellFormed) {v : List Char}
    (h : v ∈ (Expression.sorted e.valueList).map String.toList) : ∀ c ∈ v, plain c = true := by
  obtain ⟨text, listed, rfl⟩ := List.mem_map.mp h
  exact fit.values text ((Expression.perm_sorted e.valueList).mem_iff.mp listed)

/-- The text of an expression is not parted. -/
theorem unparted_expression {e : Expression} {r : String × String} (h : e.Renders r)
    (fit : e.WellFormed) : Unparted r.2.toList := by
  have key : Unparted r.1.toList := .of_plain (h.bareKey ▸ fit.key)
  cases h with
  | listing named present is spelled filled =>
      obtain ⟨w, hw, letters, -⟩ := exists_word spelled
      have blank : Unparted [' '] := .separator (by decide)
      rw [toList_listing, hw]
      refine key.append ((blank.append (.of_plain letters)).append (blank.append (.parentheses ?_)))
      refine forall_mem_intercalate (by decide) fun v hv c hc => ?_
      have ⟨_, _, opening, closing, _⟩ := plain_iff.mp (plain_of_sorted fit hv c hc)
      exact ⟨opening, closing⟩
  | bare named present is empty => exact key
  | marked named present is empty =>
      have mark : Unparted ['!'] := .separator (by decide)
      rw [String.toList_append]
      exact mark.append key

/-- The text of an expression tells what it asks for. -/
theorem readPiece_expression {e : Expression} {r : String × String} (h : e.Renders r)
    (fit : e.WellFormed) : readPiece r.2.toList = some (Part.expression e).requirement := by
  have plain : IsPlain r.1 := h.bareKey ▸ fit.key
  rw [Part.requirement, h.bareKey]
  cases h with
  | listing named present is spelled filled =>
      obtain ⟨w, hw, letters, told⟩ := exists_word spelled
      have filled : (Expression.sorted e.valueList).map String.toList ≠ [] := fun empty =>
        filled <| List.perm_nil.mp <|
          List.map_eq_nil_iff.mp empty ▸ (Expression.perm_sorted e.valueList).symm
      have parted (v : List Char) (hv : v ∈ (Expression.sorted e.valueList).map String.toList) :
          ',' ∉ v := fun comma => (plain_iff.mp (plain_of_sorted fit hv _ comma)).1 rfl
      have values : ((Expression.sorted e.valueList).map String.toList).map String.ofList =
          Expression.sorted e.valueList := by simp
      have same : (Expression.sorted e.valueList : Multiset String) = e.valueList :=
        Multiset.coe_eq_coe.mpr (Expression.perm_sorted e.valueList)
      rw [toList_listing, hw, List.cons_append, readPiece_listing plain told letters filled parted,
        String.ofList_toList, values, same, is, Option.getD_some]
  | bare named present is empty =>
      rw [readPiece_bare (by simpa) plain, String.ofList_toList, is, empty]
      rfl
  | @marked key named present is empty =>
      have text : ("!" ++ key).toList = '!' :: key.toList := by simp
      rw [text, readPiece_marked, String.ofList_toList, is, empty]
      rfl

/-- The text of a part is not parted. -/
theorem unparted_part {p : Part} {r : String × String} (h : p.Renders r) (fit : p.WellFormed) :
    Unparted r.2.toList := by
  cases h with
  | label key value =>
      cases fit with
      | label named plain plain' =>
          have sign : Unparted ['='] := .separator (by decide)
          rw [String.toList_append, String.toList_append]
          exact ((Unparted.of_plain plain).append sign).append (.of_plain plain')
  | expression h =>
      cases fit with
      | expression fit => exact unparted_expression h fit

/-- The text of a part tells what it asks for. -/
theorem readPiece_part {p : Part} {r : String × String} (h : p.Renders r) (fit : p.WellFormed) :
    readPiece r.2.toList = some p.requirement := by
  cases h with
  | label key value =>
      cases fit with
      | label named plain plain' =>
          have text : (key ++ "=" ++ value).toList = key.toList ++ '=' :: value.toList := by simp
          rw [text, readPiece_label plain, String.ofList_toList, String.ofList_toList, Part.requirement]
  | expression h =>
      cases fit with
      | expression fit => exact readPiece_expression h fit

/-! ### The text of a selector -/

/-- What is read of the texts of parts is what they ask for. -/
theorem filterMap_readPiece {ps : List Part} {rs : List (String × String)}
    (h : List.Forall₂ Part.Renders ps rs) (fit : ∀ p ∈ ps, p.WellFormed) :
    (rs.map fun r => r.2.toList).filterMap readPiece = ps.map Part.requirement := by
  induction h with
  | nil => rfl
  | cons first _ ih =>
      obtain ⟨here, there⟩ := List.forall_mem_cons.mp fit
      rw [List.map_cons, List.filterMap_cons_some (readPiece_part first here), ih there, List.map_cons]

theorem unparted_parts {ps : List Part} {rs : List (String × String)}
    (h : List.Forall₂ Part.Renders ps rs) (fit : ∀ p ∈ ps, p.WellFormed) :
    ∀ t ∈ rs.map fun r => r.2.toList, Unparted t := by
  induction h with
  | nil => exact nofun
  | cons first _ ih =>
      obtain ⟨here, there⟩ := List.forall_mem_cons.mp fit
      exact List.forall_mem_cons.mpr ⟨unparted_part first here, ih there⟩

/-- The text of parts tells what they ask for; that of no part tells nothing. -/
theorem requirementsOf_intercalate {ps : List Part} {rs : List (String × String)}
    (h : List.Forall₂ Part.Renders ps rs) (fit : ∀ p ∈ ps, p.WellFormed) :
    requirementsOf (",".intercalate (rs.map Prod.snd)) =
      (ps.map Part.requirement : List Requirement) := by
  have text : (",".intercalate (rs.map Prod.snd)).toList =
      [','].intercalate (rs.map fun r => r.2.toList) := by
    simp [String.toList_intercalate, Function.comp_def]
  rw [requirementsOf, text, ← filterMap_readPiece h fit]
  by_cases none : rs = []
  · rw [none]
    rfl
  · rw [pieces_intercalate (mt List.map_eq_nil_iff.mp none) (unparted_parts h fit)]

/-- What a cluster admits can be rendered. -/
theorem renders_of_wellFormed {e : Expression} (fit : e.WellFormed) : ∃ r, e.Renders r := by
  obtain ⟨key, named⟩ : ∃ key, e.key = some key := by
    refine Option.ne_none_iff_exists'.mp fun none => fit.named ?_
    rw [Expression.bareKey, none, Option.getD_none]
  have present : key ≠ "" := by simpa [Expression.bareKey, named] using fit.named
  rcases fit.operator with ⟨is, filled⟩ | ⟨is, empty⟩
  · simp only [List.mem_cons, List.not_mem_nil, or_false] at is
    rcases is with is | is
    · exact ⟨_, .listing named present is List.mem_cons_self filled⟩
    · exact ⟨_, .listing named present is (.tail _ List.mem_cons_self) filled⟩
  · simp only [List.mem_cons, List.not_mem_nil, or_false] at is
    rcases is with is | is
    · exact ⟨_, .bare named present is empty⟩
    · exact ⟨_, .marked named present is empty⟩

/-- The query of a selector that a cluster admits tells what the selector asks for. -/
theorem exists_render_of_wellFormed {s : Selector} (fit : s.WellFormed) :
    ∃ q, s.render = .ok q ∧ requirementsOf q = s.requirements := by
  obtain ⟨q, rendered⟩ : ∃ q, s.render = .ok q := by
    refine exists_render_iff.mpr fun e he => ?_
    cases fit (.expression e) (List.mem_append_right _ (List.mem_map_of_mem he)) with
    | expression fit => exact renders_of_wellFormed fit
  obtain ⟨rs, all, rfl⟩ := render_eq_ok_iff.mp rendered
  have same := (arranges_arranged s).all
  refine ⟨_, rendered, ?_⟩
  rw [requirementsOf_intercalate (renders_arranged all) fun p hp => fit p (same.mem_iff.mp hp)]
  exact Multiset.coe_eq_coe.mpr (same.map Part.requirement)

theorem requirementsOf_eq {s : Option Selector} (fit : (whole s).WellFormed) {q : String}
    (h : renderOption s = .ok q) : requirementsOf q = (whole s).requirements := by
  obtain ⟨q', rendered, told⟩ := exists_render_of_wellFormed fit
  rw [render_whole, h] at rendered
  exact Except.ok.inj rendered ▸ told

/-- The query of a selector loses nothing of what it asks for. -/
structure Lossless (s : Option Selector) : Prop where
  /-- There is one, and it tells the requirements of the selector. -/
  told : ∃ q, renderOption s = .ok q ∧ requirementsOf q = (whole s).requirements
  /-- Selectors with the same query have the same requirements. -/
  settled {t : Option Selector} (fit : (whole t).WellFormed) (same : renderOption t = renderOption s) :
    (whole t).requirements = (whole s).requirements
  /-- Selectors with other requirements list their pods with other calls. -/
  apart {t : Option Selector} (fit : (whole t).WellFormed)
    (differ : (whole t).requirements ≠ (whole s).requirements) {q q' : String}
    (h : renderOption s = .ok q) (h' : renderOption t = .ok q') (space space' : Option String) :
    Call.listPods space q ≠ Call.listPods space' q'

/-- The query of a selector that a cluster admits loses nothing of what the selector asks for. -/
theorem lossless {s : Option Selector} (fit : (whole s).WellFormed) : Lossless s where
  told := by
    rw [← render_whole]
    exact exists_render_of_wellFormed fit
  settled {t} fit' same := by
    obtain ⟨q, rendered, told⟩ := exists_render_of_wellFormed fit
    rw [render_whole] at rendered
    exact (requirementsOf_eq fit' (same.trans rendered)).symm.trans told
  apart {t} fit' differ {q q'} h h' space space' shared := by
    cases shared
    exact differ ((requirementsOf_eq fit' h').symm.trans (requirementsOf_eq fit h))

/-- A label without a value, a listing with an empty value and a mark are all told apart. -/
theorem lossless_mixed :
    (whole (some ⟨some [("app", "")], some [⟨some "app", some "NotIn", some ["a", ""]⟩,
      ⟨some "b", some "DoesNotExist", none⟩]⟩)).WellFormed ∧
    requirementsOf "app=,app notin (,a),!b" =
      {.label "app" "", .expression "app" "NotIn" {"a", ""}, .expression "b" "DoesNotExist" 0} := by
  have fit : (whole (some ⟨some [("app", "")], some [⟨some "app", some "NotIn", some ["a", ""]⟩,
      ⟨some "b", some "DoesNotExist", none⟩]⟩)).WellFormed := by
    refine List.forall_mem_cons.mpr ⟨.label (by decide) (by decide) (by decide), ?_⟩
    refine List.forall_mem_cons.mpr ⟨.expression ⟨by decide, by decide, by decide, ?_⟩, ?_⟩
    · exact List.forall_mem_cons.mpr ⟨by decide, List.forall_mem_singleton.mpr (by decide)⟩
    · exact List.forall_mem_singleton.mpr (.expression ⟨by decide, by decide, by decide, nofun⟩)
  obtain ⟨q, rendered, told⟩ := (lossless fit).told
  have text : renderOption (some ⟨some [("app", "")], some [⟨some "app", some "NotIn", some ["a", ""]⟩,
      ⟨some "b", some "DoesNotExist", none⟩]⟩) = .ok "app=,app notin (,a),!b" := by
    simp [renderOption, render, renderAll, labelRequirements, labelList, expressionList, byKey,
      Expression.render, Expression.valueList, Expression.sorted, List.mergeSort, bind, Except.bind]
  refine ⟨fit, ?_⟩
  rw [← Except.ok.inj (rendered.symm.trans text), told]
  rfl

end Selector

end BudgetReaper
