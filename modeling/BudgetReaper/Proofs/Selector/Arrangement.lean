import Mathlib.Data.List.Forall2
import Mathlib.Data.List.Nodup
import BudgetReaper.Selector

/-!
# Selectors — the arrangement of a query

A query has one text for each part of its selector, its labels and its expressions.  The parts are
sorted by their bare keys, and what has the same key stays in the order that it had
(`filter_sortByKey`): the label first, then the expressions as they are listed.  A list sorted by
keys is settled by what it holds of each key (`eq_of_filter_eq`), so that nothing else of the order
of the parts can be seen in the query.

**Canonical queries** (`canonical`).  Rendering fails exactly for the first expression that is unfit
(`Expression.Unfit`), whatever the labels are; otherwise the query is the texts of the parts in that
arrangement, and the same for every selector that differs in an order that does not count
(`Rearranges`).
-/

namespace BudgetReaper

/-! ### Sorting -/

/-- Lists with the same items are sorted to the same list by an order without ties. -/
theorem mergeSort_eq_of_perm {α : Type} {le : α → α → Bool} {l l' : List α}
    (trans : ∀ a b c, le a b = true → le b c = true → le a c = true)
    (total : ∀ a b, (le a b || le b a) = true)
    (antisymm : ∀ a b, le a b = true → le b a = true → a = b) (same : l.Perm l') :
    l.mergeSort le = l'.mergeSort le :=
  List.Perm.eq_of_pairwise (fun a b _ _ => antisymm a b) (List.pairwise_mergeSort trans total l)
    (List.pairwise_mergeSort trans total l')
    ((l.mergeSort_perm le).trans (same.trans (l'.mergeSort_perm le).symm))

section SortByKey

variable {α : Type} {key : α → String}

/-- Items in the order of their keys. -/
def sortByKey (key : α → String) (l : List α) : List α :=
  l.mergeSort fun a b => decide (key a ≤ key b)

theorem le_trans_of_key (key : α → String) (a b c : α) (hab : decide (key a ≤ key b) = true)
    (hbc : decide (key b ≤ key c) = true) : decide (key a ≤ key c) = true :=
  decide_eq_true (String.le_trans (of_decide_eq_true hab) (of_decide_eq_true hbc))

theorem le_total_of_key (key : α → String) (a b : α) :
    (decide (key a ≤ key b) || decide (key b ≤ key a)) = true := by
  simpa using String.le_total (key a) (key b)

theorem pairwise_sortByKey (key : α → String) (l : List α) :
    (sortByKey key l).Pairwise fun a b => key a ≤ key b :=
  (List.pairwise_mergeSort (le_trans_of_key key) (le_total_of_key key) l).imp of_decide_eq_true

theorem perm_sortByKey (key : α → String) (l : List α) : (sortByKey key l).Perm l :=
  l.mergeSort_perm _

/-- Items of the same key keep their order. -/
theorem filter_sortByKey (key : α → String) (l : List α) (k : String) :
    (sortByKey key l).filter (key · = k) = l.filter (key · = k) := by
  have tied : (l.filter (key · = k)).Pairwise fun a b => decide (key a ≤ key b) = true := by
    refine List.pairwise_of_forall_mem_list fun a ha b hb => ?_
    rw [of_decide_eq_true (List.mem_filter.mp ha).2, of_decide_eq_true (List.mem_filter.mp hb).2]
    exact decide_eq_true (String.le_refl k)
  have kept : (l.filter (key · = k)).Sublist (sortByKey key l) :=
    List.sublist_mergeSort (le_trans_of_key key) (le_total_of_key key) tied List.filter_sublist
  have among := kept.filter (key · = k)
  rw [List.filter_filter] at among
  simp only [Bool.and_self] at among
  exact (among.eq_of_length ((perm_sortByKey key l).filter _).length_eq.symm).symm

theorem mem_iff_of_filter_eq {l l' : List α}
    (same : ∀ k, l.filter (key · = k) = l'.filter (key · = k)) (x : α) : x ∈ l ↔ x ∈ l' := by
  have here := congrArg (x ∈ ·) (same (key x))
  simpa using here

/-- A sorted list is settled by what it holds of each key. -/
theorem eq_of_filter_eq {l l' : List α} (sorted : l.Pairwise fun a b => key a ≤ key b)
    (sorted' : l'.Pairwise fun a b => key a ≤ key b)
    (same : ∀ k, l.filter (key · = k) = l'.filter (key · = k)) : l = l' := by
  induction l generalizing l' with
  | nil =>
      have empty (x : α) (hx : x ∈ l') : False := nomatch (mem_iff_of_filter_eq same x).mpr hx
      exact (List.eq_nil_iff_forall_not_mem.mpr empty).symm
  | cons a l ih =>
      cases l' with
      | nil => exact nomatch (mem_iff_of_filter_eq same a).mp List.mem_cons_self
      | cons b l' =>
          obtain ⟨first, rest⟩ := List.pairwise_cons.mp sorted
          obtain ⟨first', rest'⟩ := List.pairwise_cons.mp sorted'
          -- each of the two heads is at most the other
          have le : key a ≤ key b := by
            rcases List.mem_cons.mp ((mem_iff_of_filter_eq same b).mpr List.mem_cons_self) with rfl | h
            · exact String.le_refl _
            · exact first b h
          have ge : key b ≤ key a := by
            rcases List.mem_cons.mp ((mem_iff_of_filter_eq same a).mp List.mem_cons_self) with rfl | h
            · exact String.le_refl _
            · exact first' a h
          have tied := String.le_antisymm le ge
          have heads := same (key a)
          rw [List.filter_cons_of_pos (by simp), List.filter_cons_of_pos (by simp [tied])] at heads
          obtain ⟨rfl, tails⟩ := List.cons.inj heads
          refine congrArg (a :: ·) (ih rest rest' fun k => ?_)
          by_cases here : key a = k
          · exact here ▸ tails
          · have there := same k
            rwa [List.filter_cons_of_neg (by simp [here]),
              List.filter_cons_of_neg (by simp [here])] at there

/-- With distinct keys, the order of the items does not count. -/
theorem sortByKey_eq_of_perm {l l' : List α} (distinct : (l.map key).Nodup) (same : l.Perm l') :
    sortByKey key l = sortByKey key l' := by
  have together := (perm_sortByKey key l).trans (same.trans (perm_sortByKey key l').symm)
  refine List.Perm.eq_of_pairwise (fun a b ha hb le ge => ?_) (pairwise_sortByKey key l)
    (pairwise_sortByKey key l') together
  have here := (perm_sortByKey key l).mem_iff.mp ha
  have there := (perm_sortByKey key l).mem_iff.mp (together.mem_iff.mpr hb)
  exact List.inj_on_of_nodup_map distinct here there (String.le_antisymm le ge)

theorem map_sortByKey {β : Type} {key' : β → String} {f : α → β} {l : List α}
    (same : ∀ a ∈ l, key a = key' (f a)) : (sortByKey key l).map f = sortByKey key' (l.map f) :=
  List.map_mergeSort fun a ha b hb => by rw [same a ha, same b hb]

/-- Lists whose items belong together, with the same keys, are sorted alike. -/
theorem forall₂_sortByKey {β : Type} {key' : β → String} {R : α → β → Prop}
    (same : ∀ a b, R a b → key a = key' b) {l : List α} {l' : List β} (h : List.Forall₂ R l l') :
    List.Forall₂ R (sortByKey key l) (sortByKey key' l') := by
  obtain ⟨length, related⟩ := List.forall₂_iff_zip.mp h
  have left : (sortByKey (fun p => key p.1) (l.zip l')).map Prod.fst = sortByKey key l := by
    rw [map_sortByKey (f := Prod.fst) fun p _ => rfl, List.map_fst_zip (Nat.le_of_eq length)]
  have right : (sortByKey (fun p => key p.1) (l.zip l')).map Prod.snd = sortByKey key' l' := by
    rw [map_sortByKey (f := Prod.snd) fun p hp => same _ _ (related hp),
      List.map_snd_zip (Nat.le_of_eq length.symm)]
  rw [← left, ← right, List.forall₂_map_left_iff, List.forall₂_map_right_iff, List.forall₂_same]
  exact fun p hp => related ((perm_sortByKey _ _).mem_iff.mp hp)

end SortByKey

theorem exists_forall₂_iff {α β : Type} {R : α → β → Prop} {l : List α} :
    (∃ l', List.Forall₂ R l l') ↔ ∀ a ∈ l, ∃ b, R a b := by
  induction l with
  | nil => simp
  | cons a l ih => simp [List.forall₂_cons_left_iff, ← ih]

/-! ### Expressions -/

namespace Expression

/-- The bare key of an expression. -/
def bareKey (e : Expression) : String :=
  e.key.getD ""

/-- What makes an expression unfit for a query. -/
inductive Unfit (e : Expression) : Fault → Prop where
  /-- It has no key, or an empty one; nothing else counts then. -/
  | noKey (h : e.key = none ∨ e.key = some "") : Unfit e (.noKey e)
  /-- Its operator is none of the four. -/
  | unknownOperator {key : String} (named : e.key = some key) (present : key ≠ "")
      (h : ∀ operator ∈ ["In", "NotIn", "Exists", "DoesNotExist"], e.operator ≠ some operator) :
      Unfit e (.unknownOperator e.operator)
  /-- Its operator is about values, and it has none. -/
  | noValues {key operator : String} (named : e.key = some key) (present : key ≠ "")
      (h : e.operator = some operator) (listing : operator ∈ ["In", "NotIn"])
      (empty : e.valueList = []) : Unfit e (.noValues operator key)
  /-- Its operator is about the key alone, and it has values. -/
  | hasValues {key operator : String} (named : e.key = some key) (present : key ≠ "")
      (h : e.operator = some operator) (bare : operator ∈ ["Exists", "DoesNotExist"])
      (some : e.valueList ≠ []) : Unfit e (.hasValues operator key)

/-- The key and the text of an expression in a query. -/
inductive Renders (e : Expression) : String × String → Prop where
  /-- The key, the word of the operator and the values in order. -/
  | listing {key operator word : String} (named : e.key = some key) (present : key ≠ "")
      (h : e.operator = some operator)
      (spelled : (operator, word) ∈ [("In", " in"), ("NotIn", " notin")]) (filled : e.valueList ≠ []) :
      Renders e (key, key ++ word ++ (" (" ++ ",".intercalate (sorted e.valueList) ++ ")"))
  /-- The key alone. -/
  | bare {key : String} (named : e.key = some key) (present : key ≠ "")
      (h : e.operator = some "Exists") (empty : e.valueList = []) : Renders e (key, key)
  /-- The key, marked. -/
  | marked {key : String} (named : e.key = some key) (present : key ≠ "")
      (h : e.operator = some "DoesNotExist") (empty : e.valueList = []) : Renders e (key, "!" ++ key)

theorem Unfit.render {e : Expression} {f : Fault} (h : e.Unfit f) : e.render = .error f := by
  cases h with
  | noKey h => rcases h with h | h <;> simp [Expression.render, h]
  | unknownOperator named present h =>
      simp only [List.forall_mem_cons, ne_eq] at h
      simp only [Expression.render, named, Option.getD_some, if_neg present]
      split <;> simp_all
  | noValues named present h listing empty =>
      simp only [List.mem_cons, List.not_mem_nil, or_false] at listing
      rcases listing with rfl | rfl <;> simp [Expression.render, named, present, h, empty]
  | hasValues named present h bare filled =>
      simp only [List.mem_cons, List.not_mem_nil, or_false] at bare
      rcases bare with rfl | rfl <;> simp [Expression.render, named, present, h, filled]

theorem Renders.render {e : Expression} {r : String × String} (h : e.Renders r) : e.render = .ok r := by
  cases h with
  | listing named present h spelled filled =>
      simp only [List.mem_cons, Prod.mk.injEq, List.not_mem_nil, or_false] at spelled
      rcases spelled with ⟨rfl, rfl⟩ | ⟨rfl, rfl⟩ <;>
        simp [Expression.render, named, present, h, filled]
  | bare named present h empty => simp [Expression.render, named, present, h, empty]
  | marked named present h empty => simp [Expression.render, named, present, h, empty]

/-- There is no third way. -/
theorem renders_or_unfit (e : Expression) : (∃ r, e.Renders r) ∨ ∃ f, e.Unfit f := by
  cases named : e.key with
  | none => exact .inr ⟨_, .noKey (.inl named)⟩
  | some key =>
      by_cases present : key = ""
      · exact .inr ⟨_, .noKey (.inr (present ▸ named))⟩
      by_cases unknown : ∀ operator ∈ ["In", "NotIn", "Exists", "DoesNotExist"],
          e.operator ≠ some operator
      · exact .inr ⟨_, .unknownOperator named present unknown⟩
      obtain ⟨operator, known, h⟩ : ∃ operator ∈ ["In", "NotIn", "Exists", "DoesNotExist"],
          e.operator = some operator := by
        simpa only [not_forall, ne_eq, not_not, exists_prop] using unknown
      simp only [List.mem_cons, List.not_mem_nil, or_false] at known
      by_cases empty : e.valueList = []
      · rcases known with rfl | rfl | rfl | rfl
        · exact .inr ⟨_, .noValues named present h (by simp) empty⟩
        · exact .inr ⟨_, .noValues named present h (by simp) empty⟩
        · exact .inl ⟨_, .bare named present h empty⟩
        · exact .inl ⟨_, .marked named present h empty⟩
      · rcases known with rfl | rfl | rfl | rfl
        · exact .inl ⟨_, .listing named present h List.mem_cons_self empty⟩
        · exact .inl ⟨_, .listing named present h (.tail _ List.mem_cons_self) empty⟩
        · exact .inr ⟨_, .hasValues named present h (by simp) empty⟩
        · exact .inr ⟨_, .hasValues named present h (by simp) empty⟩

/-- An expression is refused exactly if it is unfit. -/
theorem render_eq_error_iff {e : Expression} {f : Fault} : e.render = .error f ↔ e.Unfit f := by
  refine ⟨fun refused => ?_, Unfit.render⟩
  rcases e.renders_or_unfit with ⟨r, rendered⟩ | ⟨g, unfit⟩
  · cases refused.symm.trans rendered.render
  · cases refused.symm.trans unfit.render
    exact unfit

theorem render_eq_ok_iff {e : Expression} {r : String × String} : e.render = .ok r ↔ e.Renders r := by
  refine ⟨fun rendered => ?_, Renders.render⟩
  rcases e.renders_or_unfit with ⟨r', renders⟩ | ⟨g, unfit⟩
  · cases rendered.symm.trans renders.render
    exact renders
  · cases rendered.symm.trans unfit.render

/-- An expression can be rendered exactly if it is not unfit. -/
theorem renders_iff {e : Expression} : (∃ r, e.Renders r) ↔ ∀ f, ¬ e.Unfit f := by
  simp only [← render_eq_error_iff, ← render_eq_ok_iff]
  cases e.render with
  | ok r => exact iff_of_true ⟨r, rfl⟩ nofun
  | error f => exact iff_of_false nofun fun none => none f rfl

/-- What an expression is sorted by is its key. -/
theorem Renders.key {e : Expression} {r : String × String} (h : e.Renders r) : e.key = some r.1 := by
  cases h <;> assumption

theorem Renders.bareKey {e : Expression} {r : String × String} (h : e.Renders r) : e.bareKey = r.1 := by
  rw [Expression.bareKey, h.key, Option.getD_some]

theorem renders_rightUnique : Relator.RightUnique Renders := fun _ _ _ h h' =>
  Except.ok.inj (h.render.symm.trans h'.render)

theorem fault?_eq_some_iff {e : Expression} {f : Fault} : e.fault? = some f ↔ e.Unfit f := by
  rw [← render_eq_error_iff, fault?]
  cases e.render <;> simp

theorem fault?_eq_none_iff {e : Expression} : e.fault? = none ↔ ∀ f, ¬ e.Unfit f := by
  simp only [Option.eq_none_iff_forall_ne_some, ne_eq, fault?_eq_some_iff]

/-- The same requirement, its values in any order. -/
structure Alike (d e : Expression) : Prop where
  key : d.key = e.key
  operator : d.operator = e.operator
  values : d.valueList.Perm e.valueList

theorem perm_sorted (vs : List String) : (sorted vs).Perm vs :=
  List.mergeSort_perm vs _

theorem sorted_eq_of_perm {vs ws : List String} (h : vs.Perm ws) : sorted vs = sorted ws :=
  mergeSort_eq_of_perm (le_trans_of_key id) (le_total_of_key id)
    (fun _ _ hab hba => String.le_antisymm (of_decide_eq_true hab) (of_decide_eq_true hba)) h

/-- The order of the values of an expression is not seen in its text. -/
theorem Alike.renders {d e : Expression} {r : String × String} (h : d.Alike e) (rendered : d.Renders r) :
    e.Renders r := by
  have empty : d.valueList = [] ↔ e.valueList = [] := by
    rw [← List.length_eq_zero_iff, h.values.length_eq, List.length_eq_zero_iff]
  cases rendered with
  | listing named present is spelled filled =>
      rw [sorted_eq_of_perm h.values]
      exact .listing (h.key ▸ named) present (h.operator ▸ is) spelled (mt empty.mpr filled)
  | bare named present is none =>
      exact .bare (h.key ▸ named) present (h.operator ▸ is) (empty.mp none)
  | marked named present is none =>
      exact .marked (h.key ▸ named) present (h.operator ▸ is) (empty.mp none)

theorem renders_of_alike {ds es : List Expression} {rs : List (String × String)}
    (h : List.Forall₂ Alike ds es) (rendered : List.Forall₂ Renders ds rs) :
    List.Forall₂ Renders es rs := by
  induction h generalizing rs with
  | nil => exact rendered
  | cons alike _ ih =>
      cases rendered with
      | cons first rest => exact .cons (alike.renders first) (ih rest)

end Expression

/-! ### Parts -/

namespace Selector

/-- A part of a selector: one of its labels, or one of its expressions. -/
inductive Part where
  | label (key value : String)
  | expression (e : Expression)
  deriving DecidableEq, Repr

namespace Part

/-- What a part is sorted by. -/
def key : Part → String
  | label key _ => key
  | expression e => e.bareKey

/-- The key and the text of a part in a query. -/
inductive Renders : Part → String × String → Prop where
  | label (key value : String) : Renders (.label key value) (key, key ++ "=" ++ value)
  | expression {e : Expression} {r : String × String} (h : e.Renders r) : Renders (.expression e) r

theorem Renders.key {p : Part} {r : String × String} (h : p.Renders r) : p.key = r.1 := by
  cases h with
  | label key value => rfl
  | expression h => exact h.bareKey

end Part

/-- The selector of an optional one: an absent one has no parts. -/
def whole (s : Option Selector) : Selector :=
  s.getD { labels := none, expressions := none }

/-- The parts of a selector, as they come. -/
def parts (s : Selector) : List Part :=
  s.labelList.map (fun l => .label l.1 l.2) ++ s.expressionList.map .expression

/-- The order of the parts of a selector in its query. -/
structure Arranges (s : Selector) (ps : List Part) : Prop where
  /-- Each part stands there once. -/
  all : ps.Perm s.parts
  /-- By the bare keys. -/
  ordered : ps.Pairwise fun p q => p.key ≤ q.key
  /-- Of each key first its labels, of which there is one at most, then its expressions as listed. -/
  stable (key : String) : ∃ labels : List (String × String),
    labels.Perm (s.labelList.filter (·.1 = key)) ∧
      ps.filter (·.key = key) = labels.map (fun l => .label l.1 l.2) ++
        (s.expressionList.filter (·.bareKey = key)).map .expression

/-- `t` has the labels of `s` in any order, its expressions in an order that keeps those of each key
as they are listed, and the values of each in any order. -/
structure Rearranges (s t : Selector) : Prop where
  labels : s.labelList.Perm t.labelList
  expressions : ∃ es : List Expression,
    (∀ key, es.filter (·.bareKey = key) = s.expressionList.filter (·.bareKey = key)) ∧
      List.Forall₂ Expression.Alike es t.expressionList

/-! ### Rendering -/

theorem render_whole (s : Option Selector) : (whole s).render = renderOption s := by
  cases s with
  | none =>
      simp [whole, renderOption, render, labelRequirements, labelList, expressionList, renderAll, byKey,
        bind, Except.bind]
  | some s => rfl

/-- A list of expressions is rendered one by one. -/
theorem renderAll_eq_ok_iff {es : List Expression} {rs : List (String × String)} :
    renderAll es = .ok rs ↔ List.Forall₂ Expression.Renders es rs := by
  induction es generalizing rs with
  | nil => simp [renderAll, eq_comm]
  | cons e rest ih =>
      simp only [List.forall₂_cons_left_iff, ← ih, ← Expression.render_eq_ok_iff, renderAll]
      cases e.render with
      | error f => simp [bind, Except.bind]
      | ok r =>
          cases renderAll rest with
          | error f => simp [bind, Except.bind]
          | ok rs' => simp [bind, Except.bind, eq_comm]

/-- A selector is refused for the first of its expressions that is unfit. -/
theorem render_eq_error_iff {s : Selector} {f : Expression.Fault} : s.render = .error f ↔
    ∃ before e after, s.expressionList = before ++ e :: after ∧
      (∀ d ∈ before, ∀ g, ¬ d.Unfit g) ∧ e.Unfit f := by
  simp only [render_of_fault, List.findSome?_eq_some_iff, Expression.fault?_eq_some_iff,
    Expression.fault?_eq_none_iff]
  exact ⟨fun ⟨before, e, after, split, unfit, fit⟩ => ⟨before, e, after, split, fit, unfit⟩,
    fun ⟨before, e, after, split, fit, unfit⟩ => ⟨before, e, after, split, unfit, fit⟩⟩

theorem render_eq_ok_iff {s : Selector} {q : String} :
    s.render = .ok q ↔ ∃ rs, List.Forall₂ Expression.Renders s.expressionList rs ∧
      q = ",".intercalate ((byKey (s.labelRequirements ++ rs)).map Prod.snd) := by
  simp only [← renderAll_eq_ok_iff, render]
  cases renderAll s.expressionList with
  | error f => simp [bind, Except.bind]
  | ok rs => simp [bind, Except.bind, eq_comm]

/-- A selector has a query exactly if none of its expressions is unfit. -/
theorem exists_render_iff {s : Selector} :
    (∃ q, s.render = .ok q) ↔ ∀ e ∈ s.expressionList, ∃ r, e.Renders r := by
  simp only [render_eq_ok_iff, ← exists_forall₂_iff]
  exact ⟨fun ⟨_, rs, h, _⟩ => ⟨rs, h⟩, fun ⟨rs, h⟩ => ⟨_, rs, h, rfl⟩⟩

theorem byKey_eq (rs : List (String × String)) : byKey rs = sortByKey Prod.fst rs :=
  rfl

/-- The labels of a selector, those of one key by their values. -/
def orderedLabels (s : Selector) : List (String × String) :=
  s.labelList.mergeSort fun a b => decide (a.1 < b.1 ∨ (a.1 = b.1 ∧ a.2 ≤ b.2))

theorem labelRequirements_eq (s : Selector) :
    s.labelRequirements = s.orderedLabels.map fun l => (l.1, l.1 ++ "=" ++ l.2) :=
  rfl

/-- The order of the labels of a selector is not seen in its query. -/
theorem orderedLabels_eq_of_perm {s t : Selector} (h : s.labelList.Perm t.labelList) :
    s.orderedLabels = t.orderedLabels := by
  refine mergeSort_eq_of_perm ?trans ?total ?antisymm h
  case trans =>
    intro a b c hab hbc
    simp only [decide_eq_true_eq] at hab hbc ⊢
    rcases hab with hab | ⟨hab, hab'⟩ <;> rcases hbc with hbc | ⟨hbc, hbc'⟩
    · exact .inl (String.lt_trans hab hbc)
    · exact .inl (hbc ▸ hab)
    · exact .inl (hab ▸ hbc)
    · exact .inr ⟨hab.trans hbc, String.le_trans hab' hbc'⟩
  case total =>
    intro a b
    simp only [Bool.or_eq_true, decide_eq_true_eq]
    by_cases below : a.1 < b.1
    · exact .inl (.inl below)
    by_cases above : b.1 < a.1
    · exact .inr (.inl above)
    have tied := String.le_antisymm (String.not_lt.mp above) (String.not_lt.mp below)
    exact (String.le_total a.2 b.2).imp (fun h => .inr ⟨tied, h⟩) fun h => .inr ⟨tied.symm, h⟩
  case antisymm =>
    intro a b hab hba
    simp only [decide_eq_true_eq] at hab hba
    rcases hab with hab | ⟨tied, hab⟩ <;> rcases hba with hba | ⟨tied', hba⟩
    · exact (String.lt_asymm hab hba).elim
    · exact (String.lt_irrefl _ (tied' ▸ hab)).elim
    · exact (String.lt_irrefl _ (tied ▸ hba)).elim
    · exact Prod.ext tied (String.le_antisymm hab hba)

/-- The parts of a selector in the order of its query. -/
def arranged (s : Selector) : List Part :=
  sortByKey Part.key
    (s.orderedLabels.map (fun l => .label l.1 l.2) ++ s.expressionList.map .expression)

theorem arranges_arranged (s : Selector) : s.Arranges s.arranged where
  all := (perm_sortByKey _ _).trans (((List.mergeSort_perm _ _).map _).append_right _)
  ordered := pairwise_sortByKey _ _
  stable key := by
    refine ⟨s.orderedLabels.filter (·.1 = key), (List.mergeSort_perm _ _).filter _, ?_⟩
    rw [arranged, filter_sortByKey, List.filter_append, List.filter_map, List.filter_map]
    rfl

/-- The parts of a selector are rendered in their arrangement. -/
theorem renders_arranged {s : Selector} {rs : List (String × String)}
    (h : List.Forall₂ Expression.Renders s.expressionList rs) :
    List.Forall₂ Part.Renders s.arranged (byKey (s.labelRequirements ++ rs)) := by
  have labels : List.Forall₂ Part.Renders (s.orderedLabels.map fun l => .label l.1 l.2)
      s.labelRequirements := by
    rw [labelRequirements_eq, List.forall₂_map_left_iff, List.forall₂_map_right_iff, List.forall₂_same]
    exact fun l _ => .label l.1 l.2
  have expressions : List.Forall₂ Part.Renders (s.expressionList.map .expression) rs :=
    List.forall₂_map_left_iff.mpr (h.imp fun _ _ => .expression)
  rw [byKey_eq, arranged]
  exact forall₂_sortByKey (fun _ _ h => h.key) (List.rel_append labels expressions)

/-! ### What the order does not change -/

/-- A query is settled by what the expressions have of each key. -/
theorem byKey_append_eq {labels rs rs' : List (String × String)}
    (same : ∀ key, rs.filter (·.1 = key) = rs'.filter (·.1 = key)) :
    byKey (labels ++ rs) = byKey (labels ++ rs') := by
  rw [byKey_eq, byKey_eq]
  refine eq_of_filter_eq (pairwise_sortByKey _ _) (pairwise_sortByKey _ _) fun key => ?_
  rw [filter_sortByKey, filter_sortByKey, List.filter_append, List.filter_append, same]

/-- What is rendered of the expressions of one key. -/
theorem renders_filter {es : List Expression} {rs : List (String × String)}
    (h : List.Forall₂ Expression.Renders es rs) (key : String) :
    List.Forall₂ Expression.Renders (es.filter (·.bareKey = key)) (rs.filter (·.1 = key)) :=
  List.rel_filter (fun e r rendered => by simp [rendered.bareKey]) h

/-- A rearranged selector is rendered too, to the same texts of each key. -/
theorem Rearranges.renders {s t : Selector} (h : s.Rearranges t) {rs : List (String × String)}
    (rendered : List.Forall₂ Expression.Renders s.expressionList rs) :
    ∃ rs', List.Forall₂ Expression.Renders t.expressionList rs' ∧
      ∀ key, rs.filter (·.1 = key) = rs'.filter (·.1 = key) := by
  obtain ⟨es, same, alike⟩ := h.expressions
  obtain ⟨rs', moved⟩ : ∃ rs', List.Forall₂ Expression.Renders es rs' :=
    exists_forall₂_iff.mpr fun e he =>
      exists_forall₂_iff.mp ⟨rs, rendered⟩ e ((mem_iff_of_filter_eq same e).mp he)
  refine ⟨rs', Expression.renders_of_alike alike moved, fun key => ?_⟩
  have here := renders_filter moved key
  rw [same key] at here
  exact List.right_unique_forall₂' Expression.renders_rightUnique (renders_filter rendered key) here

/-- A query is the same for every rearrangement of its selector. -/
theorem Rearranges.render {s t : Selector} (h : s.Rearranges t) {q : String}
    (rendered : s.render = .ok q) : t.render = .ok q := by
  obtain ⟨rs, all, rfl⟩ := render_eq_ok_iff.mp rendered
  obtain ⟨rs', all', same⟩ := h.renders all
  refine render_eq_ok_iff.mpr ⟨rs', all', ?_⟩
  rw [byKey_append_eq same, labelRequirements_eq, labelRequirements_eq,
    orderedLabels_eq_of_perm h.labels]

/-- What the query of a selector is, and when there is none. -/
structure Canonical (s : Option Selector) : Prop where
  /-- It is refused for the first expression that is unfit. -/
  refused {f : Expression.Fault} : renderOption s = .error f ↔
    ∃ before e after, (whole s).expressionList = before ++ e :: after ∧
      (∀ d ∈ before, ∀ g, ¬ d.Unfit g) ∧ e.Unfit f
  /-- It is refused if there is one. -/
  fails : (∃ f, renderOption s = .error f) ↔ ∃ e ∈ (whole s).expressionList, ∃ f, e.Unfit f
  /-- Otherwise it is the texts of the parts in their arrangement. -/
  arranged {q : String} (h : renderOption s = .ok q) : ∃ ps rs, (whole s).Arranges ps ∧
    List.Forall₂ Part.Renders ps rs ∧ q = ",".intercalate (rs.map Prod.snd)
  /-- No other order counts. -/
  settled {q : String} (h : renderOption s = .ok q) {t : Option Selector}
    (moved : (whole s).Rearranges (whole t)) : renderOption t = .ok q

/-- The query of a selector is canonical, and it is refused for its first unfit expression only. -/
theorem canonical (s : Option Selector) : Canonical s where
  refused {f} := by
    rw [← render_whole, render_eq_error_iff]
  fails := by
    have unfit (e : Expression) : (∃ f, e.Unfit f) ↔ ¬ ∃ r, e.Renders r := by
      simp only [Expression.renders_iff, not_forall, not_not]
    have error : (∃ f, (whole s).render = .error f) ↔ ¬ ∃ q, (whole s).render = .ok q := by
      cases (whole s).render <;> simp
    simp only [← render_whole, error, exists_render_iff, unfit, not_forall, exists_prop]
  arranged {q} h := by
    obtain ⟨rs, rendered, rfl⟩ := render_eq_ok_iff.mp ((render_whole s).trans h)
    exact ⟨(whole s).arranged, _, arranges_arranged _, renders_arranged rendered, rfl⟩
  settled {q} h t moved := by
    rw [← render_whole] at h ⊢
    exact moved.render h

/-- The labels, the values and the expression of the other key have moved. -/
theorem canonical_moved :
    renderOption (some ⟨some [("tier", "web"), ("app", "db")],
        some [⟨some "zone", some "Exists", none⟩, ⟨some "tier", some "In", some ["b", "a"]⟩,
          ⟨some "tier", some "DoesNotExist", none⟩]⟩) =
      .ok "app=db,tier=web,tier in (a,b),!tier,zone" := by
  have query : renderOption (some ⟨some [("app", "db"), ("tier", "web")],
      some [⟨some "tier", some "In", some ["a", "b"]⟩, ⟨some "tier", some "DoesNotExist", none⟩,
        ⟨some "zone", some "Exists", none⟩]⟩) = .ok "app=db,tier=web,tier in (a,b),!tier,zone" := by
    rw [← render_whole, render_eq_ok_iff]
    refine ⟨_, .cons (.listing rfl (by decide) rfl List.mem_cons_self (by decide))
      (.cons (.marked rfl (by decide) rfl rfl) (.cons (.bare rfl (by decide) rfl rfl) .nil)), ?_⟩
    -- all is in order here: labels, requirements and values
    rw [labelRequirements, List.mergeSort_of_pairwise, byKey, List.mergeSort_of_pairwise,
      Expression.sorted, List.mergeSort_of_pairwise]
    all_goals decide
  refine (canonical _).settled query ⟨by decide, ?_⟩
  refine ⟨[⟨some "zone", some "Exists", none⟩, ⟨some "tier", some "In", some ["a", "b"]⟩,
    ⟨some "tier", some "DoesNotExist", none⟩], fun key => ?same, ?alike⟩
  case same =>
    by_cases tier : "tier" = key
    · subst tier
      rfl
    · simp [whole, expressionList, List.filter_cons, Expression.bareKey, tier]
  case alike =>
    exact .cons ⟨rfl, rfl, by decide⟩
      (.cons ⟨rfl, rfl, by decide⟩ (.cons ⟨rfl, rfl, by decide⟩ .nil))

end Selector

end BudgetReaper
