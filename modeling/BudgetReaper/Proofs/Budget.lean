import BudgetReaper.Budget
import BudgetReaper.Proofs.Value.Order

/-!
# Budgets — the dump

A budget as the cluster returns it is well-formed (`Budget.WellFormed`): its numbers have numerals, the
keys of its maps are distinct, and what has no fixed shape in it is plain.  The object that it is sent as
is plain then (`Budget.WellFormed.plain`), part by part.

**Dumps** (`Budget.restorable`).  The dump of a well-formed budget is printable, denotes that object by
the grammar of JSON and is read back as it, and two such budgets have the same dump exactly if their
objects differ at most in the order of their fields: of the labels, the annotations and all other maps.
-/

namespace BudgetReaper

open BudgetReaper.Value (Plain plain_list plain_object)

/-! ### Plain objects -/

namespace Value

theorem sublist_names_present (fields : List (String × Option Value)) :
    ((fields.filterMap fun (name, v) => v.map (name, ·)).map Prod.fst).Sublist
      (fields.map Prod.fst) := by
  induction fields with
  | nil => exact .slnil
  | cons f fields ih =>
      obtain ⟨name, v⟩ := f
      cases v with
      | none => exact ih.cons name
      | some v => exact ih.cons_cons name

/-- An object of the fields that are present is plain if what is present is. -/
theorem plain_present {fields : List (String × Option Value)}
    (distinct : (fields.map Prod.fst).Nodup) (plain : ∀ f ∈ fields, ∀ v ∈ f.2, v.Plain) :
    (present fields).Plain := by
  refine plain_object.mpr ⟨(sublist_names_present fields).nodup distinct, fun g hg => ?_⟩
  obtain ⟨f, hf, here⟩ := List.mem_filterMap.mp hg
  obtain ⟨v, hv, rfl⟩ := Option.map_eq_some_iff.mp here
  exact plain f hf v hv

variable {α : Type}

theorem plain_map {o : Option α} {f : α → Value} (h : ∀ x ∈ o, (f x).Plain) :
    ∀ v ∈ o.map f, v.Plain := by
  cases o with
  | none => nofun
  | some x => exact fun v hv => Option.some.inj hv ▸ h x rfl

theorem plain_text (o : Option α) (f : α → String) : ∀ v ∈ o.map fun x => str (f x), v.Plain :=
  plain_map fun x _ => .str (f x)

theorem plain_int {o : Option Int} (fits : ∀ n ∈ o, Decimal.Fits n) : ∀ v ∈ o.map int, v.Plain :=
  plain_map fun n hn => .int (fits n hn)

theorem plain_bool (o : Option Bool) : ∀ v ∈ o.map bool, v.Plain :=
  plain_map fun b _ => .bool b

theorem plain_nonNull? {v : Value} (plain : v.Plain) : ∀ w ∈ v.nonNull?, w.Plain := by
  cases v with
  | null => nofun
  | _ => exact fun w hw => Option.some.inj hw ▸ plain

theorem plain_texts (ss : List String) : (texts ss).Plain := by
  refine plain_list.mpr fun v hv => ?_
  obtain ⟨s, -, rfl⟩ := List.mem_map.mp hv
  exact .str s

/-- A list of objects. -/
theorem plain_objects {o : Option (List α)} {f : α → Value} (h : ∀ l ∈ o, ∀ x ∈ l, (f x).Plain) :
    ∀ v ∈ o.map fun l => list (l.map f), v.Plain :=
  plain_map fun l hl => plain_list.mpr (List.forall_mem_map.mpr (h l hl))

/-- A map to texts, with distinct keys. -/
theorem plain_entries {l : List (String × α)} (distinct : (l.map Prod.fst).Nodup) (f : α → String) :
    (object (l.map fun (k, x) => (k, str (f x)))).Plain := by
  refine plain_object.mpr ⟨?_, List.forall_mem_map.mpr fun _ _ => .str _⟩
  rwa [List.map_map]

end Value

open Value

/-! ### Well-formed budgets -/

/-- The maps have distinct keys, the numbers have numerals, and the managed fields are plain. -/
structure Metadata.WellFormed (m : Metadata) : Prop where
  labels : ∀ l ∈ m.labels, (l.map Prod.fst).Nodup
  annotations : ∀ l ∈ m.annotations, (l.map Prod.fst).Nodup
  generation : ∀ n ∈ m.generation, Decimal.Fits n
  deletionGrace : ∀ n ∈ m.deletionGrace, Decimal.Fits n
  managers : ∀ ms ∈ m.managers, ∀ x ∈ ms, x.fields.Plain

/-- The bounds are plain, as a count and the text of a percentage are, and the labels sought have distinct
keys. -/
structure Spec.WellFormed (s : Spec) : Prop where
  maxUnavailable : s.maxUnavailable.Plain
  minAvailable : s.minAvailable.Plain
  labels : ∀ x ∈ s.selector, ∀ l ∈ x.labels, (l.map Prod.fst).Nodup

/-- The numbers have numerals, and the disrupted pods are distinct. -/
structure Status.WellFormed (s : Status) : Prop where
  currentHealthy : ∀ n ∈ s.currentHealthy, Decimal.Fits n
  desiredHealthy : ∀ n ∈ s.desiredHealthy, Decimal.Fits n
  disruptionsAllowed : ∀ n ∈ s.disruptionsAllowed, Decimal.Fits n
  expectedPods : ∀ n ∈ s.expectedPods, Decimal.Fits n
  observedGeneration : ∀ n ∈ s.observedGeneration, Decimal.Fits n
  disruptedPods : ∀ l ∈ s.disruptedPods, (l.map Prod.fst).Nodup
  conditions : ∀ cs ∈ s.conditions, ∀ c ∈ cs, ∀ n ∈ c.observedGeneration, Decimal.Fits n

/-- Each part that is present is well-formed. -/
structure Budget.WellFormed (b : Budget) : Prop where
  metadata : ∀ m ∈ b.metadata, m.WellFormed
  spec : ∀ s ∈ b.spec, s.WellFormed
  status : ∀ s ∈ b.status, s.WellFormed

theorem Owner.plain (o : Owner) : o.toValue.Plain := by
  refine plain_present (by simp) ?_
  simp only [List.forall_mem_cons]
  exact ⟨plain_text _ id, plain_bool _, plain_bool _, plain_text _ id, plain_text _ id,
    plain_text _ id, nofun⟩

theorem Manager.plain {m : Manager} (fields : m.fields.Plain) : m.toValue.Plain := by
  refine plain_present (by simp) ?_
  simp only [List.forall_mem_cons]
  exact ⟨plain_text _ id, plain_text _ id, plain_nonNull? fields, plain_text _ id, plain_text _ id,
    plain_text _ id, plain_text _ Stamp.text, nofun⟩

theorem Metadata.WellFormed.plain {m : Metadata} (h : m.WellFormed) : m.toValue.Plain := by
  refine plain_present (by simp) ?_
  simp only [List.forall_mem_cons]
  exact ⟨plain_map fun l hl => plain_entries (h.annotations l hl) id, plain_text _ Stamp.text,
    plain_int h.deletionGrace, plain_text _ Stamp.text, plain_map fun l _ => plain_texts l,
    plain_text _ id, plain_int h.generation, plain_map fun l hl => plain_entries (h.labels l hl) id,
    plain_objects fun ms hms x hx => Manager.plain (h.managers ms hms x hx), plain_text _ id,
    plain_text _ id, plain_objects fun _ _ o _ => o.plain, plain_text _ id, plain_text _ id,
    plain_text _ id, nofun⟩

theorem Expression.plain (e : Expression) : e.toRecord.Plain := by
  refine plain_present (by simp) ?_
  simp only [List.forall_mem_cons]
  exact ⟨plain_text _ id, plain_text _ id, plain_map fun l _ => plain_texts l, nofun⟩

theorem Selector.plain {s : Selector} (labels : ∀ l ∈ s.labels, (l.map Prod.fst).Nodup) :
    s.toRecord.Plain := by
  refine plain_present (by simp) ?_
  simp only [List.forall_mem_cons]
  exact ⟨plain_objects fun _ _ e _ => e.plain, plain_map fun l hl => plain_entries (labels l hl) id,
    nofun⟩

theorem Spec.WellFormed.plain {s : Spec} (h : s.WellFormed) : s.toValue.Plain := by
  refine plain_present (by simp) ?_
  simp only [List.forall_mem_cons]
  exact ⟨plain_nonNull? h.maxUnavailable, plain_nonNull? h.minAvailable,
    plain_map fun x hx => Selector.plain (h.labels x hx), plain_text _ id, nofun⟩

theorem BudgetCondition.plain {c : BudgetCondition}
    (fits : ∀ n ∈ c.observedGeneration, Decimal.Fits n) : c.toValue.Plain := by
  refine plain_present (by simp) ?_
  simp only [List.forall_mem_cons]
  exact ⟨plain_text _ Stamp.text, plain_text _ id, plain_int fits, plain_text _ id, plain_text _ id,
    plain_text _ id, nofun⟩

theorem Status.WellFormed.plain {s : Status} (h : s.WellFormed) : s.toValue.Plain := by
  refine plain_present (by simp) ?_
  simp only [List.forall_mem_cons]
  exact ⟨plain_objects fun cs hcs c hc => BudgetCondition.plain (h.conditions cs hcs c hc),
    plain_int h.currentHealthy, plain_int h.desiredHealthy,
    plain_map fun l hl => plain_entries (h.disruptedPods l hl) Stamp.text,
    plain_int h.disruptionsAllowed, plain_int h.expectedPods, plain_int h.observedGeneration, nofun⟩

theorem Budget.WellFormed.plain {b : Budget} (h : b.WellFormed) : b.toValue.Plain := by
  refine plain_present (by simp) ?_
  simp only [List.forall_mem_cons]
  exact ⟨plain_text _ id, plain_text _ id, plain_map fun m hm => (h.metadata m hm).plain,
    plain_map fun s hs => (h.spec s hs).plain, plain_map fun s hs => (h.status s hs).plain, nofun⟩

/-! ### The dump -/

namespace Budget

/-- A budget can be restored from its dump, and compared by it. -/
structure Restorable (b : Budget) : Prop where
  /-- It is printable. -/
  printable : ∀ c ∈ b.dump.toList, IsAsciiPrintable c
  /-- By the grammar it denotes the object that the budget is sent as, with all fields in the order of
  their names. -/
  valid : Value.Denotes b.dump.toList (.value b.toValue.sortKeys)
  /-- It is read as that object. -/
  restored : Value.read? b.dump = some b.toValue.sortKeys
  /-- That is the same object but for the order of its fields. -/
  same : b.toValue.Alike b.toValue.sortKeys
  /-- Another budget has the same dump exactly if its object is the same but for that order. -/
  settled : ∀ b' : Budget, b'.WellFormed → (b.dump = b'.dump ↔ b.toValue.Alike b'.toValue)

/-- The dump of a well-formed budget is lossless and canonical. -/
theorem restorable (b : Budget) (wellFormed : b.WellFormed) : b.Restorable := by
  have plain := wellFormed.plain
  have sorted := alike_sortKeys plain
  have plain' := sorted.plain_iff.mp plain
  have written : b.dump.toList = b.toValue.sortKeys.jsonChars := by
    rw [dump, canonical, json, String.toList_ofList]
  refine ⟨?_, ?_, read?_json plain', sorted, fun b' h => canonical_eq_iff plain h.plain⟩
  · exact written ▸ printable_jsonChars plain'
  · exact written ▸ denotes_jsonChars plain'

/-- A budget with the labels given, whose other texts have to be escaped. -/
def quotedBudget (labels : Option (List (String × String))) : Budget where
  apiVersion := some "policy/v1"
  kind := some "PodDisruptionBudget"
  metadata := some
    { name := some "web", space := some "shop", uid := none, version := none, generation := some 2
      labels := labels, annotations := some [("note", "\"no\" \\ \n\x01\x7f")], created := none
      finalizers := none }
  spec := some
    { selector := none, maxUnavailable := .str "0%", minAvailable := .null, evictionPolicy := none }
  status := some
    { disruptionsAllowed := some 0, expectedPods := some (-1), currentHealthy := none
      desiredHealthy := none, observedGeneration := none, disruptedPods := some []
      conditions := some
        [{ kind := some "DisruptionAllowed", status := some "False", reason := none
           message := some "too few é 😀", since := none, observedGeneration := none }] }

theorem quotedBudget_wellFormed {labels : Option (List (String × String))}
    (distinct : ∀ l ∈ labels, (l.map Prod.fst).Nodup) : (quotedBudget labels).WellFormed where
  metadata := by
    rintro _ ⟨⟩
    exact ⟨distinct, by simp, by rintro _ ⟨⟩; decide, by simp, by simp⟩
  spec := by
    rintro _ ⟨⟩
    exact ⟨.str _, .null, by simp⟩
  status := by
    rintro _ ⟨⟩
    exact ⟨by simp, by simp, by decide, by decide, by simp, by simp, by simp⟩

/-- The dump of such a budget is read back; the order of the labels does not show in it, but it does
show whether there are no labels or an empty map of them. -/
theorem restorable_quotedBudget :
    (quotedBudget (some [("zone", "b"), ("app", "a")])).WellFormed ∧
      Value.read? (quotedBudget (some [("zone", "b"), ("app", "a")])).dump =
        some (quotedBudget (some [("zone", "b"), ("app", "a")])).toValue.sortKeys ∧
      (quotedBudget (some [("zone", "b"), ("app", "a")])).dump =
        (quotedBudget (some [("app", "a"), ("zone", "b")])).dump ∧
      (quotedBudget (some [])).dump ≠ (quotedBudget none).dump := by
  have labelled : (quotedBudget (some [("zone", "b"), ("app", "a")])).WellFormed :=
    quotedBudget_wellFormed (by rintro _ ⟨⟩; decide)
  have swapped : (quotedBudget (some [("app", "a"), ("zone", "b")])).WellFormed :=
    quotedBudget_wellFormed (by rintro _ ⟨⟩; decide)
  have empty : (quotedBudget (some [])).WellFormed := quotedBudget_wellFormed (by rintro _ ⟨⟩; decide)
  have absent : (quotedBudget none).WellFormed := quotedBudget_wellFormed nofun
  have dumped := restorable _ labelled
  refine ⟨labelled, dumped.restored, (dumped.settled _ swapped).mpr ?_, fun same => ?_⟩
  · exact .field [(_, _), (_, _)] "metadata" _
      (.field [(_, _), (_, _)] "labels" _ (.fields (.swap _ _ _)))
  · have alike := ((restorable _ empty).settled _ absent).mp same
    have metadata := congrArg (·.field? "metadata") (alike.sortKeys_eq empty.plain)
    simp only [field?_sortKeys] at metadata
    have labels := congrArg (·.bind (·.field? "labels")) metadata
    simp only [Option.bind_map, Function.comp_def, field?_sortKeys] at labels
    exact nomatch labels

end Budget

end BudgetReaper
