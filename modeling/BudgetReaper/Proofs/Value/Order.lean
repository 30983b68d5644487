import BudgetReaper.Proofs.Selector.Arrangement
import BudgetReaper.Proofs.Value.Reading

/-!
# Values — the order of fields

Two values are alike if they differ at most in the order of the fields of their objects, at any depth
(`Alike`).  Ordering all fields by their names leaves a value alike to what it was (`alike_sortKeys`) and
finds every field where it was found before (`field?_sortKeys`), and alike values become the same
(`Alike.sortKeys_eq`).

**Canonical texts** (`canonical_eq_iff`).  Two plain values have the same canonical text exactly if they
are alike.
-/

namespace BudgetReaper.Value

/-- Two values differ at most in the order of the fields of the objects in them. -/
inductive Alike : Value → Value → Prop
  | refl (v : Value) : Alike v v
  | symm {v w : Value} : Alike v w → Alike w v
  | trans {u v w : Value} : Alike u v → Alike v w → Alike u w
  | fields {fields fields' : List (String × Value)} :
      fields.Perm fields' → Alike (object fields) (object fields')
  | item (before : List Value) {v w : Value} (after : List Value) :
      Alike v w → Alike (list (before ++ v :: after)) (list (before ++ w :: after))
  | field (before : List (String × Value)) (k : String) {v w : Value}
      (after : List (String × Value)) :
      Alike v w → Alike (object (before ++ (k, v) :: after)) (object (before ++ (k, w) :: after))

theorem alike_list {items items' : List Value} (h : List.Forall₂ Alike items items')
    (before : List Value) : Alike (list (before ++ items)) (list (before ++ items')) := by
  induction h generalizing before with
  | nil => exact .refl _
  | @cons v w items items' alike _ ih =>
      have later := ih (before ++ [w])
      rw [List.append_assoc, List.append_assoc] at later
      exact (Alike.item before items alike).trans later

/-- Fields of the same names, in the same order, whose values are alike. -/
theorem alike_object {fields fields' : List (String × Value)}
    (h : List.Forall₂ (fun f g => f.1 = g.1 ∧ Alike f.2 g.2) fields fields')
    (before : List (String × Value)) :
    Alike (object (before ++ fields)) (object (before ++ fields')) := by
  induction h generalizing before with
  | nil => exact .refl _
  | @cons f g fields fields' same _ ih =>
      obtain ⟨k, v⟩ := f
      obtain ⟨_, w⟩ := g
      obtain ⟨rfl, alike⟩ := same
      have later := ih (before ++ [(k, w)])
      rw [List.append_assoc, List.append_assoc] at later
      exact (Alike.field before k fields alike).trans later

/-- Whether a value is plain does not depend on the order of fields. -/
theorem Alike.plain_iff {v w : Value} (h : Alike v w) : v.Plain ↔ w.Plain := by
  induction h with
  | refl => exact Iff.rfl
  | symm _ ih => exact ih.symm
  | trans _ _ ih ih' => exact ih.trans ih'
  | fields perm =>
      rw [plain_object, plain_object, (perm.map Prod.fst).nodup_iff]
      simp only [perm.mem_iff]
  | item before after _ ih =>
      simp only [plain_list, List.forall_mem_append, List.forall_mem_cons, ih]
  | field before k after _ ih =>
      simp only [plain_object, List.map_append, List.map_cons, List.forall_mem_append,
        List.forall_mem_cons, ih]

/-! ### Sorted fields -/

theorem sortKeysItems_eq (items : List Value) : sortKeysItems items = items.map sortKeys := by
  induction items with
  | nil => rfl
  | cons v items ih => rw [sortKeysItems, ih, List.map_cons]

theorem sortKeysFields_eq (fields : List (String × Value)) :
    sortKeysFields fields = fields.map fun f => (f.1, f.2.sortKeys) := by
  induction fields with
  | nil => rfl
  | cons f fields ih => rw [sortKeysFields, ih, List.map_cons]

theorem sortKeys_list (items : List Value) : (list items).sortKeys = list (items.map sortKeys) := by
  rw [sortKeys, sortKeysItems_eq]

theorem sortKeys_object (fields : List (String × Value)) :
    (object fields).sortKeys =
      object (sortByKey Prod.fst (fields.map fun f => (f.1, f.2.sortKeys))) := by
  rw [sortKeys, sortKeysFields_eq]
  rfl

/-- Sorting fields changes nothing but their order. -/
theorem alike_sortKeys {v : Value} (plain : v.Plain) : Alike v v.sortKeys := by
  induction plain with
  | null | bool | int | str => exact .refl _
  | @list items _ ih =>
      rw [sortKeys_list]
      exact alike_list (List.forall₂_map_right_iff.mpr (List.forall₂_same.mpr ih)) []
  | @object fields _ _ ih =>
      rw [sortKeys_object]
      have below : List.Forall₂ (fun f g => f.1 = g.1 ∧ Alike f.2 g.2) fields
          (fields.map fun f => (f.1, f.2.sortKeys)) :=
        List.forall₂_map_right_iff.mpr (List.forall₂_same.mpr fun f hf => ⟨rfl, ih f hf⟩)
      exact (alike_object below []).trans (.fields (perm_sortByKey _ _).symm)

/-- Values that differ only in the order of fields are the same when their fields are sorted. -/
theorem Alike.sortKeys_eq {v w : Value} (h : Alike v w) (plain : v.Plain) :
    v.sortKeys = w.sortKeys := by
  induction h with
  | refl => rfl
  | symm h ih => exact (ih (h.plain_iff.mpr plain)).symm
  | trans h _ ih ih' => exact (ih plain).trans (ih' (h.plain_iff.mp plain))
  | @fields fields _ perm =>
      rw [sortKeys_object, sortKeys_object]
      refine congrArg object (sortByKey_eq_of_perm ?_ (perm.map _))
      rw [List.map_map]
      exact (plain_object.mp plain).1
  | @item before v _ after _ ih =>
      have here := ih (plain_list.mp plain v (by simp))
      simp only [sortKeys_list, List.map_append, List.map_cons, here]
  | @field before k v _ after _ ih =>
      have here := ih ((plain_object.mp plain).2 (k, v) (by simp))
      simp only [sortKeys_object, List.map_append, List.map_cons, here]

/-- A field is found under its name in whatever order. -/
theorem field?_sortKeys (v : Value) (name : String) :
    v.sortKeys.field? name = (v.field? name).map sortKeys := by
  cases v with
  | object fields =>
      have kept := filter_sortByKey Prod.fst (fields.map fun f => (f.1, f.2.sortKeys)) name
      rw [sortKeys_object, field?, field?, ← List.head?_filter, ← List.head?_filter]
      simp only [beq_eq_decide, kept, List.filter_map, List.head?_map, Option.map_map]
      rfl
  | _ => rfl

/-- Plain values have the same canonical text exactly if they differ at most in the order of fields. -/
theorem canonical_eq_iff {v w : Value} (plain : v.Plain) (plain' : w.Plain) :
    v.canonical = w.canonical ↔ Alike v w := by
  have sorted := alike_sortKeys plain
  have sorted' := alike_sortKeys plain'
  constructor
  · intro same
    have back := read?_json (sorted.plain_iff.mp plain)
    have back' := read?_json (sorted'.plain_iff.mp plain')
    have both : v.sortKeys = w.sortKeys := by
      rw [← canonical, same, canonical, back'] at back
      exact (Option.some.inj back).symm
    exact sorted.trans (both ▸ sorted'.symm)
  · intro alike
    rw [canonical, canonical, alike.sortKeys_eq plain]

end BudgetReaper.Value
