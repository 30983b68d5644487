import Mathlib.Data.List.Basic
import Mathlib.Data.List.Induction
import BudgetReaper.Reaping.Scan

/-!
# Grouping — budgets by namespace

What a grouping of entries holds: one group for each namespace, and in it the budgets entered under
that namespace, in the order in which they were entered (`mem_groupBySpace`).  A grouping never
holds an empty group, so a namespace has a group exactly when something was entered under it.
Taken apart again, the groups hold the entries, each as often as it was entered
(`perm_entriesOf_groupBySpace`).

**Order** (`groupBySpace_eq`).  The groups stand in the order in which their namespaces were first
entered.  They keep it when some of their members are dropped and what is left is grouped anew
(`groupBySpace_filter_entriesOf`): a namespace stands where its first entry was, not where its first
member was that is left.
-/

namespace BudgetReaper

namespace Assoc

variable {κ α : Type} [DecidableEq κ]

/-! ### Entries of a map -/

/-- A key gives in a map whose values have been mapped what it gave before, mapped. -/
theorem get?_map_values {β : Type} (m : List (κ × α)) (f : α → β) (k : κ) :
    get? (m.map (Prod.map id f)) k = (get? m k).map f := by
  induction m with
  | nil => rfl
  | cons e rest ih =>
      obtain ⟨k', v⟩ := e
      by_cases hk : k' = k
      · simp [get?, hk]
      · simp [get?, hk, ih]

/-- What a key gives is an entry of the map. -/
theorem mem_of_get? {m : List (κ × α)} {k : κ} {v : α} (h : get? m k = some v) : (k, v) ∈ m := by
  induction m with
  | nil => cases h
  | cons e rest ih =>
      obtain ⟨k', v'⟩ := e
      by_cases hk : k' = k
      · rw [get?, if_pos hk] at h
        obtain rfl := Option.some.inj h
        exact hk ▸ List.mem_cons_self
      · rw [get?, if_neg hk] at h
        exact List.mem_cons_of_mem _ (ih h)

/-- A map with distinct keys holds an entry exactly when its key gives its value. -/
theorem get?_eq_some_iff {m : List (κ × α)} (h : (keys m).Nodup) {k : κ} {v : α} :
    get? m k = some v ↔ (k, v) ∈ m := by
  induction m with
  | nil => simp [get?]
  | cons e rest ih =>
      obtain ⟨k', v'⟩ := e
      obtain ⟨first, distinct⟩ := List.nodup_cons.mp h
      by_cases hk : k' = k
      · subst hk
        have apart : (k', v) ∉ rest := fun hm => first (List.mem_map.mpr ⟨_, hm, rfl⟩)
        simp [get?, apart, eq_comm]
      · have apart : k ≠ k' := fun he => hk he.symm
        simp [get?, hk, apart, ih distinct]

/-- What a new key comes to hold is added at the end. -/
theorem alter_of_not_mem {m : List (κ × α)} {k : κ} (h : k ∉ keys m) (f : Option α → α) :
    alter m k f = m ++ [(k, f none)] := by
  induction m with
  | nil => rfl
  | cons e rest ih =>
      obtain ⟨first, later⟩ := not_or.mp (mt List.mem_cons.mpr h)
      have apart : e.1 ≠ k := fun he => first he.symm
      change (if e.1 = k then _ else e :: alter rest k f) = _
      rw [if_neg apart, ih later, List.cons_append]

/-- A new key is put at the end. -/
theorem put_of_not_mem {m : List (κ × α)} {k : κ} (h : k ∉ keys m) (v : α) :
    put m k v = m ++ [(k, v)] :=
  alter_of_not_mem h _

/-- What is held after a new key is put was held before, or is what is put. -/
theorem mem_putNew {m : List (κ × α)} {k : κ} {v : α} {e : κ × α} (h : e ∈ putNew m k v) :
    e ∈ m ∨ e = (k, v) := by
  induction m with
  | nil => exact Or.inr (List.mem_singleton.mp h)
  | cons e' rest ih =>
      obtain ⟨k', v'⟩ := e'
      change e ∈ (if k' = k then (k', v') :: rest else (k', v') :: putNew rest k v) at h
      split at h
      · exact Or.inl h
      · rcases List.mem_cons.mp h with rfl | h
        · exact Or.inl (List.mem_cons_self ..)
        · exact (ih h).imp_left (List.mem_cons_of_mem _)

theorem mem_put {m : List (κ × α)} {k : κ} {v : α} {e : κ × α} (h : e ∈ put m k v) :
    e ∈ m ∨ e = (k, v) := by
  induction m with
  | nil => exact Or.inr (List.mem_singleton.mp h)
  | cons e' rest ih =>
      obtain ⟨k', v'⟩ := e'
      change e ∈ (if k' = k then (k', v) :: rest else (k', v') :: put rest k v) at h
      split at h
      · next same =>
          rcases List.mem_cons.mp h with rfl | h
          · exact Or.inr (Prod.ext same rfl)
          · exact Or.inl (List.mem_cons_of_mem _ h)
      · rcases List.mem_cons.mp h with rfl | h
        · exact Or.inl (List.mem_cons_self ..)
        · exact (ih h).imp_left (List.mem_cons_of_mem _)

/-- What is held after entries are put was held before, or is one of them. -/
theorem mem_foldl_put {m entries : List (κ × α)} {e : κ × α}
    (h : e ∈ entries.foldl (fun m e => put m e.1 e.2) m) : e ∈ m ∨ e ∈ entries := by
  induction entries generalizing m with
  | nil => exact Or.inl h
  | cons e' rest ih =>
      rcases ih h with h | h
      · rcases mem_put h with h | rfl
        · exact Or.inl h
        · exact Or.inr (List.mem_cons_self ..)
      · exact Or.inr (List.mem_cons_of_mem _ h)

/-- Entries with distinct new keys are put at the end as they are. -/
theorem foldl_put {m entries : List (κ × α)} (h : (keys (m ++ entries)).Nodup) :
    entries.foldl (fun m e => put m e.1 e.2) m = m ++ entries := by
  induction entries generalizing m with
  | nil => simp
  | cons e rest ih =>
      have assoc : m ++ e :: rest = m ++ [e] ++ rest := by simp
      have new : e.1 ∉ keys m := by
        intro hm
        rw [keys, List.map_append] at h
        exact (List.nodup_append.mp h).2.2 e.1 hm e.1 (by simp) rfl
      rw [List.foldl_cons, put_of_not_mem new, ih (assoc ▸ h), assoc]

/-- What is left of a changed map when keys are left out is changed as far as the key is left. -/
theorem filter_alter (p : κ → Bool) (m : List (κ × α)) (k : κ) (f : Option α → α) :
    (alter m k f).filter (fun e => p e.1) =
      if p k then alter (m.filter fun e => p e.1) k f else m.filter fun e => p e.1 := by
  induction m with
  | nil => by_cases hp : p k = true <;> simp [alter, hp]
  | cons e rest ih =>
      obtain ⟨k', v⟩ := e
      by_cases hk : k' = k
      · subst hk
        by_cases hp : p k' = true <;> simp [alter, hp]
      · by_cases hp : p k = true <;> by_cases hp' : p k' = true <;>
          simp [alter, hk, hp, hp'] at ih ⊢ <;> exact ih

theorem nodup_foldl_push {m : List (κ × List α)} (h : (keys m).Nodup) (entries : List (κ × α)) :
    (keys (entries.foldl (fun m e => push m e.1 e.2) m)).Nodup := by
  induction entries generalizing m with
  | nil => exact h
  | cons e rest ih => exact ih (nodup_push h e.1 e.2)

/-- Pushing entries adds to each key what is entered under it. -/
theorem get?_foldl_push (m : List (κ × List α)) (entries : List (κ × α)) (k : κ) :
    get? (entries.foldl (fun m e => push m e.1 e.2) m) k =
      if k ∈ keys entries then
        some ((get? m k).getD [] ++ (entries.filter (·.1 = k)).map Prod.snd)
      else get? m k := by
  induction entries generalizing m with
  | nil => simp
  | cons e rest ih =>
      obtain ⟨k', v⟩ := e
      rw [List.foldl_cons, ih, push, get?_alter]
      by_cases hk : k' = k
      · subst hk
        -- what was held is now one longer, whether or not the key is entered again
        by_cases later : k' ∈ keys rest
        · simp [later]
        · have none_later : rest.filter (·.1 = k') = [] :=
            List.filter_eq_nil_iff.mpr fun e he h =>
              later (List.mem_map.mpr ⟨e, he, of_decide_eq_true h⟩)
          simp [later, none_later]
      · have apart : k ≠ k' := fun he => hk he.symm
        simp [hk, apart]

end Assoc

/-! ### Groups -/

/-- The namespace of a budget, if it has metadata. -/
def Budget.space? (b : Budget) : Option (Option String) :=
  b.metadata.map Metadata.space

theorem nodup_groupBySpace (entries : List (Option String × Budget)) :
    (Assoc.keys (groupBySpace entries)).Nodup :=
  Assoc.nodup_foldl_push (m := []) List.nodup_nil entries

/-- The groups of some of the namespaces are those of what was entered under them. -/
theorem filter_groupBySpace (p : Option String → Bool) (entries : List (Option String × Budget)) :
    (groupBySpace entries).filter (fun g => p g.1) =
      groupBySpace (entries.filter fun e => p e.1) := by
  suffices h : ∀ groups : List (Option String × List Budget),
      (entries.foldl (fun m e => Assoc.push m e.1 e.2) groups).filter (fun g => p g.1) =
        (entries.filter fun e => p e.1).foldl (fun m e => Assoc.push m e.1 e.2)
          (groups.filter fun g => p g.1) from h []
  induction entries with
  | nil => exact fun _ => rfl
  | cons e rest ih =>
      intro groups
      rw [List.foldl_cons, ih, Assoc.push, Assoc.filter_alter, List.filter_cons]
      split <;> rfl

/-- A grouping holds what was entered under each namespace. -/
theorem mem_groupBySpace {entries : List (Option String × Budget)} {space : Option String}
    {bs : List Budget} :
    (space, bs) ∈ groupBySpace entries ↔
      bs = (entries.filter (·.1 = space)).map Prod.snd ∧ bs ≠ [] := by
  rw [← Assoc.get?_eq_some_iff (nodup_groupBySpace entries), groupBySpace, Assoc.get?_foldl_push]
  by_cases h : space ∈ Assoc.keys entries
  · obtain ⟨e, he, rfl⟩ := List.mem_map.mp h
    have filled : (entries.filter (·.1 = e.1)).map Prod.snd ≠ [] :=
      List.ne_nil_of_mem (List.mem_map.mpr ⟨e, List.mem_filter.mpr ⟨he, by simp⟩, rfl⟩)
    simp only [h, if_true, Assoc.get?, Option.getD_none, List.nil_append, Option.some.injEq]
    constructor
    · rintro rfl
      exact ⟨rfl, filled⟩
    · rintro ⟨rfl, -⟩
      rfl
  · have none_entered : entries.filter (·.1 = space) = [] :=
      List.filter_eq_nil_iff.mpr fun e he hs =>
        h (List.mem_map.mpr ⟨e, he, of_decide_eq_true hs⟩)
    simp [h, none_entered, Assoc.get?]

/-- A budget stands in the group of a namespace exactly when it was entered under it. -/
theorem mem_group_iff {entries : List (Option String × Budget)} {space : Option String}
    {b : Budget} :
    (∃ bs, (space, bs) ∈ groupBySpace entries ∧ b ∈ bs) ↔ (space, b) ∈ entries := by
  simp only [mem_groupBySpace]
  constructor
  · rintro ⟨bs, ⟨rfl, -⟩, hb⟩
    obtain ⟨e, he, rfl⟩ := List.mem_map.mp hb
    obtain ⟨he, hs⟩ := List.mem_filter.mp he
    exact of_decide_eq_true hs ▸ he
  · intro he
    have hb : b ∈ (entries.filter (·.1 = space)).map Prod.snd :=
      List.mem_map.mpr ⟨(space, b), List.mem_filter.mpr ⟨he, by simp⟩, rfl⟩
    exact ⟨_, ⟨rfl, List.ne_nil_of_mem hb⟩, hb⟩

/-! ### Groups in the order of first entry -/

section FirstOccurrence

variable {κ : Type} [BEq κ] [LawfulBEq κ] {l : List κ} {x : κ}

theorem eraseDups_concat_of_mem (h : x ∈ l) : (l ++ [x]).eraseDups = l.eraseDups := by
  simp [List.eraseDups_append, List.removeAll, h]

theorem eraseDups_concat_of_not_mem (h : x ∉ l) : (l ++ [x]).eraseDups = l.eraseDups ++ [x] := by
  have kept : [x].removeAll l = [x] := by simp [List.removeAll, h]
  rw [List.eraseDups_append, kept]
  rfl

/-- Without repetitions, items stand in the order in which they occur first. -/
theorem pairwise_eraseDups (l : List κ) :
    l.eraseDups.Pairwise fun a b => l.idxOf a < l.idxOf b := by
  induction l using List.reverseRecOn with
  | nil => simp
  | append_singleton l x ih =>
      -- what has occurred keeps its place when an item is added
      have kept : l.eraseDups.Pairwise fun a b => (l ++ [x]).idxOf a < (l ++ [x]).idxOf b := by
        refine ih.imp_of_mem fun ha hb before => ?_
        rwa [List.idxOf_append_of_mem (List.mem_eraseDups.mp ha),
          List.idxOf_append_of_mem (List.mem_eraseDups.mp hb)]
      by_cases h : x ∈ l
      · rwa [eraseDups_concat_of_mem h]
      · rw [eraseDups_concat_of_not_mem h]
        refine List.pairwise_append.mpr ⟨kept, List.pairwise_singleton .., fun a ha b hb => ?_⟩
        obtain rfl := List.mem_singleton.mp hb
        have occurs := List.mem_eraseDups.mp ha
        rw [List.idxOf_append_of_mem occurs, List.idxOf_append, if_neg h]
        exact Nat.lt_add_left _ (List.idxOf_lt_length_iff.mpr occurs)

theorem nodup_eraseDups (l : List κ) : l.eraseDups.Nodup :=
  (pairwise_eraseDups l).imp fun before same => absurd (same ▸ before) (Nat.lt_irrefl _)

end FirstOccurrence

theorem keys_groupBySpace (entries : List (Option String × Budget)) :
    Assoc.keys (groupBySpace entries) = (Assoc.keys entries).eraseDups := by
  induction entries using List.reverseRecOn with
  | nil => rfl
  | append_singleton entries e ih =>
      have pushed : groupBySpace (entries ++ [e]) = Assoc.push (groupBySpace entries) e.1 e.2 := by
        rw [groupBySpace, List.foldl_append]
        rfl
      have keys : Assoc.keys (entries ++ [e]) = Assoc.keys entries ++ [e.1] := List.map_append
      rw [pushed, keys, Assoc.push, Assoc.keys_alter, ih]
      simp only [List.mem_eraseDups]
      split
      · next old => rw [eraseDups_concat_of_mem old]
      · next new => rw [eraseDups_concat_of_not_mem new]

/-- The groups, one after the other in the order in which their namespaces were first entered. -/
theorem groupBySpace_eq (entries : List (Option String × Budget)) :
    groupBySpace entries = (Assoc.keys entries).eraseDups.map fun space =>
      (space, (entries.filter (·.1 = space)).map Prod.snd) := by
  rw [← keys_groupBySpace, Assoc.keys, List.map_map]
  refine (List.map_id _).symm.trans (List.map_congr_left fun g hg => ?_)
  exact Prod.ext rfl (mem_groupBySpace.mp (show (g.1, g.2) ∈ groupBySpace entries from hg)).1

/-! ### Groups taken apart -/

/-- Of blocks that are kept or dropped as a whole, those are left that are kept. -/
theorem filter_flatMap_of_blocks {α β : Type} {p : β → Bool} {q : α → Bool} {f : α → List β}
    {xs : List α} (own : ∀ x ∈ xs, ∀ y ∈ f x, p y = q x) :
    (xs.flatMap f).filter p = (xs.filter q).flatMap f := by
  induction xs with
  | nil => rfl
  | cons x rest ih =>
      have later := ih fun x' hx => own x' (List.mem_cons_of_mem x hx)
      have here := own x (List.mem_cons_self ..)
      rw [List.flatMap_cons, List.filter_append, later]
      cases hq : q x with
      | true =>
          have all : (f x).filter p = f x :=
            List.filter_eq_self.mpr fun y hy => (here y hy).trans hq
          rw [all, List.filter_cons_of_pos hq, List.flatMap_cons]
      | false =>
          have none_kept : (f x).filter p = [] := by
            refine List.filter_eq_nil_iff.mpr fun y hy kept => ?_
            rw [here y hy, hq] at kept
            cases kept
          rw [none_kept, List.filter_cons_of_neg (by simp [hq]), List.nil_append]

/-- The entries of groups, group by group. -/
def entriesOf {κ α : Type} (groups : List (κ × List α)) : List (κ × α) :=
  groups.flatMap fun g => g.2.map (g.1, ·)

theorem mem_entriesOf {κ α : Type} {groups : List (κ × List α)} {k : κ} {v : α} :
    (k, v) ∈ entriesOf groups ↔ ∃ vs, (k, vs) ∈ groups ∧ v ∈ vs := by
  simp only [entriesOf, List.mem_flatMap, List.mem_map, Prod.mk.injEq]
  constructor
  · rintro ⟨⟨k', vs⟩, hg, v', hv, rfl, rfl⟩
    exact ⟨vs, hg, hv⟩
  · rintro ⟨vs, hg, hv⟩
    exact ⟨(k, vs), hg, v, hv, rfl, rfl⟩

theorem sublist_entriesOf {κ α : Type} {groups groups' : List (κ × List α)}
    (h : groups.Sublist groups') : (entriesOf groups).Sublist (entriesOf groups') := by
  induction h with
  | slnil => exact List.Sublist.refl _
  | cons g _ ih => exact ih.trans (List.sublist_append_right (g.2.map (g.1, ·)) _)
  | cons_cons g _ ih => exact ih.append_left (g.2.map (g.1, ·))

/-- Of the entries of groups, those are left whose members are left. -/
theorem filter_entriesOf {κ α : Type} (q : α → Bool) (groups : List (κ × List α)) :
    (entriesOf groups).filter (fun x => q x.2) =
      entriesOf ((groups.map fun g => (g.1, g.2.filter q)).filter fun g => !g.2.isEmpty) := by
  induction groups with
  | nil => rfl
  | cons g rest ih =>
      have head (g : κ × List α) (groups : List (κ × List α)) :
          entriesOf (g :: groups) = g.2.map (g.1, ·) ++ entriesOf groups := rfl
      have here : (g.2.map (g.1, ·)).filter (fun x => q x.2) = (g.2.filter q).map (g.1, ·) :=
        List.filter_map
      rw [head, List.filter_append, here, ih, List.map_cons]
      cases left : g.2.filter q with
      | nil =>
          rw [List.filter_cons_of_neg (by simp)]
          rfl
      | cons b bs =>
          rw [List.filter_cons_of_pos (by simp), head]

/-- Entries of one key are pushed into the group at the end that holds the key. -/
theorem foldl_push_last {κ α : Type} [DecidableEq κ] {m : List (κ × List α)} {k : κ}
    (new : k ∉ Assoc.keys m) (held vs : List α) :
    (vs.map (k, ·)).foldl (fun m e => Assoc.push m e.1 e.2) (m ++ [(k, held)]) =
      m ++ [(k, held ++ vs)] := by
  have pushed (held : List α) (v : α) :
      Assoc.push (m ++ [(k, held)]) k v = m ++ [(k, held ++ [v])] := by
    clear vs
    induction m with
    | nil => simp [Assoc.push, Assoc.alter]
    | cons e rest ih =>
        obtain ⟨first, later⟩ := not_or.mp (mt List.mem_cons.mpr new)
        have apart : e.1 ≠ k := fun he => first he.symm
        change (if e.1 = k then _ else e :: Assoc.push (rest ++ [(k, held)]) k v) = _
        rw [if_neg apart, ih later]
        rfl
  induction vs generalizing held with
  | nil => simp
  | cons v rest ih =>
      rw [List.map_cons, List.foldl_cons, pushed, ih, List.append_assoc, List.singleton_append]

/-- Groups that have been taken apart are grouped as they were. -/
theorem groupBySpace_entriesOf {groups : List (Option String × List Budget)}
    (distinct : (Assoc.keys groups).Nodup) (filled : ∀ g ∈ groups, g.2 ≠ []) :
    groupBySpace (entriesOf groups) = groups := by
  suffices h : ∀ before : List (Option String × List Budget),
      (Assoc.keys (before ++ groups)).Nodup →
        (entriesOf groups).foldl (fun m e => Assoc.push m e.1 e.2) before = before ++ groups from
    h [] distinct
  clear distinct
  induction groups with
  | nil => exact fun before _ => (List.append_nil before).symm
  | cons g rest ih =>
      intro before distinct
      obtain ⟨space, bs⟩ := g
      have split : before ++ (space, bs) :: rest = before ++ [(space, bs)] ++ rest := by simp
      have new : space ∉ Assoc.keys before := by
        intro old
        rw [Assoc.keys, List.map_append] at distinct
        exact (List.nodup_append.mp distinct).2.2 space old space (by simp) rfl
      cases bs with
      | nil => exact absurd rfl (filled _ List.mem_cons_self)
      | cons b bs =>
          -- the first member makes the group, the others join it
          have block : ((b :: bs).map (space, ·)).foldl (fun m e => Assoc.push m e.1 e.2) before =
              before ++ [(space, b :: bs)] := by
            rw [List.map_cons, List.foldl_cons, Assoc.push, Assoc.alter_of_not_mem new,
              foldl_push_last new]
            rfl
          have apart : entriesOf ((space, b :: bs) :: rest) =
              (b :: bs).map (space, ·) ++ entriesOf rest := rfl
          rw [apart, List.foldl_append, block, split]
          exact ih (fun g hg => filled g (List.mem_cons_of_mem _ hg)) _ (split ▸ distinct)

/-- Where some members of groups are dropped, the groups that are left keep their order. -/
theorem groupBySpace_filter_entriesOf (q : Budget → Bool)
    {groups : List (Option String × List Budget)} (distinct : (Assoc.keys groups).Nodup) :
    groupBySpace ((entriesOf groups).filter fun x => q x.2) =
      (groups.map fun g => (g.1, g.2.filter q)).filter fun g => !g.2.isEmpty := by
  rw [filter_entriesOf]
  refine groupBySpace_entriesOf ?_ fun g hg => ?_
  · refine List.Nodup.sublist (List.filter_sublist.map _) ?_
    rwa [List.map_map]
  · simpa using (List.mem_filter.mp hg).2

/-- Pushing an entry adds it to the entries. -/
theorem perm_entriesOf_push {κ α : Type} [DecidableEq κ] (groups : List (κ × List α)) (k : κ)
    (v : α) : (entriesOf (Assoc.push groups k v)).Perm (entriesOf groups ++ [(k, v)]) := by
  induction groups with
  | nil => exact .refl _
  | cons g rest ih =>
      obtain ⟨k', vs⟩ := g
      rw [Assoc.push, Assoc.alter]
      by_cases hk : k' = k
      · subst hk
        -- the group grows at its end, before the entries of the groups after it
        have grown : entriesOf ((k', vs ++ [v]) :: rest) =
            vs.map (k', ·) ++ ((k', v) :: entriesOf rest) := by
          simp [entriesOf]
        have whole : entriesOf ((k', vs) :: rest) ++ [(k', v)] =
            vs.map (k', ·) ++ (entriesOf rest ++ [(k', v)]) := by
          simp [entriesOf]
        rw [if_pos rfl, Option.getD_some, grown, whole]
        exact .append_left _ (List.perm_append_singleton _ _).symm
      · have whole : entriesOf ((k', vs) :: rest) ++ [(k, v)] =
            vs.map (k', ·) ++ (entriesOf rest ++ [(k, v)]) := by
          simp [entriesOf]
        rw [if_neg hk, whole]
        exact .append_left (vs.map (k', ·)) ih

/-- The entries of a grouping are those that were grouped. -/
theorem perm_entriesOf_groupBySpace (entries : List (Option String × Budget)) :
    (entriesOf (groupBySpace entries)).Perm entries := by
  suffices h : ∀ groups : List (Option String × List Budget),
      (entriesOf (entries.foldl (fun m e => Assoc.push m e.1 e.2) groups)).Perm
        (entriesOf groups ++ entries) from h []
  induction entries with
  | nil => exact fun groups => by simp
  | cons e rest ih =>
      intro groups
      have pushed := (perm_entriesOf_push groups e.1 e.2).append_right rest
      rw [List.append_assoc] at pushed
      exact (ih (Assoc.push groups e.1 e.2)).trans pushed

end BudgetReaper
