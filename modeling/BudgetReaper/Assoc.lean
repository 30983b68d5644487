/-!
# Association lists in insertion order

A map is the list of its entries in the order in which their keys were first put.  `put` replaces
the value of a key where it stands, or adds an entry at the end; `putNew` adds an entry only for a
new key; `push` adds an item to the list that a key holds.  All three keep the keys distinct
(`nodup_put`, `nodup_putNew`, `nodup_push`) and in order of first use (`keys_put`).
-/

namespace BudgetReaper.Assoc

variable {κ α : Type} [DecidableEq κ]

/-- The keys, in order. -/
def keys (m : List (κ × α)) : List κ :=
  m.map Prod.fst

/-- The value of a key. -/
def get? (m : List (κ × α)) (k : κ) : Option α :=
  match m with
  | [] => none
  | (k', v) :: rest => if k' = k then some v else get? rest k

/-- `m` with `f` applied to what `k` holds, or with `k` at the end holding `f none`. -/
def alter (m : List (κ × α)) (k : κ) (f : Option α → α) : List (κ × α) :=
  match m with
  | [] => [(k, f none)]
  | (k', v) :: rest => if k' = k then (k', f (some v)) :: rest else (k', v) :: alter rest k f

/-- `m` with `k` holding `v`. -/
def put (m : List (κ × α)) (k : κ) (v : α) : List (κ × α) :=
  alter m k fun _ => v

/-- `m`, with `k` holding `v` if it held nothing. -/
def putNew (m : List (κ × α)) (k : κ) (v : α) : List (κ × α) :=
  alter m k fun held => held.getD v

/-- `m` with `v` at the end of the list that `k` holds. -/
def push (m : List (κ × List α)) (k : κ) (v : α) : List (κ × List α) :=
  alter m k fun held => held.getD [] ++ [v]

/-- The map of a list of entries: a repeated key keeps its first place and its last value. -/
def ofList (entries : List (κ × α)) : List (κ × α) :=
  entries.foldl (fun m e => put m e.1 e.2) []

/-! ### Keys and values after a change -/

omit [DecidableEq κ] in
@[simp] theorem keys_nil : keys ([] : List (κ × α)) = [] := rfl

omit [DecidableEq κ] in
@[simp] theorem keys_cons (e : κ × α) (m : List (κ × α)) : keys (e :: m) = e.1 :: keys m := rfl

theorem keys_alter (m : List (κ × α)) (k : κ) (f : Option α → α) :
    keys (alter m k f) = if k ∈ keys m then keys m else keys m ++ [k] := by
  induction m with
  | nil => simp [alter]
  | cons e rest ih =>
    obtain ⟨k', v⟩ := e
    by_cases h : k' = k
    · simp [alter, h]
    · have h' : k ≠ k' := fun e => h e.symm
      by_cases hk : k ∈ keys rest
      · simp [alter, h, ih, hk]
      · simp [alter, h, h', ih, hk]

theorem keys_put (m : List (κ × α)) (k : κ) (v : α) :
    keys (put m k v) = if k ∈ keys m then keys m else keys m ++ [k] :=
  keys_alter m k _

theorem nodup_alter {m : List (κ × α)} (h : (keys m).Nodup) (k : κ) (f : Option α → α) :
    (keys (alter m k f)).Nodup := by
  rw [keys_alter]
  split
  · exact h
  · next new =>
    refine List.nodup_append.2 ⟨h, by simp, fun a ha b hb => ?_⟩
    obtain rfl := List.mem_singleton.1 hb
    exact fun e => new (e ▸ ha)

theorem nodup_put {m : List (κ × α)} (h : (keys m).Nodup) (k : κ) (v : α) :
    (keys (put m k v)).Nodup :=
  nodup_alter h k _

theorem nodup_putNew {m : List (κ × α)} (h : (keys m).Nodup) (k : κ) (v : α) :
    (keys (putNew m k v)).Nodup :=
  nodup_alter h k _

theorem nodup_push {m : List (κ × List α)} (h : (keys m).Nodup) (k : κ) (v : α) :
    (keys (push m k v)).Nodup :=
  nodup_alter h k _

/-- A map made from entries has each key once. -/
theorem nodup_ofList (entries : List (κ × α)) : (keys (ofList entries)).Nodup := by
  suffices ∀ m : List (κ × α), (keys m).Nodup →
      (keys (entries.foldl (fun m e => put m e.1 e.2) m)).Nodup from this [] (by simp)
  induction entries with
  | nil => exact fun _ h => h
  | cons e rest ih => exact fun m h => ih _ (nodup_put h e.1 e.2)

theorem get?_alter (m : List (κ × α)) (k k' : κ) (f : Option α → α) :
    get? (alter m k f) k' = if k = k' then some (f (get? m k)) else get? m k' := by
  induction m with
  | nil => by_cases h : k = k' <;> simp [alter, get?, h]
  | cons e rest ih =>
    obtain ⟨k₀, v⟩ := e
    by_cases h : k₀ = k
    · subst h
      by_cases h' : k₀ = k' <;> simp [alter, get?, h']
    · by_cases h' : k = k'
      · subst h'; simp [alter, get?, h, ih]
      · simp [alter, get?, h, ih, h']

theorem get?_put (m : List (κ × α)) (k k' : κ) (v : α) :
    get? (put m k v) k' = if k = k' then some v else get? m k' :=
  get?_alter m k k' _

end BudgetReaper.Assoc
