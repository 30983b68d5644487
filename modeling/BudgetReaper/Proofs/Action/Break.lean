import BudgetReaper.Proofs.Action.Script

/-!
# Actions — where an action breaks off

An action that fails has done a first part of what it was to do, and nothing after the step that
failed.  Two relations tell of the two ways in which it may end.

* `Demands view a v Q`: from a state of view `v`, the action returns only if `Q` holds.
* `Breaks view frame a v D`: from a state of view `v` in the frame, a failure of the action, with the
  acts done before it and the view left by it, is one that `D` tells of.

**Breaking off** (`Breaks.forEach`, `Breaks.gather`).  A loop that fails does so in one of its rounds:
the rounds before it have followed their scripts and met their demands, and none comes after it.
-/

namespace BudgetReaper.Action

variable {σ α β κ : Type}

/-! ### What an action that returns tells -/

/-- From a state of view `v`, the action returns only if `Q` holds. -/
def Demands (view : σ → κ) (a : Action σ α) (v : κ) (Q : Prop) : Prop :=
  ∀ s, view s = v → ∀ y, (a s).result = .ok y → Q

namespace Demands

variable {view : σ → κ} {u v w : κ} {Q Q' : Prop}

theorem of_true {a : Action σ α} (h : Q) : Demands view a v Q :=
  fun _ _ _ _ => h

theorem fail (f : Failure) : Demands (α := α) view (fail f) v Q :=
  fun _ _ _ h => nomatch h

theorem mono {a : Action σ α} (h : Demands view a v Q) (imp : Q → Q') : Demands view a v Q' :=
  fun s hs y hy => imp (h s hs y hy)

theorem and {a : Action σ α} (h : Demands view a v Q) (h' : Demands view a v Q') :
    Demands view a v (Q ∧ Q') :=
  fun s hs y hy => ⟨h s hs y hy, h' s hs y hy⟩

theorem rephrase {a : Action σ α} (h : Demands view a v Q) (words : Failure → Failure) :
    Demands view (rephrase a words) v Q := by
  intro s hs y hy
  rw [rephrase_apply] at hy
  cases hr : (a s).result with
  | error f =>
      rw [hr] at hy
      cases hy
  | ok x => exact h s hs x hr

theorem ofExcept {ε : Type} (words : ε → Failure) (r : Except ε α) :
    Demands view (Action.ofExcept words r) v (∃ x, r = .ok x) := by
  cases r with
  | error e => exact fail _
  | ok x => exact of_true ⟨x, rfl⟩

/-- What the first of two actions demands, the two demand. -/
theorem first {a : Action σ α} (h : Demands view a v Q) (next : α → Action σ β) :
    Demands view (a >>= next) v Q := by
  intro s hs y hy
  obtain ⟨x, hx, -⟩ := ok_of_bind hy
  exact h s hs x hx

/-- What the second of two actions demands, the two demand. -/
theorem later {a : Action σ α} {next : α → Action σ β} {x : α} (yields : Yields view a u x v)
    (h : Demands view (next x) v Q) : Demands view (a >>= next) u Q := by
  intro s hs y hy
  obtain ⟨x', hx, hy⟩ := ok_of_bind hy
  obtain ⟨rfl, hv⟩ := yields s hs x' hx
  exact h _ hv y hy

theorem state_bind {next : σ → Action σ β} (h : ∀ s, view s = v → Demands view (next s) v Q) :
    Demands view (state >>= next) v Q := by
  intro s hs y hy
  rw [bind_of_ok (x := s) rfl] at hy
  exact h s hs s hs y hy

/-- A loop demands what its rounds demand. -/
theorem forEach {ι : Type} {g : ι → κ} {f : ι → β → ι} {c : α → List β}
    {act : α → Action σ Unit} {Q : α → Prop} {xs : List α}
    (yields : ∀ x ∈ xs, ∀ i, Yields view (act x) (g i) () (g ((c x).foldl f i)))
    (h : ∀ x ∈ xs, ∀ i, Demands view (act x) (g i) (Q x)) (i : ι) :
    Demands view (forEach act xs) (g i) (∀ x ∈ xs, Q x) := by
  induction xs generalizing i with
  | nil => exact of_true fun _ hx => nomatch hx
  | cons x rest ih =>
      have rounds := ih (fun y hy => yields y (List.mem_cons_of_mem x hy))
        (fun y hy => h y (List.mem_cons_of_mem x hy)) ((c x).foldl f i)
      have tail : Demands view (Action.forEach act (x :: rest)) (g i) (∀ y ∈ rest, Q y) :=
        .later (yields x (List.mem_cons_self ..) i) rounds
      have head : Demands view (Action.forEach act (x :: rest)) (g i) (Q x) :=
        (h x (List.mem_cons_self ..) i).first _
      exact (head.and tail).mono fun ⟨here, there⟩ => List.forall_mem_cons.mpr ⟨here, there⟩

theorem gather {act : α → Action σ (List β)} {give : α → List β} {Q : α → Prop} {xs : List α}
    (yields : ∀ x ∈ xs, Yields view (act x) v (give x) v)
    (h : ∀ x ∈ xs, Demands view (act x) v (Q x)) :
    Demands view (gather act xs) v (∀ x ∈ xs, Q x) := by
  induction xs with
  | nil => exact of_true fun _ hx => nomatch hx
  | cons x rest ih =>
      have rounds := ih (fun y hy => yields y (List.mem_cons_of_mem x hy))
        fun y hy => h y (List.mem_cons_of_mem x hy)
      have tail : Demands view (Action.gather act (x :: rest)) v (∀ y ∈ rest, Q y) :=
        .later (yields x (List.mem_cons_self ..)) (rounds.first _)
      have head : Demands view (Action.gather act (x :: rest)) v (Q x) :=
        (h x (List.mem_cons_self ..)).first _
      exact (head.and tail).mono fun ⟨here, there⟩ => List.forall_mem_cons.mpr ⟨here, there⟩

end Demands

/-! ### What an action that fails has done -/

/-- From a state of view `v` in the frame, a failure of the action, the acts before it and the view
left by it are such as `D` tells. -/
def Breaks (view : σ → κ) (frame : σ → Prop) (a : Action σ α) (v : κ)
    (D : Failure → List Effect → κ → Prop) : Prop :=
  ∀ s, view s = v → frame s → ∀ f, (a s).result = .error f →
    D f ((a s).trace.filter Effect.isAct) (view (a s).state)

/-- A loop that fails does so in one round, after rounds that have not failed. -/
theorem error_of_forEach {act : α → Action σ Unit} {xs : List α} {s : σ} {f : Failure}
    (h : (forEach act xs s).result = .error f) :
    ∃ before x after, xs = before ++ x :: after ∧ (forEach act before s).result = .ok () ∧
      (act x (forEach act before s).state).result = .error f ∧
      forEach act xs s = ⟨.error f, (act x (forEach act before s).state).state,
        (forEach act before s).trace ++ (act x (forEach act before s).state).trace⟩ := by
  induction xs generalizing s with
  | nil => cases h
  | cons x rest ih =>
      rw [forEach] at h
      cases hx : (act x s).result with
      | error g =>
          rw [bind_of_error hx] at h
          obtain rfl : g = f := Except.error.inj h
          exact ⟨[], x, rest, rfl, rfl, hx, bind_of_error hx _⟩
      | ok _ =>
          rw [bind_of_ok hx] at h
          obtain ⟨before, y, after, split, past, failed, whole⟩ := ih h
          have whole_before : forEach act (x :: before) s =
              ⟨(forEach act before (act x s).state).result, (forEach act before (act x s).state).state,
                (act x s).trace ++ (forEach act before (act x s).state).trace⟩ := by
            rw [forEach, bind_of_ok hx]
          refine ⟨x :: before, y, after, by rw [split]; rfl, ?_, ?_, ?_⟩
          · rw [whole_before]
            exact past
          · rw [whole_before]
            exact failed
          · rw [forEach, bind_of_ok hx, whole, whole_before, List.append_assoc]

namespace Breaks

variable {view : σ → κ} {frame : σ → Prop} {u v w : κ} {D D' : Failure → List Effect → κ → Prop}

theorem mono {a : Action σ α} (h : Breaks view frame a v D) (imp : ∀ f l w, D f l w → D' f l w) :
    Breaks view frame a v D' :=
  fun s hs hf f hr => imp _ _ _ (h s hs hf f hr)

theorem of_ok {a : Action σ α} (h : ∀ s, view s = v → frame s → ∃ x, (a s).result = .ok x) :
    Breaks view frame a v D := by
  intro s hs hf f hr
  obtain ⟨x, hx⟩ := h s hs hf
  rw [hx] at hr
  cases hr

theorem done (x : α) : Breaks view frame (done x) v D :=
  of_ok fun _ _ _ => ⟨x, rfl⟩

theorem pure (x : α) : Breaks view frame (Pure.pure x) v D :=
  done x

theorem say (n : Notice) : Breaks view frame (say n) v D :=
  of_ok fun _ _ _ => ⟨(), rfl⟩

theorem update (change : σ → σ) : Breaks view frame (update change) v D :=
  of_ok fun _ _ _ => ⟨(), rfl⟩

theorem fail {f : Failure} (h : D f [] v) : Breaks (α := α) view frame (fail f) v D := by
  rintro s rfl - g hg
  obtain rfl := Except.error.inj hg
  exact h

theorem rephrase {a : Action σ α} {words : Failure → Failure}
    (h : Breaks view frame a v fun f => D (words f)) :
    Breaks view frame (rephrase a words) v D := by
  intro s hs hf f hr
  rw [rephrase_apply] at hr
  cases ha : (a s).result with
  | ok x =>
      rw [ha] at hr
      cases hr
  | error g =>
      rw [ha] at hr
      obtain rfl : words g = f := Except.error.inj hr
      exact h s hs hf g ha

/-- Of two actions the first breaks off, or it returns and the second breaks off after it. -/
theorem bind {a : Action σ α} {next : α → Action σ β} {x : α} {script : List Effect} {Q : Prop}
    (h : Breaks view frame a u D) (follows : Follows view frame a u script)
    (yields : Yields view a u x v) (demands : Demands view a u Q)
    (h' : Q → Breaks view frame (next x) v fun f l => D f (script ++ l)) :
    Breaks view frame (a >>= next) u D := by
  intro s hs hf f hr
  cases ha : (a s).result with
  | error g =>
      rw [bind_of_error ha] at hr ⊢
      obtain rfl : g = f := Except.error.inj hr
      exact h s hs hf g ha
  | ok y =>
      obtain ⟨rfl, hv⟩ := yields s hs y ha
      obtain ⟨kept, -, whole⟩ := follows s hs hf
      rw [bind_of_ok ha] at hr ⊢
      rw [List.filter_append, whole y ha]
      exact h' (demands s hs y ha) _ hv kept f hr

/-- A first action that has no acts, and of which nothing else is to be known. -/
theorem quiet_bind {a : Action σ α} {next : α → Action σ β} {x : α}
    (h : Breaks view frame a u D) (follows : Follows view frame a u [])
    (yields : Yields view a u x v) (h' : Breaks view frame (next x) v D) :
    Breaks view frame (a >>= next) u D :=
  bind h follows yields (.of_true trivial) fun _ => h'

theorem say_bind {n : Notice} {next : Unit → Action σ β}
    (h : Breaks view frame (next ()) v D) : Breaks view frame (Action.say n >>= next) v D :=
  quiet_bind (say n) (.say n) (.say n) h

/-- What follows a computation need only be looked at where the computation gives something. -/
theorem ofExcept_bind {ε : Type} {words : ε → Failure} {r : Except ε α} {next : α → Action σ β}
    (h : ∀ e, r = .error e → D (words e) [] v)
    (h' : ∀ x, r = .ok x → Breaks view frame (next x) v D) :
    Breaks view frame (Action.ofExcept words r >>= next) v D := by
  cases r with
  | error e =>
      rw [ofExcept_error, fail_bind]
      exact fail (h e rfl)
  | ok x =>
      rw [ofExcept_ok, LawfulMonad.pure_bind]
      exact h' x rfl

theorem state_bind {next : σ → Action σ β}
    (h : ∀ s, view s = v → frame s → Breaks view frame (next s) v D) :
    Breaks view frame (state >>= next) v D := by
  intro s hs hf f hr
  rw [bind_of_ok (x := s) rfl] at hr ⊢
  exact h s hs hf s hs hf f hr

theorem ite {p : Prop} [Decidable p] {a b : Action σ α} (h : p → Breaks view frame a v D)
    (h' : ¬ p → Breaks view frame b v D) : Breaks view frame (if p then a else b) v D := by
  split
  · next hp => exact h hp
  · next hp => exact h' hp

/-- A loop that breaks off does so in one round, after whole rounds. -/
theorem forEach {ι : Type} {g : ι → κ} {f : ι → β → ι} {c : α → List β}
    {act : α → Action σ Unit} {part : α → List Effect} {Q : α → Prop} {xs : List α}
    (follows : ∀ x ∈ xs, ∀ i, Follows view frame (act x) (g i) (part x))
    (yields : ∀ x ∈ xs, ∀ i, Yields view (act x) (g i) () (g ((c x).foldl f i)))
    (demands : ∀ x ∈ xs, ∀ i, Demands view (act x) (g i) (Q x)) (i : ι)
    (h : ∀ before x after, xs = before ++ x :: after → (∀ y ∈ before, Q y) →
      Breaks view frame (act x) (g ((before.flatMap c).foldl f i))
        fun f l => D f (before.flatMap part ++ l)) :
    Breaks view frame (forEach act xs) (g i) D := by
  induction xs generalizing i D with
  | nil => exact done ()
  | cons x rest ih =>
      have here : x ∈ x :: rest := List.mem_cons_self ..
      refine bind (h [] x rest rfl fun _ hy => nomatch hy) (follows x here i) (yields x here i)
        (demands x here i) fun met => ?_
      refine ih (fun y hy => follows y (List.mem_cons_of_mem x hy))
        (fun y hy => yields y (List.mem_cons_of_mem x hy))
        (fun y hy => demands y (List.mem_cons_of_mem x hy)) _ fun before y after split past => ?_
      have round := h (x :: before) y after (by rw [split]; rfl)
        (List.forall_mem_cons.mpr ⟨met, past⟩)
      simpa only [List.flatMap_cons, List.foldl_append, List.append_assoc] using round

/-- A gathering that breaks off does so in one round, after whole rounds. -/
theorem gather {act : α → Action σ (List β)} {give : α → List β} {part : α → List Effect}
    {Q : α → Prop} {xs : List α}
    (follows : ∀ x ∈ xs, Follows view frame (act x) v (part x))
    (yields : ∀ x ∈ xs, Yields view (act x) v (give x) v)
    (demands : ∀ x ∈ xs, Demands view (act x) v (Q x))
    (h : ∀ before x after, xs = before ++ x :: after → (∀ y ∈ before, Q y) →
      Breaks view frame (act x) v fun f l => D f (before.flatMap part ++ l)) :
    Breaks view frame (gather act xs) v D := by
  induction xs generalizing D with
  | nil => exact done []
  | cons x rest ih =>
      have here : x ∈ x :: rest := List.mem_cons_self ..
      have there {y : α} (hy : y ∈ rest) : y ∈ x :: rest := List.mem_cons_of_mem x hy
      refine bind (h [] x rest rfl fun _ hy => nomatch hy) (follows x here) (yields x here)
        (demands x here) fun met => ?_
      refine bind ?_ (.gather (fun y hy => yields y (there hy)) fun y hy => follows y (there hy))
        (.gather fun y hy => yields y (there hy)) (.of_true trivial) fun _ => pure _
      refine ih (fun y hy => follows y (there hy)) (fun y hy => yields y (there hy))
        (fun y hy => demands y (there hy)) fun before y after split past => ?_
      have round := h (x :: before) y after (by rw [split]; rfl)
        (List.forall_mem_cons.mpr ⟨met, past⟩)
      simpa only [List.flatMap_cons, List.append_assoc] using round

/-- A loop fails only as its rounds do, where it does not matter how far it has got. -/
theorem each {act : α → Action σ Unit} {allowed : Failure → Prop} {xs : List α}
    (kept : ∀ x ∈ xs, ∀ s, frame s → frame (act x s).state)
    (h : ∀ x ∈ xs, ∀ v, Breaks view frame (act x) v fun f _ _ => allowed f) (v : κ) :
    Breaks view frame (Action.forEach act xs) v fun f _ _ => allowed f := by
  induction xs generalizing v with
  | nil => exact done ()
  | cons x rest ih =>
      intro s hs hf f hr
      rw [Action.forEach] at hr
      cases ha : (act x s).result with
      | error g =>
          rw [bind_of_error ha] at hr
          obtain rfl := Except.error.inj hr
          exact h x (List.mem_cons_self ..) v s hs hf g ha
      | ok _ =>
          rw [bind_of_ok ha] at hr
          exact ih (fun y hy => kept y (List.mem_cons_of_mem x hy))
            (fun y hy => h y (List.mem_cons_of_mem x hy)) _ _ rfl
            (kept x (List.mem_cons_self ..) s hf) f hr

end Breaks

end BudgetReaper.Action
