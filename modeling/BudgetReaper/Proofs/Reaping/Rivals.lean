import Mathlib.Data.List.Nodup
import Mathlib.Logic.Function.Basic
import BudgetReaper.Proofs.Reaping.Turns

/-!
# Reaping — reapers that share a cluster

A *world* has reapers that share a cluster, and a schedule says whose turn is next (`World.run`).  The
turns of a reaper are its deletion, with at most one call each, so every order of the calls of the
reapers is that of a schedule.

**Once** (`rivals`).  Reapers whose marks overlap in any way never fail, and together they reap every
marked key once: one of them finds it, publishes the event and books it, and the others find nothing.

A key is *won* by the reaper whose deletion has been granted.  Between that turn and the next one of the
reaper the key is in no book, so what an invariant can tell of the books is what has been won
(`Standing`).  Nobody wins a key that is not held, and no key that has been won is held, so no key is
won twice (`Sharing`).
-/

namespace BudgetReaper

/-! ### Worlds -/

open BudgetReaper.Action BudgetReaper.Pass

namespace Action.Thread

/-- The keys of the events of deletions that a thread has published, or tried to, in order. -/
def obituaries (t : Thread Session) : List Key :=
  t.trace.filterMap Effect.obituary?

/-- A thread with a cluster in the place of its own. -/
def on (t : Thread Session) (c : Cluster) : Thread Session :=
  { t with state := { t.state with cluster := c } }

/-- A reaper that is about to delete what it has marked. -/
structure Ready (t : Thread Session) : Prop where
  left : t.left = removals t.state.ledger.reapable
  wet : t.state.settings.dryRun.holds = false
  own : ∀ entry ∈ t.state.ledger.reapable, entry.2.key? = some entry.1
  lenient : t.state.sink.Lenient
  unreaped : t.state.ledger.reaped = []
  unpublished : t.obituaries = []

end Action.Thread

/-- Reapers that share a cluster.  In the state of a thread stands the cluster as its last turn has left
it; at its next turn it finds the shared one. -/
structure World (ι : Type) : Type 1 where
  cluster : Cluster
  threads : ι → Thread Session

namespace World

variable {ι : Type}

/-- A reaper with the cluster as it finds it. -/
def thread (w : World ι) (i : ι) : Thread Session :=
  (w.threads i).on w.cluster

/-- The marks of a reaper. -/
def marks (w : World ι) (i : ι) : List (Key × Budget) :=
  (w.threads i).state.ledger.reapable

/-- Some reaper has marked the key. -/
def Marked (w : World ι) (key : Key) : Prop :=
  ∃ i, key ∈ Assoc.keys (w.marks i)

/-- Reapers about to delete what they have marked, which is all there.  A deletion takes a budget away
or finds none, and the other calls may fail. -/
structure Ready (w : World ι) : Prop where
  named : w.cluster.isNamed = true
  spares : w.cluster.plan.Spares
  remote : w.cluster.plan.Remote
  reapers : ∀ i, (w.threads i).Ready
  held : ∀ key, w.Marked key → w.cluster.holds key = true

/-- All that reapers have marked in a world is gone in another one, and has been reaped once. -/
structure ReapedOnce (w v : World ι) : Prop where
  /-- The books of a reaper are the deletions that it has published. -/
  booked : ∀ i, (v.threads i).state.ledger.reaped = (v.threads i).obituaries.map Key.text
  /-- One reaper has published the deletion of a marked key, once, and no other one has. -/
  once : ∀ key, w.Marked key → ∃ i, (v.threads i).obituaries.count key = 1 ∧
    ∀ j, j ≠ i → key ∉ (v.threads j).obituaries
  /-- Where texts tell keys apart, the same is true of the books. -/
  listed : (∀ key key', w.Marked key → w.Marked key' → key.text = key'.text → key = key') →
    ∀ key, w.Marked key → ∃ i, (v.threads i).state.ledger.reaped.count key.text = 1 ∧
      ∀ j, j ≠ i → key.text ∉ (v.threads j).state.ledger.reaped
  /-- A reaper publishes no deletion but of what it has marked. -/
  marked : ∀ i, ∀ key ∈ (v.threads i).obituaries, key ∈ Assoc.keys (w.marks i)
  /-- The cluster has lost what has been marked. -/
  gone : ∀ key, w.Marked key → v.cluster.holds key = false
  /-- The cluster has kept all else. -/
  kept : ∀ key, ¬ w.Marked key → v.cluster.holds key = w.cluster.holds key

variable [DecidableEq ι]

/-- The world after the next turn of a reaper. -/
def step (w : World ι) (i : ι) : World ι where
  cluster := (w.thread i).next.state.cluster
  threads := Function.update w.threads i (w.thread i).next

theorem thread_step_self (w : World ι) (i : ι) : (w.step i).thread i = (w.thread i).next := by
  have turned : (w.step i).threads i = (w.thread i).next := Function.update_self ..
  rw [thread, turned]
  rfl

theorem thread_step_of_ne (w : World ι) {i j : ι} (other : j ≠ i) :
    (w.step i).thread j = (w.thread j).on (w.step i).cluster := by
  have waits : (w.step i).threads j = w.threads j := Function.update_of_ne other ..
  rw [thread, waits]
  rfl

/-- The world after turns in the order of a schedule. -/
def run (w : World ι) (schedule : List ι) : World ι :=
  schedule.foldl step w

/-- What becomes of reapers that share a cluster in the order of a schedule. -/
structure Shared (w : World ι) (schedule : List ι) : Prop where
  /-- The turns of a reaper are the deletion of its marks. -/
  whole : ∀ i, (w.threads i).left.whole = forEach remove (w.marks i)
  /-- A turn makes at most one call, so that the calls may come in any order. -/
  single : ∀ i, (w.threads i).left.Single
  /-- No reaper fails. -/
  unfailing : ∀ i f, ((w.run schedule).threads i).left ≠ .ended (.error f)
  /-- A reaper comes to its end by two turns for each of its marks. -/
  ends : ∀ i, 2 * (w.marks i).length ≤ schedule.count i →
    ((w.run schedule).threads i).left = .ended (.ok ())
  /-- When all reapers have come to their ends, all has been reaped once. -/
  reaped : (∀ i, ∃ result, ((w.run schedule).threads i).left = .ended result) →
    ReapedOnce w (w.run schedule)

end World

/-! ### What has been won -/

/-- The cluster has lost the budgets of keys that it held, and nothing else. -/
structure Cluster.Loses (c : Cluster) (keys : List Key) (c' : Cluster) : Prop where
  held : ∀ key ∈ keys, c.holds key = true
  distinct : keys.Nodup
  left : ∀ key, c'.holds key = true ↔ c.holds key = true ∧ key ∉ keys
  named : c'.isNamed = true
  plan : c'.plan = c.plan

namespace Cluster

variable {c c' : Cluster} {calls : List Call} {keys : List Key}

theorem Loses.fewer (h : c.Loses keys c') (key : Key) (held : c'.holds key = true) :
    c.holds key = true :=
  ((h.left key).mp held).1

theorem loses_after (named : c.isNamed = true) (spares : c.plan.Spares) (distinct : keys.Nodup)
    (lost : ∀ key, key ∈ keys ↔ c.holds key = true ∧ key ∈ asked calls) :
    c.Loses keys (c.after calls) where
  held key h := ((lost key).mp h).1
  distinct := distinct
  left key := by
    rw [holds_after named spares, lost]
    exact and_congr_right fun held => not_congr ⟨fun h => ⟨held, h⟩, And.right⟩
  named := isNamed_after named calls
  plan := c.plan_after calls

theorem loses_nothing (named : c.isNamed = true) (spares : c.plan.Spares)
    (unasked : asked calls = []) : c.Loses [] (c.after calls) :=
  loses_after named spares List.nodup_nil fun key => by simp [unasked]

theorem loses_delete (named : c.isNamed = true) (spares : c.plan.Spares) (key : Key) :
    c.Loses (if c.holds key then [key] else []) (c.after [.delete key]) := by
  have one : asked [.delete key] = [key] := rfl
  refine loses_after named spares (by split <;> simp) fun key' => ?_
  rw [one, List.mem_singleton]
  cases held : c.holds key with
  | true =>
      rw [if_pos rfl, List.mem_singleton]
      exact ⟨fun same => ⟨same ▸ held, same⟩, And.right⟩
  | false =>
      refine ⟨fun mem => absurd mem List.not_mem_nil, ?_⟩
      rintro ⟨held', rfl⟩
      cases held.symm.trans held'

end Cluster

/-- Where a reaper with marks stands that has asked for all but the `rest` of them and has won keys of
which the last ones are `pending`, not in its books yet. -/
structure Standing (marks rest : List (Key × Budget)) (won pending : List Key) (t : Thread Session) :
    Prop where
  wet : t.state.settings.dryRun.holds = false
  lenient : t.state.sink.Lenient
  published : t.obituaries ++ pending = won
  booked : t.state.ledger.reaped ++ pending.map Key.text = won.map Key.text
  own : ∀ key ∈ won, key ∈ Assoc.keys marks
  ahead : ∀ entry ∈ rest, entry ∈ marks
  past : ∀ entry ∈ marks, entry ∈ rest ∨ t.state.cluster.holds entry.1 = false

/-- A reaper on its way through its marks, with the number of turns that it has left. -/
inductive Going (marks : List (Key × Budget)) (won : List Key) (t : Thread Session) : Nat → Prop
  | asking {rest : List (Key × Budget)} (left : t.left = removals rest)
      (standing : Standing marks rest won [] t) : Going marks won t (2 * rest.length)
  | settling {entry : Key × Budget} {granted : Bool} {rest : List (Key × Budget)}
      (left : t.left = .turn (follow entry (some granted)) fun _ => removals rest)
      (own : entry.2.key? = some entry.1)
      (standing : Standing marks rest won (if granted then [entry.1] else []) t) :
      Going marks won t (2 * rest.length + 1)

section Turn

variable {marks rest : List (Key × Budget)} {won pending : List Key} {t : Thread Session}
  {c : Cluster} {turns : Nat}

/-- A reaper stands where it stood when others have taken budgets away. -/
theorem Standing.on_fewer (h : Standing marks rest won pending t)
    (fewer : ∀ key, c.holds key = true → t.state.cluster.holds key = true) :
    Standing marks rest won pending (t.on c) where
  wet := h.wet
  lenient := h.lenient
  published := h.published
  booked := h.booked
  own := h.own
  ahead := h.ahead
  past entry mem := (h.past entry mem).imp_right fun gone =>
    Bool.eq_false_iff.mpr fun held => Bool.eq_false_iff.mp gone (fewer _ held)

theorem Going.on_fewer (h : Going marks won t turns)
    (fewer : ∀ key, c.holds key = true → t.state.cluster.holds key = true) :
    Going marks won (t.on c) turns := by
  cases h with
  | asking left standing => exact .asking left (standing.on_fewer fewer)
  | settling left own standing => exact .settling left own (standing.on_fewer fewer)

/-- Asking for a deletion wins the key if it is held, and the books are left as they are. -/
theorem Standing.ask {entry : Key × Budget} {claimed : List Key} {left : Turns Session}
    {trace : List Effect} (h : Standing marks (entry :: rest) won [] t)
    (claims : claimed = if t.state.cluster.holds entry.1 then [entry.1] else [])
    (loses : t.state.cluster.Loses claimed c)
    (unpublished : trace.filterMap Effect.obituary? = []) :
    Standing marks rest (won ++ claimed) claimed
      ⟨left, { t.state with cluster := c }, t.trace ++ trace⟩ where
  wet := h.wet
  lenient := h.lenient
  published := by
    rw [← h.published, Thread.obituaries, List.filterMap_append, unpublished]
    rfl
  booked := by
    rw [List.map_append, ← h.booked]
    simp only [List.map_nil, List.append_nil]
  own key mem := by
    rcases List.mem_append.mp mem with before | now
    · exact h.own key before
    · rw [claims] at now
      split at now
      · obtain rfl := List.mem_singleton.mp now
        exact List.mem_map_of_mem (h.ahead entry List.mem_cons_self)
      · cases now
  ahead other mem := h.ahead other (List.mem_cons_of_mem entry mem)
  past other mem := by
    rcases (h.on_fewer loses.fewer).past other mem with ahead | gone
    · refine (List.mem_cons.mp ahead).symm.imp_right ?_
      rintro rfl
      -- the key that has just been asked for is not held any more
      refine Bool.eq_false_iff.mpr fun held => ?_
      obtain ⟨before, kept⟩ := (loses.left other.1).mp held
      rw [claims, before, if_pos rfl] at kept
      exact kept (List.mem_singleton_self other.1)
    · exact .inr gone

/-- What has been pending is in the books once it has been settled. -/
theorem Standing.settle {left : Turns Session} {s : Session} {trace : List Effect}
    (h : Standing marks rest won pending t) (settings : s.settings = t.state.settings)
    (lenient : s.sink.Lenient)
    (fewer : ∀ key, s.cluster.holds key = true → t.state.cluster.holds key = true)
    (booked : s.ledger.reaped = t.state.ledger.reaped ++ pending.map Key.text)
    (published : trace.filterMap Effect.obituary? = pending) :
    Standing marks rest won [] ⟨left, s, t.trace ++ trace⟩ where
  wet := settings ▸ h.wet
  lenient := lenient
  published := by
    rw [List.append_nil, Thread.obituaries, List.filterMap_append, published]
    exact h.published
  booked := by
    rw [List.map_nil, List.append_nil, booked]
    exact h.booked
  own := h.own
  ahead := h.ahead
  past := (h.on_fewer fewer).past

/-- A turn of a reaper: it wins what the cluster loses, and it goes on. -/
theorem Going.next (own : ∀ entry ∈ marks, entry.2.key? = some entry.1)
    (named : t.state.cluster.isNamed = true) (spares : t.state.cluster.plan.Spares)
    (remote : t.state.cluster.plan.Remote) (h : Going marks won t turns) :
    ∃ claimed, t.state.cluster.Loses claimed t.next.state.cluster ∧
      Going marks (won ++ claimed) t.next (turns - 1) := by
  cases h with
  | @asking rest left standing =>
      cases rest with
      | nil =>
          rw [Thread.next_of_ended left]
          have loses : t.state.cluster.Loses [] (t.state.cluster.after []) :=
            Cluster.loses_nothing named spares rfl
          refine ⟨[], loses, ?_⟩
          rw [List.append_nil]
          exact .asking left standing
      | cons entry rest =>
          have next := Thread.next_of_turn left
          rw [ask_apply standing.wet named spares] at next
          have loses := Cluster.loses_delete named spares entry.1
          have turns : 2 * (entry :: rest).length - 1 = 2 * rest.length + 1 := by
            rw [List.length_cons]
            omega
          rw [next, turns]
          exact ⟨_, loses, .settling rfl (own entry (standing.ahead entry List.mem_cons_self))
            (standing.ask rfl loses rfl)⟩
  | @settling entry granted rest left own standing =>
      have next := Thread.next_of_turn left
      obtain ⟨done, booked, published⟩ := settle_apply own remote standing.lenient granted
      have replayed := replayed_settle entry granted t.state
      have loses : t.state.cluster.Loses [] (settle entry granted t.state).state.cluster := by
        rw [replayed.cluster]
        refine Cluster.loses_nothing named spares ?_
        exact (asked_calls _).trans (deletions_settle entry granted t.state)
      have lenient : (settle entry granted t.state).state.sink.Lenient := by
        rw [replayed.sink]
        exact standing.lenient.after _
      rw [next, follow, done, Nat.add_sub_cancel]
      refine ⟨[], loses, ?_⟩
      rw [List.append_nil]
      exact .asking rfl
        (standing.settle (keeps_settle entry granted t.state) lenient loses.fewer booked published)

/-- A reaper that goes on has not failed, and one that has ended has been through all of its marks. -/
theorem Going.of_ended (h : Going marks won t turns) {result : Except Failure Unit}
    (left : t.left = .ended result) : result = .ok () ∧ Standing marks [] won [] t := by
  cases h with
  | @asking rest asks standing =>
      cases rest with
      | nil => exact ⟨Turns.ended.inj (left.symm.trans asks), standing⟩
      | cons entry rest => cases left.symm.trans asks
  | settling settles own standing => cases left.symm.trans settles

/-- A reaper without turns left has ended. -/
theorem Going.ended (h : Going marks won t turns) (none_left : turns = 0) :
    t.left = .ended (.ok ()) := by
  cases h with
  | @asking rest asks standing =>
      cases rest with
      | nil => exact asks
      | cons entry rest => cases none_left
  | settling settles own standing => cases none_left

end Turn

/-! ### Every run -/

namespace World

variable {ι : Type} [DecidableEq ι] {w₀ w : World ι} {done : List ι} {won : ι → List Key}

/-- What reapers have won by their turns `done`, since the world has been `w₀`.  No key is won twice,
and what is left in the cluster are the keys that nobody has won. -/
structure Sharing (w₀ : World ι) (done : List ι) (won : ι → List Key) (w : World ι) : Prop where
  named : w.cluster.isNamed = true
  plan : w.cluster.plan = w₀.cluster.plan
  distinct : ∀ i, (won i).Nodup
  apart : ∀ i j key, key ∈ won i → key ∈ won j → i = j
  left : ∀ key, w.cluster.holds key = true ↔ w₀.cluster.holds key = true ∧ ∀ i, key ∉ won i
  going : ∀ i, Going (w₀.marks i) (won i) (w.thread i) (2 * (w₀.marks i).length - done.count i)

theorem mem_update_append {claimed : List Key} {i j : ι} {key : Key} :
    key ∈ Function.update won i (won i ++ claimed) j ↔ key ∈ won j ∨ j = i ∧ key ∈ claimed := by
  rcases eq_or_ne j i with rfl | other
  · simp
  · simp [other]

theorem Sharing.start (ready : w₀.Ready) : Sharing w₀ [] (fun _ => []) w₀ where
  named := ready.named
  plan := rfl
  distinct _ := List.nodup_nil
  apart _ _ _ h := absurd h List.not_mem_nil
  left _ := ⟨fun held => ⟨held, fun _ => List.not_mem_nil⟩, And.left⟩
  going i :=
    .asking (ready.reapers i).left
      { wet := (ready.reapers i).wet
        lenient := (ready.reapers i).lenient
        published := by rw [List.append_nil]; exact (ready.reapers i).unpublished
        booked := by rw [List.map_nil, List.append_nil]; exact (ready.reapers i).unreaped
        own := fun _ h => absurd h List.not_mem_nil
        ahead := fun _ h => h
        past := fun _ h => .inl h }

/-- What the cluster loses was held, so nobody had won it before. -/
theorem Sharing.fresh {c : Cluster} {claimed : List Key} (h : Sharing w₀ done won w)
    (loses : w.cluster.Loses claimed c) {key : Key} (mem : key ∈ claimed) (i : ι) : key ∉ won i :=
  ((h.left key).mp (loses.held key mem)).2 i

/-- A turn of a reaper adds what the cluster loses to what it has won. -/
theorem Sharing.claim {i : ι} {claimed : List Key} (h : Sharing w₀ done won w)
    (loses : w.cluster.Loses claimed (w.thread i).next.state.cluster)
    (going : Going (w₀.marks i) (won i ++ claimed) (w.thread i).next
      (2 * (w₀.marks i).length - done.count i - 1)) :
    Sharing w₀ (done ++ [i]) (Function.update won i (won i ++ claimed)) (w.step i) where
  named := loses.named
  plan := loses.plan.trans h.plan
  distinct j := by
    rcases eq_or_ne j i with rfl | other
    · rw [Function.update_self, List.nodup_append']
      exact ⟨h.distinct j, loses.distinct, fun key mem now => h.fresh loses now j mem⟩
    · rw [Function.update_of_ne other]
      exact h.distinct j
  apart j k key mem mem' := by
    rcases mem_update_append.mp mem with before | ⟨rfl, now⟩ <;>
      rcases mem_update_append.mp mem' with before' | ⟨rfl, now'⟩
    · exact h.apart j k key before before'
    · exact absurd before (h.fresh loses now' j)
    · exact absurd before' (h.fresh loses now k)
    · rfl
  left key := by
    have unwon : (∀ j, key ∉ Function.update won i (won i ++ claimed) j) ↔
        (∀ j, key ∉ won j) ∧ key ∉ claimed := by
      simp only [mem_update_append, not_or, not_and, forall_and, forall_eq]
    rw [unwon, ← and_assoc, ← h.left]
    exact loses.left key
  going j := by
    rcases eq_or_ne j i with rfl | other
    · have turns : 2 * (w₀.marks j).length - (done ++ [j]).count j =
          2 * (w₀.marks j).length - done.count j - 1 := by
        rw [List.count_append, List.count_singleton_self, Nat.sub_add_eq]
      rw [turns, thread_step_self, Function.update_self]
      exact going
    · have turns : (done ++ [i]).count j = done.count j := by
        rw [List.count_append, List.count_singleton, beq_false_of_ne other.symm]
        rfl
      rw [turns, thread_step_of_ne w other, Function.update_of_ne other]
      exact (h.going j).on_fewer loses.fewer

theorem Sharing.step (ready : w₀.Ready) (h : Sharing w₀ done won w) (i : ι) :
    ∃ won', Sharing w₀ (done ++ [i]) won' (w.step i) := by
  have spares : w.cluster.plan.Spares := h.plan ▸ ready.spares
  have remote : w.cluster.plan.Remote := h.plan ▸ ready.remote
  obtain ⟨claimed, loses, going⟩ :=
    (h.going i).next (ready.reapers i).own h.named spares remote
  exact ⟨_, h.claim loses going⟩

/-- What the reapers have won after turns in any order. -/
theorem sharing_run (ready : w.Ready) (schedule : List ι) :
    ∃ won, Sharing w schedule won (w.run schedule) := by
  induction schedule using List.reverseRecOn with
  | nil => exact ⟨_, .start ready⟩
  | append_singleton done i ih =>
      obtain ⟨won, sharing⟩ := ih
      rw [run, List.foldl_append]
      exact sharing.step ready i

/-- When all reapers have come to their ends, what has been won is what is in the books, and every
marked key has been won. -/
theorem Sharing.reapedOnce (ready : w₀.Ready) (h : Sharing w₀ done won w)
    (ended : ∀ i, ∃ result, (w.threads i).left = .ended result) : ReapedOnce w₀ w := by
  have standing (i : ι) : Standing (w₀.marks i) [] (won i) [] (w.thread i) := by
    obtain ⟨result, left⟩ := ended i
    exact ((h.going i).of_ended (t := w.thread i) left).2
  have published (i : ι) : (w.threads i).obituaries = won i :=
    (List.append_nil _).symm.trans (standing i).published
  have booked (i : ι) : (w.threads i).state.ledger.reaped = (won i).map Key.text :=
    (List.append_nil _).symm.trans (standing i).booked
  have own (i : ι) (key : Key) (mem : key ∈ won i) : w₀.Marked key := ⟨i, (standing i).own key mem⟩
  have gone (key : Key) (marked : w₀.Marked key) : w.cluster.holds key = false := by
    obtain ⟨i, among⟩ := marked
    obtain ⟨entry, mem, rfl⟩ := List.mem_map.mp among
    exact ((standing i).past entry mem).resolve_left List.not_mem_nil
  have winner (key : Key) (marked : w₀.Marked key) : ∃ i, key ∈ won i := by
    by_contra unwon
    have held := (h.left key).mpr ⟨ready.held key marked, not_exists.mp unwon⟩
    cases held.symm.trans (gone key marked)
  refine
    { booked := fun i => by rw [booked, published]
      once := fun key marked => ?once
      listed := fun injective key marked => ?listed
      marked := fun i key mem => (standing i).own key (published i ▸ mem)
      gone := gone
      kept := fun key unmarked => ?kept }
  case once =>
    obtain ⟨i, mem⟩ := winner key marked
    refine ⟨i, ?_, fun j other mem' => ?_⟩
    · rw [published]
      exact List.count_eq_one_of_mem (h.distinct i) mem
    · rw [published] at mem'
      exact other (h.apart j i key mem' mem)
  case listed =>
    obtain ⟨i, mem⟩ := winner key marked
    have texts : ((won i).map Key.text).Nodup :=
      (h.distinct i).map_on fun key mem key' mem' =>
        injective key key' (own i key mem) (own i key' mem')
    refine ⟨i, ?_, fun j other mem' => ?_⟩
    · rw [booked]
      exact List.count_eq_one_of_mem texts (List.mem_map_of_mem mem)
    · rw [booked] at mem'
      obtain ⟨key', theirs, same⟩ := List.mem_map.mp mem'
      obtain rfl := injective key' key (own j key' theirs) marked same
      exact other (h.apart j i key' theirs mem)
  case kept =>
    have unwon (i : ι) : key ∉ won i := fun mem => unmarked (own i key mem)
    rw [Bool.eq_iff_iff, h.left]
    exact and_iff_left unwon

/-- Reapers whose marks overlap reap every marked budget once, in whatever order they have their
turns, and none of them fails. -/
theorem rivals (ready : w.Ready) (schedule : List ι) : Shared w schedule := by
  obtain ⟨won, sharing⟩ := sharing_run ready schedule
  refine
    { whole := fun i => ?whole
      single := fun i => ?single
      unfailing := fun i f failed => ?unfailing
      ends := fun i enough => (sharing.going i).ended (Nat.sub_eq_zero_of_le enough)
      reaped := sharing.reapedOnce ready }
  case whole => rw [(ready.reapers i).left]; exact whole_removals (w.marks i)
  case single => rw [(ready.reapers i).left]; exact single_removals (w.marks i)
  case unfailing => cases ((sharing.going i).of_ended (t := (w.run schedule).thread i) failed).1

/-- Two reapers share a shop where every event is rejected.  One has marked both of the budgets, the
other one of them. -/
def rivalShop : World Bool where
  cluster := (shop (rejectingEvents Cluster.faultless) .absent).cluster
  threads both :=
    let web := ((some "shop", some "web"), blockingBudget "shop" "web" 0)
    let api := ((some "shop", some "api"), blockingBudget "shop" "api" 1)
    let marks := if both then [web, api] else [api]
    { left := removals marks
      state :=
        { shop (rejectingEvents Cluster.faultless) .absent with ledger := { reapable := marks } } }

theorem ready_rivalShop : rivalShop.Ready where
  named := rfl
  spares _ _ := rfl
  remote := remote_rejectingEvents Plan.remote_faultless
  reapers both := by
    cases both <;> exact ⟨rfl, rfl, by decide, Sink.lenient_absent, rfl, rfl⟩
  held := by
    have held : ∀ both, ∀ key ∈ Assoc.keys (rivalShop.marks both),
        rivalShop.cluster.holds key = true := by decide
    rintro key ⟨both, mem⟩
    exact held both key mem

/-- The reaper of two budgets has its turns first and last, and loses one of the budgets to the other
one in between. -/
theorem rivals_shop :
    rivalShop.Ready ∧
      ReapedOnce rivalShop (rivalShop.run [true, true, false, true, false, true]) ∧
      ((rivalShop.run [true, true, false, true, false, true]).threads true).state.ledger.reaped =
        ["shop/web"] ∧
      ((rivalShop.run [true, true, false, true, false, true]).threads false).state.ledger.reaped =
        ["shop/api"] := by
  have shared := rivals ready_rivalShop [true, true, false, true, false, true]
  refine ⟨ready_rivalShop, shared.reaped fun both => ⟨_, shared.ends both ?_⟩, by rfl, by rfl⟩
  cases both <;> decide

end World

end BudgetReaper
