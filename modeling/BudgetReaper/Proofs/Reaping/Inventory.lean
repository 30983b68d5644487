import BudgetReaper.Proofs.Action.Showing
import BudgetReaper.Proofs.Reaping.Completeness
import BudgetReaper.Proofs.Reaping.Exclusion
import BudgetReaper.Proofs.Reaping.Halt

/-!
# Reaping — the inventory of a scan

The budgets attended are those listed whose namespaces are not left alone.  Their namespaces, each once
and in the order in which they occur first, are the keys of all that a scan groups (`groups_eq`): the
blocking budgets are grouped from the groups, so that a namespace has its place from its first budget
attended, whether that one blocks or not (`blocking_eq`).

What a scan tells of is read through two views of its trace.  The namespaces left alone come from the
pass over the list that precedes the grouping (`exclusions_tellExcluded`), the budgets passed over from
the entering of the groups (`shows_enter`).

**Inventory** (`inventoried`).  A scan makes one call.  If it is given a list, and every budget on the
list has metadata, it returns, and a ledger that was empty before then holds each namespace of several
budgets attended with all of them, and each namespace of blocking budgets attended with all of these.
Each namespace left alone has been told of once, and each budget passed over.
-/

namespace BudgetReaper

namespace Effect

/-- The namespace that is said to be left alone. -/
def exclusion? : Effect → Option (Option String)
  | notice (.excluded space) => some space
  | _ => none

/-- What is said of a budget that is passed over. -/
def ignored? : Effect → Option Notice
  | notice (.ignored budget reason details) => some (.ignored budget reason details)
  | _ => none

end Effect

namespace Settings

variable {st : Settings}

/-- The budgets whose namespaces are left alone. -/
def avoided (st : Settings) (budgets : List Budget) : List Budget :=
  budgets.filter st.leavesAlone

/-- With a list of namespaces to leave alone it can be told of every namespace whether it is. -/
theorem isExcluded_list {items : List Value} (h : st.excludedSpaces = .list items) (space : Value) :
    st.isExcluded space = .ok (items.any space.equals) := by
  rw [isExcluded, h]
  rfl

/-- With such a list budgets are admitted that have metadata. -/
theorem admission_eq_ok_list {items : List Value} (h : st.excludedSpaces = .list items)
    {budgets : List Budget} :
    st.admission budgets = .ok () ↔ ∀ b ∈ budgets, b.metadata ≠ none := by
  rw [admission_eq_ok_iff]
  refine forall₂_congr fun b _ => ?_
  rw [Option.ne_none_iff_exists']
  refine exists_congr fun m => ⟨fun ⟨_, hm, _⟩ => hm, fun hm => ?_⟩
  exact ⟨_, hm, isExcluded_list h _⟩

/-- What is entered is what is not left alone, under its namespace. -/
theorem filterMap_visible {items : List Value} (h : st.excludedSpaces = .list items)
    (budgets : List Budget) :
    budgets.filterMap (visible? st) =
      (st.attended budgets).filterMap fun b => b.space?.map (·, b) := by
  rw [attended, List.filterMap_filter]
  refine congrArg (List.filterMap · budgets) (funext fun b => ?_)
  unfold visible? leavesAlone Budget.space?
  cases b.metadata with
  | none => rfl
  | some m =>
      simp only [Option.bind_some, Option.any_some, isExcluded_list h, affirms]
      cases items.any (Value.ofText? m.space).equals <;> rfl

end Settings

namespace Session

/-- The listed budgets that are not left alone, in listing order. -/
def attended (s : Session) : List Budget :=
  s.settings.attended s.cluster.budgets

/-- Their namespaces, in listing order. -/
def spaces (s : Session) : List (Option String) :=
  s.attended.filterMap Budget.space?

/-- Those of one namespace, in listing order. -/
def attendedOf (s : Session) (space : Option String) : List Budget :=
  s.attended.filter (·.space? = some space)

end Session

namespace Pass

open BudgetReaper.Action

/-! ### The groups -/

section Groups

variable {s : Session} {items : List Value} (listed : s.settings.excludedSpaces = .list items)

include listed

/-- The groups of a scan, one after the other. -/
theorem groups_eq :
    s.evidence.groups = s.spaces.eraseDups.map fun space => (space, s.attendedOf space) := by
  have keys : Assoc.keys (s.cluster.budgets.filterMap (visible? s.settings)) = s.spaces := by
    rw [Settings.filterMap_visible listed, Assoc.keys, List.map_filterMap]
    refine congrArg (List.filterMap · s.attended) (funext fun b => ?_)
    cases b.space? <;> rfl
  have members (space : Option String) :
      ((s.cluster.budgets.filterMap (visible? s.settings)).filter (·.1 = space)).map Prod.snd =
        s.attendedOf space := by
    rw [Settings.filterMap_visible listed, List.filter_filterMap, List.map_filterMap,
      Session.attendedOf, ← List.filterMap_eq_filter]
    refine congrArg (List.filterMap · s.attended) (funext fun b => ?_)
    cases own : b.space? with
    | none => simp [Option.guard, own]
    | some k => by_cases same : k = space <;> simp [Option.guard, Option.filter, own, same]
  change groupsOf s.settings s.cluster.budgets = _
  rw [groupsOf, groupBySpace_eq, keys]
  exact List.map_congr_left fun space _ => by rw [members]

theorem several_eq :
    severalOf s.evidence.groups =
      (s.spaces.eraseDups.filter fun space => 1 < (s.attendedOf space).length).map fun space =>
        (space, s.attendedOf space) := by
  rw [groups_eq listed, severalOf, List.filter_map]
  rfl

theorem blocking_eq :
    groupBySpace s.evidence.obstacles =
      (s.spaces.eraseDups.filter fun space => (s.attendedOf space).any Budget.isBlocking).map
        fun space => (space, (s.attendedOf space).filter Budget.isBlocking) := by
  have some_left (bs : List Budget) :
      (!(bs.filter Budget.isBlocking).isEmpty) = bs.any Budget.isBlocking := by
    rw [Bool.eq_iff_iff]
    simp
  rw [Evidence.obstacles_eq, groupBySpace_filter_entriesOf _ (Evidence.nodup_groups _),
    groups_eq listed, List.map_map, List.filter_map]
  simp only [Function.comp_def, some_left]

/-- The members of the groups are the budgets that are not left alone. -/
theorem members_groups (named : ∀ b ∈ s.cluster.budgets, b.metadata ≠ none) :
    ((entriesOf s.evidence.groups).map Prod.snd).Perm s.attended := by
  have members : (s.cluster.budgets.filterMap (visible? s.settings)).map Prod.snd = s.attended := by
    rw [Settings.filterMap_visible listed, List.map_filterMap]
    refine (List.filterMap_congr fun b hb => ?_).trans List.filterMap_some
    obtain ⟨m, hm⟩ := Option.ne_none_iff_exists'.mp (named b (List.mem_of_mem_filter hb))
    rw [Budget.space?, hm]
    rfl
  exact members ▸ (perm_entriesOf_groupBySpace _).map _

end Groups

/-! ### What is said -/

/-- What is said of a budget that does not block. -/
def passedOver (b : Budget) : Notice :=
  .ignored b.fullName "non-blocking" (ignoredDetails b)

theorem flatMap_passedOver (bs : List Budget) :
    (bs.flatMap fun b => if b.isBlocking then [] else [passedOver b]) =
      (bs.filter fun b => !b.isBlocking).map passedOver := by
  induction bs with
  | nil => rfl
  | cons b rest ih => cases hb : b.isBlocking <;> simp [hb, ih]

/-- Of each namespace that is left alone and has not been told of, it is told once. -/
theorem exclusions_tellExcluded {s : Session} {budgets : List Budget}
    (admitted : s.settings.admission budgets = .ok ()) (told : List (Option String)) :
    (tellExcluded told budgets s).trace.filterMap Effect.exclusion? =
      (((s.settings.avoided budgets).filterMap Budget.space?).filter
        fun space => !told.contains space).eraseDups := by
  induction budgets generalizing told with
  | nil => rfl
  | cons b rest ih =>
      rw [Settings.admission] at admitted
      rw [tellExcluded, metadataOf, Settings.avoided, List.filter_cons, Settings.leavesAlone]
      cases hm : b.metadata with
      | none => rw [hm] at admitted; cases admitted
      | some m =>
          simp only [hm] at admitted
          dsimp only
          rw [done_bind, settings_bind_apply]
          cases hx : s.settings.isExcluded (.ofText? m.space) with
          | error f => rw [hx] at admitted; cases admitted
          | ok excluded =>
              simp only [hx] at admitted
              rw [ofExcept_ok, LawfulMonad.pure_bind]
              have space : b.space? = some m.space := by rw [Budget.space?, hm]; rfl
              simp only [Option.any_some, hx, affirms]
              cases excluded with
              | false => exact ih admitted told
              | true =>
                  rw [if_pos rfl, List.filterMap_cons_some space]
                  -- a namespace told of is not told of again, as `eraseDups` has it
                  cases known : told.contains m.space with
                  | true =>
                      rw [List.filter_cons_of_neg (by rw [known]; exact Bool.false_ne_true)]
                      exact ih admitted told
                  | false =>
                      rw [List.filter_cons_of_pos (by rw [known]; rfl),
                        List.eraseDups_cons, List.filter_filter]
                      refine congrArg (m.space :: ·) ((ih admitted (m.space :: told)).trans ?_)
                      refine congrArg (fun p => (List.filter p _).eraseDups)
                        (funext fun other => ?_)
                      rw [List.contains_cons, Bool.not_or]

/-- Going through the list tells of nothing but namespaces. -/
theorem emits_tellExcluded {allowed : Effect → Prop}
    (h : ∀ space, allowed (.notice (.excluded space))) (told : List (Option String))
    (budgets : List Budget) :
    Emits allowed (tellExcluded told budgets) := by
  intro s e he
  obtain ⟨space, rfl⟩ := (tellExcluded_apply told budgets s).2.2 e he
  exact h space

/-- What an entry of a budget can emit. -/
theorem emits_sort {allowed : Effect → Prop} (ignored : ∀ b, allowed (.notice (passedOver b)))
    (taken : ∀ x, allowed (.notice (recorded x)))
    (refused : ∀ x f, allowed (.notice (unrecorded x f))) (sample : ∀ x, allowed (.sample x))
    (space : Option String) (b : Budget) : Emits allowed (sort space b) :=
  .ite (.bind (.update _) fun _ => emits_tally_of taken refused fun _ _ => sample _)
    (.say (ignored b))

theorem emits_enter {allowed : Effect → Prop} (ignored : ∀ b, allowed (.notice (passedOver b)))
    (taken : ∀ x, allowed (.notice (recorded x)))
    (refused : ∀ x f, allowed (.notice (unrecorded x f))) (sample : ∀ x, allowed (.sample x))
    (groups : List (Option String × List Budget)) : Emits allowed (enter groups) :=
  .bind (.update _) fun _ => .forEach fun g _ => .forEach fun b _ =>
    emits_sort ignored taken refused sample g.1 b

theorem shows_sort (space : Option String) (b : Budget) :
    Shows Effect.ignored? (sort space b) (if b.isBlocking then [] else [passedOver b]) := by
  refine .ite (fun blocks => ?_) fun moves => ?_
  · rw [if_pos blocks]
    exact .of_unseen (.bind (.update _) fun _ =>
      emits_tally_of (fun _ => rfl) (fun _ _ => rfl) fun _ _ => rfl)
  · rw [if_neg moves]
    exact .emit _

/-- Entering groups tells of each member that does not block. -/
theorem shows_enter (groups : List (Option String × List Budget)) :
    Shows Effect.ignored? (enter groups)
      (((entriesOf groups).map Prod.snd).flatMap fun b =>
        if b.isBlocking then [] else [passedOver b]) := by
  have members : (entriesOf groups).map Prod.snd = groups.flatMap fun g => g.2 := by
    simp [entriesOf, List.map_flatMap, Function.comp_def]
  rw [members, List.flatMap_assoc]
  exact .quiet_bind (.update _) fun _ => .forEach fun g _ => .forEach fun b _ => shows_sort g.1 b

/-! ### The inventory -/

/-- A scan whose list is given and admitted enters what it groups, after it has told of the namespaces
left alone. -/
theorem scan_of_admitted {s : Session} (answered : s.cluster.planned .listAll = none)
    (admitted : s.settings.admission s.cluster.budgets = .ok ()) :
    scan s =
      ⟨(enter s.evidence.groups (s.counted .listAll)).result,
        (enter s.evidence.groups (s.counted .listAll)).state,
        .call .listAll :: ((tellExcluded [] s.cluster.budgets (s.counted .listAll)).trace ++
          (enter s.evidence.groups (s.counted .listAll)).trace)⟩ := by
  obtain ⟨result, state, -⟩ := tellExcluded_apply [] s.cluster.budgets (s.counted .listAll)
  have sorted : sortOut s.cluster.budgets (s.counted .listAll) =
      ⟨(enter s.evidence.groups (s.counted .listAll)).result,
        (enter s.evidence.groups (s.counted .listAll)).state,
        (tellExcluded [] s.cluster.budgets (s.counted .listAll)).trace ++
          (enter s.evidence.groups (s.counted .listAll)).trace⟩ := by
    rw [sortOut, bind_of_ok (result.trans admitted), state, settings_bind_apply]
    rfl
  rw [scan_of_listed answered, sorted]

/-- A scan makes one call, and its sorting none. -/
theorem calls_scan (s : Session) : (scan s).calls = [.listAll] := by
  cases planned : s.cluster.planned .listAll with
  | some f =>
      rw [scan_of_planned planned]
      rfl
  | none =>
      have quiet : Emits (fun e => e.call? = none) (sortOut s.cluster.budgets) :=
        .bind (emits_tellExcluded (fun _ => rfl) [] _) fun _ =>
          .bind (.bind .state fun _ => .pure _) fun _ =>
            emits_enter (fun _ => rfl) (fun _ => rfl) (fun _ _ => rfl) (fun _ => rfl) _
      rw [scan_of_listed planned]
      exact congrArg (Call.listAll :: ·) (List.filterMap_eq_nil_iff.mpr (quiet _))

/-- What is grouped has metadata, so it is entered, whatever the samples of it meet. -/
theorem result_enter {s : Session} (lenient : s.sink.Lenient) :
    (enter s.evidence.groups s).result = .ok () := by
  cases hr : (enter s.evidence.groups s).result with
  | ok _ => rfl
  | error f =>
      exact (breaks_enter (e := s.evidence) (l := s.ledger) s rfl ⟨rfl, rfl, lenient⟩ f hr).elim

/-- What a scan that returns leaves of an empty ledger. -/
theorem ledger_scan {s : Session} (fresh : s.ledger = {}) (returned : (scan s).result = .ok ()) :
    (scan s).state.ledger =
      { multiple := severalOf s.evidence.groups, blocking := groupBySpace s.evidence.obstacles } := by
  have start : s.findings = (s.evidence, {}) := Prod.ext rfl fresh
  rw [← Evidence.scanned_eq, ← Evidence.entered_empty]
  exact (Prod.mk.inj (yields_scan_onto {} s start () returned).2).2

/-- Of the namespaces left alone it is told before the groups are entered. -/
theorem exclusions_scan {s : Session} (returned : (scan s).result = .ok ()) :
    (scan s).trace.filterMap Effect.exclusion? =
      ((s.settings.avoided s.cluster.budgets).filterMap Budget.space?).eraseDups := by
  obtain ⟨answered, admitted⟩ := admitted_of_scanned returned
  have quiet : (enter s.evidence.groups (s.counted .listAll)).trace.filterMap
      Effect.exclusion? = [] :=
    List.filterMap_eq_nil_iff.mpr (emits_enter (fun _ => rfl) (fun _ => rfl) (fun _ _ => rfl)
      (fun _ => rfl) _ _)
  rw [scan_of_admitted answered admitted, List.filterMap_cons_none rfl, List.filterMap_append, quiet,
    List.append_nil, exclusions_tellExcluded (s := s.counted .listAll) admitted []]
  exact congrArg List.eraseDups (List.filter_eq_self.mpr fun _ _ => rfl)

/-- Of the budgets passed over it is told as they are entered, group by group. -/
theorem ignored_scan {s : Session} (returned : (scan s).result = .ok ()) :
    (scan s).trace.filterMap Effect.ignored? =
      (((entriesOf s.evidence.groups).map Prod.snd).filter fun b => !b.isBlocking).map passedOver := by
  obtain ⟨answered, admitted⟩ := admitted_of_scanned returned
  have quiet : (tellExcluded [] s.cluster.budgets (s.counted .listAll)).trace.filterMap
      Effect.ignored? = [] :=
    List.filterMap_eq_nil_iff.mpr (emits_tellExcluded (fun _ => rfl) [] _ _)
  rw [scan_of_admitted answered admitted] at returned ⊢
  rw [List.filterMap_cons_none rfl, List.filterMap_append, quiet, List.nil_append,
    shows_enter _ _ _ returned, flatMap_passedOver]

/-- What a scan makes of the budgets that are listed. -/
structure Inventoried (s : Session) : Prop where
  /-- One call, whatever becomes of the scan. -/
  calls : (scan s).calls = [.listAll]
  /-- It returns exactly if it is given a list of budgets with metadata. -/
  completes : s.sink.Lenient → ((scan s).result = .ok () ↔
    s.cluster.planned .listAll = none ∧ ∀ b ∈ s.cluster.budgets, b.metadata ≠ none)
  /-- The namespaces with several budgets, each with all of them. -/
  multiple : (scan s).result = .ok () → (scan s).state.ledger.multiple =
    (s.spaces.eraseDups.filter fun space => 1 < (s.attendedOf space).length).map fun space =>
      (space, s.attendedOf space)
  /-- The namespaces with blocking budgets, each with these. -/
  blocking : (scan s).result = .ok () → (scan s).state.ledger.blocking =
    (s.spaces.eraseDups.filter fun space => (s.attendedOf space).any Budget.isBlocking).map
      fun space => (space, (s.attendedOf space).filter Budget.isBlocking)
  /-- Both in the order in which the namespaces occur first. -/
  ordered : (scan s).result = .ok () →
    ∀ groups ∈ [(scan s).state.ledger.multiple, (scan s).state.ledger.blocking],
      (Assoc.keys groups).Pairwise fun a b => s.spaces.idxOf a < s.spaces.idxOf b
  /-- Of each namespace left alone it is told once, in the order in which they occur first. -/
  excluded : (scan s).result = .ok () → (scan s).trace.filterMap Effect.exclusion? =
    ((s.settings.avoided s.cluster.budgets).filterMap Budget.space?).eraseDups
  /-- Of each budget that is not left alone and does not block it is told once. -/
  ignored : (scan s).result = .ok () → ((scan s).trace.filterMap Effect.ignored?).Perm
    ((s.attended.filter fun b => !b.isBlocking).map passedOver)

/-- Groups of namespaces in the order of their first occurrence are in that order. -/
theorem pairwise_keys {s : Session} {p : Option String → Bool}
    {members : Option String → List Budget} :
    (Assoc.keys ((s.spaces.eraseDups.filter p).map fun space => (space, members space))).Pairwise
      fun a b => s.spaces.idxOf a < s.spaces.idxOf b := by
  have keys : Assoc.keys ((s.spaces.eraseDups.filter p).map fun space => (space, members space)) =
      s.spaces.eraseDups.filter p := by
    simp [Assoc.keys, Function.comp_def]
  rw [keys]
  exact (pairwise_eraseDups s.spaces).sublist List.filter_sublist

/-- A scan from an empty ledger loses, repeats and misplaces no budget. -/
theorem inventoried {s : Session} (fresh : s.ledger = {}) {items : List Value}
    (listed : s.settings.excludedSpaces = .list items) : Inventoried s := by
  have named (returned : (scan s).result = .ok ()) : ∀ b ∈ s.cluster.budgets, b.metadata ≠ none :=
    (Settings.admission_eq_ok_list listed).mp (admitted_of_scanned returned).2
  have ledger (returned : (scan s).result = .ok ()) := ledger_scan fresh returned
  refine ⟨calls_scan s, fun lenient => ⟨fun returned => ?_, fun ⟨answered, named⟩ => ?_⟩,
    fun returned => ?_, fun returned => ?_, fun returned => ?_, exclusions_scan,
    fun returned => ?_⟩
  · exact ⟨(admitted_of_scanned returned).1, named returned⟩
  · have admitted := (Settings.admission_eq_ok_list listed).mpr named
    rw [scan_of_admitted answered admitted]
    exact result_enter (s := s.counted .listAll) lenient
  · rw [ledger returned]
    exact several_eq listed
  · rw [ledger returned]
    exact blocking_eq listed
  · intro groups hg
    rw [ledger returned] at hg
    rcases List.mem_cons.mp hg with rfl | hg
    · change (Assoc.keys (severalOf s.evidence.groups)).Pairwise _
      rw [several_eq listed]
      exact pairwise_keys
    · obtain rfl := List.mem_singleton.mp hg
      change (Assoc.keys (groupBySpace s.evidence.obstacles)).Pairwise _
      rw [blocking_eq listed]
      exact pairwise_keys
  · rw [ignored_scan returned]
    exact ((members_groups listed (named returned)).filter _).map _

/-- A budget that does not block, having no status. -/
def movingBudget (space name : String) : Budget :=
  { blockingBudget space name 1 with status := none }

/-- The shop with a bakery next door, whose budgets are listed in between: the shop is listed first, but
the bakery blocks first. -/
def street : Session :=
  let s := shop Cluster.faultless emptyRegistry
  { s with
    cluster :=
      { s.cluster with
        budgets := [movingBudget "shop" "web", blockingBudget "bakery" "oven" 0,
          blockingBudget "kube-system" "dns" 0, blockingBudget "shop" "api" 1] } }

/-- The namespaces of the blocking budgets are in the order of the listing all the same. -/
theorem inventoried_street :
    street.ledger = {} ∧
      street.settings.excludedSpaces =
        .list (["kube-system", "kube-public", "kube-node-lease"].map .str) ∧
      (scan street).result = .ok () ∧
      Assoc.keys (scan street).state.ledger.blocking = [some "shop", some "bakery"] ∧
      Inventoried street :=
  ⟨rfl, rfl, by rfl, by rfl, inventoried rfl rfl⟩

end Pass

end BudgetReaper
