/-
**The source set of an entry: every unit that it reaches, once, breadth first.**

The loop that follows imports stops at its first failure, so what it returns is said of a list that
no failure cuts short: the canonical paths that the entry reaches, in the order in which the imports
of one path after the other mention them. A path without a unit and an import without a canonical
form are problems of their places in this list, and the first of all problems is the failure.

* `UnitStore.Follows` is the order; `UnitStore.Follows.unique`: there is one such list.
* `UnitStore.enqueue_ok`, `UnitStore.enqueue_error`: the imports of one unit.
* **`UnitStore.exists_follows`**: the list exists, and the loop returns what it calls for, whatever
  number of loads it is given beyond that of the units not yet loaded.
* **`source_set_eq_reachable`**: what the source set of an entry is.
-/

import Mathlib.Data.List.Nodup
import Mathlib.Data.List.Perm.Subperm
import Mathlib.Logic.Relation
import ObjectLowering.Source.UnitStore

namespace ObjectLowering.Source

/-! ### First occurrences -/

section FirstOccurrences

variable {α : Type} [BEq α] [LawfulBEq α]

theorem nodup_eraseDups (items : List α) : items.eraseDups.Nodup := by
  induction length : items.length using Nat.strongRecOn generalizing items with
  | _ _ step =>
    cases items with
    | nil => exact List.nodup_nil
    | cons item rest =>
      rw [List.eraseDups_cons, List.nodup_cons, List.mem_eraseDups, List.mem_filter]
      refine ⟨fun ⟨_, other⟩ => ?_, step _ ?_ _ rfl⟩
      · rw [beq_self_eq_true] at other
        cases other
      · rw [← length, List.length_cons]
        exact Nat.lt_succ_of_le (List.length_filter_le _ _)

/-- Only the members of what is removed matter. -/
theorem removeAll_congr (items : List α) {removed others : List α}
    (same : ∀ item, item ∈ removed ↔ item ∈ others) :
    items.removeAll removed = items.removeAll others := by
  unfold List.removeAll
  refine List.filter_congr fun item _ => ?_
  rw [Bool.eq_iff_iff, Bool.not_eq_true', Bool.not_eq_true', ← Bool.not_eq_true,
    ← Bool.not_eq_true, List.elem_iff, List.elem_iff, same]

/-- What is removed is among what it was removed for. -/
theorem mem_or_mem_removeAll {item : α} {items removed : List α} :
    item ∈ removed ∨ item ∈ items.removeAll removed ↔ item ∈ removed ∨ item ∈ items := by
  unfold List.removeAll
  rw [List.mem_filter, Bool.not_eq_true', ← Bool.not_eq_true, List.elem_iff]
  exact or_congr_right' fun new => and_iff_left new

theorem removeAll_cons_of_mem {item : α} {removed : List α} (met : item ∈ removed)
    (items : List α) : (item :: items).removeAll removed = items.removeAll removed := by
  rw [List.cons_removeAll, List.contains_iff_mem.mpr met]
  rfl

theorem eraseDups_removeAll_cons {item : α} {removed : List α} (new : item ∉ removed)
    (items : List α) : ((item :: items).removeAll removed).eraseDups =
      item :: (items.removeAll (item :: removed)).eraseDups := by
  have unmet : removed.contains item = false :=
    Bool.eq_false_iff.mpr (mt List.contains_iff_mem.mp new)
  rw [List.cons_removeAll, if_pos unmet, List.eraseDups_cons]
  unfold List.removeAll
  rw [List.filter_filter]
  refine congrArg (item :: ·.eraseDups) (List.filter_congr fun other _ => ?_)
  rw [List.elem_cons]
  cases other == item <;> rfl

end FirstOccurrences

namespace UnitStore

/-! ### Imports, problems and the order of paths -/

/-- Why a written path has no canonical form. -/
def outside? (path : String) : Option SourceError :=
  match canonicalPath path with
  | .ok _ => none
  | .error error => some error

/-- The canonical forms of written paths that have one. -/
def canonicals (written : List String) : List Path :=
  written.filterMap fun path => (canonicalPath path).toOption

/-- The canonical forms of the imports of a path, in written order. -/
def importsOf (store : UnitStore) (path : Path) : List Path :=
  match store.find? path with
  | none => []
  | some unit => canonicals unit.imports

/-- What is wrong with a path: it has no unit, or imports of its unit have no canonical form. -/
def problems (store : UnitStore) (path : Path) : List SourceError :=
  match store.find? path with
  | none => [.notFound path.text]
  | some unit => unit.imports.filterMap outside?

/-- A canonical path is reached from another along canonical imports. -/
def Reaches (store : UnitStore) : Path → Path → Prop :=
  Relation.ReflTransGen fun path other => other ∈ store.importsOf path

/-- The paths that one reaches, breadth first: the path itself, then what the imports of the paths
of the list mention, path by path, each at its first mention. -/
structure Follows (store : UnitStore) (start : Path) (paths : List Path) : Prop where
  distinct : paths.Nodup
  reached : ∀ path, path ∈ paths ↔ store.Reaches start path
  ordered : paths = (start :: paths.flatMap store.importsOf).eraseDups

/-- What the loop returns for paths in order: their units, unless there is a problem. -/
def outcome (store : UnitStore) (paths : List Path) : Except SourceError (List SourceUnit) :=
  match paths.flatMap store.problems with
  | [] => .ok (paths.filterMap store.find?)
  | error :: _ => .error error

variable {store : UnitStore} {start path : Path} {paths : List Path}

theorem outcome_cons_ok {unit : SourceUnit} (found : store.find? path = some unit)
    (fine : store.problems path = []) :
    store.outcome (path :: paths) = (store.outcome paths).map (unit :: ·) := by
  unfold outcome
  rw [List.flatMap_cons, fine, List.nil_append, List.filterMap_cons_some found]
  cases paths.flatMap store.problems <;> rfl

theorem outcome_cons_error {error : SourceError} {errors : List SourceError}
    (problem : store.problems path = error :: errors) :
    store.outcome (path :: paths) = .error error := by
  unfold outcome
  rw [List.flatMap_cons, problem]
  rfl

/-! ### The imports of one unit -/

/-- The first import without a canonical form is the failure. -/
theorem enqueue_error {imports : List String} {error : SourceError} {errors : List SourceError}
    (problem : imports.filterMap outside? = error :: errors) (seen queue : List Path) :
    enqueue seen queue imports = .error error := by
  induction imports generalizing seen queue with
  | nil => cases problem
  | cons written rest step =>
    unfold enqueue
    cases canonical : canonicalPath written with
    | error first =>
      have here : outside? written = some first := by unfold outside?; rw [canonical]
      rw [List.filterMap_cons_some here, List.cons.injEq] at problem
      rw [problem.1]
      rfl
    | ok path =>
      have fine : outside? written = none := by unfold outside?; rw [canonical]
      rw [List.filterMap_cons_none fine] at problem
      show (if path ∈ seen then enqueue seen queue rest
        else enqueue (path :: seen) (queue ++ [path]) rest) = .error error
      split
      · exact step problem _ _
      · exact step problem _ _

/-- **The imports of a unit go behind the queue, each at its first mention**, if it was not seen. -/
theorem enqueue_ok {imports : List String} (fine : imports.filterMap outside? = [])
    (seen queue : List Path) :
    ∃ after, (∀ path, path ∈ after ↔ path ∈ seen ∨ path ∈ canonicals imports) ∧
      enqueue seen queue imports =
        .ok (after, queue ++ ((canonicals imports).removeAll seen).eraseDups) := by
  induction imports generalizing seen queue with
  | nil =>
    refine ⟨seen, fun path => (or_iff_left List.not_mem_nil).symm, ?_⟩
    show Except.ok (seen, queue) = .ok (seen, queue ++ [])
    rw [List.append_nil]
  | cons written rest step =>
    rw [List.filterMap_eq_nil_iff, List.forall_mem_cons, ← List.filterMap_eq_nil_iff] at fine
    obtain ⟨path, canonical⟩ : ∃ path, canonicalPath written = .ok path := by
      have fine := fine.1
      unfold outside? at fine
      split at fine
      · exact ⟨_, ‹_›⟩
      · cases fine
    have first : canonicals (written :: rest) = path :: canonicals rest :=
      List.filterMap_cons_some (by rw [canonical]; rfl)
    rw [first]
    unfold enqueue
    rw [canonical]
    show ∃ after, _ ∧ (if path ∈ seen then enqueue seen queue rest
      else enqueue (path :: seen) (queue ++ [path]) rest) = _
    by_cases met : path ∈ seen
    · obtain ⟨after, members, done⟩ := step fine.2 seen queue
      refine ⟨after, fun other => ?_, ?_⟩
      · rw [members, List.mem_cons, ← or_assoc]
        refine or_congr_left (or_iff_left_of_imp ?_).symm
        rintro rfl
        exact met
      · rw [if_pos met, done, removeAll_cons_of_mem met]
    · obtain ⟨after, members, done⟩ := step fine.2 (path :: seen) (queue ++ [path])
      refine ⟨after, fun other => ?_, ?_⟩
      · rw [members, List.mem_cons, List.mem_cons, or_assoc, or_left_comm]
      · rw [if_neg met, done, eraseDups_removeAll_cons met, List.append_assoc,
          List.singleton_append]

/-! ### One load after the other -/

/-- What the imports of a path mention anew. -/
def mentionsNew (store : UnitStore) (met : List Path) (path : Path) : List Path :=
  ((store.importsOf path).removeAll met).eraseDups

/-- What the loop has met: the paths that were loaded and those of the queue, in order. -/
structure Pending (store : UnitStore) (start : Path) (loaded queue : List Path) : Prop where
  ordered : loaded ++ queue = (start :: loaded.flatMap store.importsOf).eraseDups
  reached : ∀ path ∈ loaded ++ queue, store.Reaches start path

/-- The paths that can be met. -/
def mentioned (store : UnitStore) (start : Path) : List Path :=
  start :: store.entries.flatMap fun entry => canonicals entry.2.imports

/-- The paths of units that were not loaded. -/
def unloaded (store : UnitStore) (loaded : List Path) : List Path :=
  (store.entries.map (·.1)).filter (!loaded.contains ·)

theorem mem_of_find? {unit : SourceUnit} (found : store.find? path = some unit) :
    (path, unit) ∈ store.entries := by
  obtain ⟨⟨_, _⟩, first, rfl⟩ := Option.map_eq_some_iff.mp found
  have same := List.find?_some first
  rw [← beq_iff_eq.mp same]
  exact List.mem_of_find?_eq_some first

variable {loaded queue : List Path}

namespace Pending

theorem initial (store : UnitStore) (start : Path) : store.Pending start [] [start] where
  ordered := rfl
  reached path member := by
    rw [List.mem_singleton.mp member]
    exact .refl

theorem nodup (pending : store.Pending start loaded queue) : (loaded ++ queue).Nodup := by
  rw [pending.ordered]
  exact nodup_eraseDups _

theorem append_next (loaded queue : List Path) (path : Path) (new : List Path) :
    loaded ++ [path] ++ (queue ++ new) = loaded ++ path :: queue ++ new := by
  rw [List.append_assoc, List.singleton_append, List.append_assoc, List.cons_append]

/-- **Loading the first path of the queue puts what it mentions anew behind the queue.** -/
theorem next (pending : store.Pending start loaded (path :: queue)) :
    store.Pending start (loaded ++ [path])
      (queue ++ store.mentionsNew (loaded ++ path :: queue) path) := by
  constructor
  · rw [append_next, List.flatMap_append, List.flatMap_singleton, ← List.cons_append,
      List.eraseDups_append, ← pending.ordered]
    refine congrArg (_ ++ List.eraseDups ·) (removeAll_congr _ fun other => ?_)
    rw [pending.ordered, List.mem_eraseDups]
  · rw [append_next]
    intro other member
    rcases List.mem_append.mp member with met | new
    · exact pending.reached other met
    · have imported := List.mem_of_mem_filter (List.mem_eraseDups.mp new)
      exact .tail (pending.reached path (List.mem_append_right _ List.mem_cons_self)) imported

/-- Once the queue is empty, everything was met. -/
theorem follows (pending : store.Pending start loaded []) : store.Follows start loaded := by
  obtain ⟨ordered, reached⟩ := pending
  rw [List.append_nil] at ordered reached
  refine ⟨?_, fun path => ⟨reached path, fun way => ?_⟩, ordered⟩
  · rw [ordered]
    exact nodup_eraseDups _
  · rw [ordered, List.mem_eraseDups]
    induction way with
    | refl => exact List.mem_cons_self
    | @tail above _ _ imported met =>
      rw [← List.mem_eraseDups, ← ordered] at met
      exact List.mem_cons_of_mem _ (List.mem_flatMap.mpr ⟨above, met, imported⟩)

/-- Only so many paths can be met. -/
theorem length_le (pending : store.Pending start loaded queue) :
    loaded.length + queue.length ≤ (store.mentioned start).length := by
  rw [← List.length_append]
  refine (List.subperm_of_subset pending.nodup fun path member => ?_).length_le
  rw [pending.ordered, List.mem_eraseDups] at member
  rcases List.mem_cons.mp member with rfl | imported
  · exact List.mem_cons_self
  · obtain ⟨above, _, imported⟩ := List.mem_flatMap.mp imported
    unfold importsOf at imported
    split at imported
    · cases imported
    · rename_i unit found
      exact List.mem_cons_of_mem _ (List.mem_flatMap.mpr ⟨_, mem_of_find? found, imported⟩)

/-- The path that is loaded next was not loaded before. -/
theorem not_mem_loaded (pending : store.Pending start loaded (path :: queue)) : path ∉ loaded :=
  fun before => (List.nodup_append.mp pending.nodup).2.2 path before path List.mem_cons_self rfl

end Pending

/-- A load leaves fewer units to load. -/
theorem length_unloaded_lt {unit : SourceUnit} (found : store.find? path = some unit)
    (new : path ∉ loaded) :
    (store.unloaded (loaded ++ [path])).length < (store.unloaded loaded).length := by
  have less : store.unloaded (loaded ++ [path]) = (store.unloaded loaded).filter (· ≠ path) := by
    unfold unloaded
    rw [List.filter_filter]
    refine List.filter_congr fun other _ => ?_
    simp [Bool.and_comm]
  rw [less]
  refine List.length_filter_lt_length_iff_exists.mpr ⟨path, ?_, by simp⟩
  exact List.mem_filter.mpr ⟨List.mem_map_of_mem (mem_of_find? found), by simpa using new⟩

/-- The loop may go on from here: it knows what was met and has loads for all other units. -/
structure Ready (store : UnitStore) (loaded queue seen : List Path) (loads : Nat) : Prop where
  met : ∀ path, path ∈ seen ↔ path ∈ loaded ++ queue
  enough : (store.unloaded loaded).length ≤ loads

/-- **A load leaves the loop ready**: behind the path it has met what the path imports. -/
theorem Ready.next {unit : SourceUnit} (found : store.find? path = some unit)
    (new : path ∉ loaded) {seen after : List Path} {loads : Nat}
    (ready : store.Ready loaded (path :: queue) seen (loads + 1))
    (members : ∀ other, other ∈ after ↔ other ∈ seen ∨ other ∈ store.importsOf path) :
    store.Ready (loaded ++ [path])
      (queue ++ store.mentionsNew (loaded ++ path :: queue) path) after loads := by
  have less := length_unloaded_lt found new
  refine ⟨fun other => ?_, Nat.le_of_lt_succ (Nat.lt_of_lt_of_le less ready.enough)⟩
  rw [members, ready.met, Pending.append_next, ← mem_or_mem_removeAll]
  exact (or_congr_right List.mem_eraseDups.symm).trans List.mem_append.symm

/-- **One turn of the loop**: it fails with the first problem of the path, or goes on behind it. -/
theorem follow_cons (pending : store.Pending start loaded (path :: queue)) {seen : List Path}
    {loads : Nat} (ready : store.Ready loaded (path :: queue) seen loads) {rest : List Path}
    (goesOn : ∀ {seen loads}, store.Ready (loaded ++ [path])
        (queue ++ store.mentionsNew (loaded ++ path :: queue) path) seen loads →
      store.follow loads seen (queue ++ store.mentionsNew (loaded ++ path :: queue) path) =
        store.outcome rest) :
    store.follow loads seen (path :: queue) = store.outcome (path :: rest) := by
  cases found : store.find? path with
  | none =>
    have problem : store.problems path = [.notFound path.text] := by
      unfold problems
      rw [found]
    rw [outcome_cons_error problem]
    cases loads with
    | zero => rfl
    | succ loads =>
      unfold follow
      rw [found]
  | some unit =>
    have less := length_unloaded_lt found pending.not_mem_loaded
    obtain ⟨loads, rfl⟩ :=
      Nat.exists_eq_add_one.mpr (Nat.lt_of_lt_of_le (Nat.zero_lt_of_lt less) ready.enough)
    have problems : store.problems path = unit.imports.filterMap outside? := by
      unfold UnitStore.problems
      rw [found]
    unfold follow
    rw [found]
    dsimp only
    cases fine : unit.imports.filterMap outside? with
    | cons error errors =>
      rw [enqueue_error fine, outcome_cons_error (problems.trans fine)]
      rfl
    | nil =>
      obtain ⟨after, members, done⟩ := enqueue_ok fine seen queue
      have imports : store.importsOf path = canonicals unit.imports := by
        unfold importsOf
        rw [found]
      have new : ((canonicals unit.imports).removeAll seen).eraseDups =
          store.mentionsNew (loaded ++ path :: queue) path := by
        unfold mentionsNew
        rw [imports, removeAll_congr _ ready.met]
      rw [← imports] at members
      rw [done, outcome_cons_ok found (problems.trans fine), new,
        ← goesOn (ready.next found pending.not_mem_loaded members)]
      rfl

/-- **The loop returns what the order of its paths calls for**, given loads for all units that were
not loaded. -/
theorem exists_follows (pending : store.Pending start loaded queue) :
    ∃ rest, store.Follows start (loaded ++ rest) ∧
      ∀ {seen loads}, store.Ready loaded queue seen loads →
        store.follow loads seen queue = store.outcome rest := by
  -- Each path is loaded once, and there are only so many.
  induction left : (store.mentioned start).length - loaded.length using Nat.strongRecOn
    generalizing loaded queue with
  | _ _ step =>
    cases queue with
    | nil =>
      refine ⟨[], ?_, fun {_ loads} _ => by cases loads <;> rfl⟩
      rw [List.append_nil]
      exact pending.follows
    | cons path queue =>
      have shorter : (store.mentioned start).length - (loaded ++ [path]).length <
          (store.mentioned start).length - loaded.length := by
        have bound := pending.length_le
        rw [List.length_cons] at bound
        rw [List.length_append, List.length_singleton]
        omega
      obtain ⟨rest, follows, goesOn⟩ := step _ (left ▸ shorter) pending.next rfl
      refine ⟨path :: rest, ?_, fun ready => follow_cons pending ready goesOn⟩
      rwa [List.append_assoc, List.singleton_append] at follows

/-- At the start the loop has loads for all units. -/
theorem Ready.initial {loads : Nat} (enough : store.size ≤ loads) :
    store.Ready [] [start] [start] loads := by
  refine ⟨fun _ => Iff.rfl, Nat.le_trans ?_ enough⟩
  exact Nat.le_trans (List.length_filter_le _ _) (Nat.le_of_eq (List.length_map _))

/-! ### The order -/

/-- What the start of a list mentions comes first. -/
theorem prefix_of_prefix {first : List Path} (front : first <+: paths) :
    (start :: first.flatMap store.importsOf).eraseDups <+:
      (start :: paths.flatMap store.importsOf).eraseDups := by
  obtain ⟨behind, rfl⟩ := front
  rw [List.flatMap_append, ← List.cons_append, List.eraseDups_append]
  exact List.prefix_append _ _

/-- A start of the list that mentions nothing beyond itself is all of it. -/
theorem Follows.eq_of_prefix (follows : store.Follows start paths) {first : List Path}
    (front : first <+: paths)
    (closed : (start :: first.flatMap store.importsOf).eraseDups ⊆ first) : first = paths := by
  refine front.eq_of_length (Nat.le_antisymm front.length_le ?_)
  refine (List.subperm_of_subset follows.distinct fun path member => ?_).length_le
  have way := (follows.reached path).mp member
  clear member
  induction way with
  | refl => exact closed (List.mem_eraseDups.mpr List.mem_cons_self)
  | @tail above _ _ imported met =>
    refine closed (List.mem_eraseDups.mpr (List.mem_cons_of_mem _ ?_))
    exact List.mem_flatMap.mpr ⟨above, met, imported⟩

/-- **There is one list of the paths that a path reaches in order.** -/
theorem Follows.unique {others : List Path} (follows : store.Follows start paths)
    (other : store.Follows start others) : paths = others := by
  suffices common : ∀ count, paths = others ∨ ∃ first, first.length = count ∧
      first <+: paths ∧ first <+: others by
    obtain same | ⟨first, length, front, _⟩ := common (paths.length + 1)
    · exact same
    · exact absurd front.length_le (by omega)
  intro count
  induction count with
  | zero => exact .inr ⟨[], rfl, List.nil_prefix, List.nil_prefix⟩
  | succ count step =>
    obtain same | ⟨first, rfl, front, frontToo⟩ := step
    · exact .inl same
    have behind : (start :: first.flatMap store.importsOf).eraseDups <+: paths :=
      follows.ordered ▸ prefix_of_prefix front
    have behindToo : (start :: first.flatMap store.importsOf).eraseDups <+: others :=
      other.ordered ▸ prefix_of_prefix frontToo
    rcases Nat.lt_or_ge first.length (start :: first.flatMap store.importsOf).eraseDups.length
      with longer | short
    · refine .inr ⟨_, List.length_take_of_le longer, ?_, ?_⟩
      · exact (List.take_prefix _ _).trans behind
      · exact (List.take_prefix _ _).trans behindToo
    · have closed := (List.prefix_of_prefix_length_le behind front short).subset
      left
      rw [← follows.eq_of_prefix front closed, other.eq_of_prefix frontToo closed]

/-! ### What the problems are -/

/-- A path has a problem if it has no unit, or an import of its unit has no canonical form. -/
theorem problems_ne_nil_iff : store.problems path ≠ [] ↔
    store.find? path = none ∨ ∃ unit, store.find? path = some unit ∧
      ∃ written ∈ unit.imports, ∃ error, canonicalPath written = .error error := by
  unfold problems
  cases store.find? path with
  | none => exact ⟨fun _ => .inl rfl, fun _ => List.cons_ne_nil _ _⟩
  | some unit =>
    rw [or_iff_right (Option.some_ne_none unit), Ne, List.filterMap_eq_nil_iff, not_forall₂]
    constructor
    · rintro ⟨written, inside, outside⟩
      refine ⟨unit, rfl, written, inside, ?_⟩
      unfold outside? at outside
      split at outside
      · exact absurd rfl outside
      · exact ⟨_, ‹_›⟩
    · rintro ⟨_, ⟨⟩, written, inside, error, outside⟩
      refine ⟨written, inside, ?_⟩
      unfold outside?
      rw [outside]
      exact Option.some_ne_none error

theorem outcome_eq_error_iff {error : SourceError} :
    store.outcome paths = .error error ↔ (paths.flatMap store.problems).head? = some error := by
  unfold outcome
  cases paths.flatMap store.problems with
  | nil => exact ⟨nofun, nofun⟩
  | cons first _ => rw [List.head?_cons, Option.some.injEq, Except.error.injEq]

/-- Where the loop returns units, no path has a problem. -/
theorem problems_of_outcome {units : List SourceUnit} (done : store.outcome paths = .ok units)
    (member : path ∈ paths) : store.problems path = [] := by
  unfold outcome at done
  split at done
  · rename_i fine
    exact List.flatMap_eq_nil_iff.mp fine path member
  · cases done

/-- Without problems every path has its unit. -/
theorem map_find?_of_outcome {units : List SourceUnit} (done : store.outcome paths = .ok units) :
    paths.map store.find? = units.map some := by
  unfold outcome at done
  split at done
  · rename_i fine
    cases done
    rw [List.flatMap_eq_nil_iff] at fine
    induction paths with
    | nil => rfl
    | cons path rest step =>
      rw [List.forall_mem_cons] at fine
      cases found : store.find? path with
      | none => exact absurd fine.1 (problems_ne_nil_iff.mpr (.inl found))
      | some unit =>
        rw [List.filterMap_cons_some found, List.map_cons, List.map_cons, step fine.2, found]
  · cases done

/-- Every unit is registered under the canonical form of its own path. -/
def Registered (store : UnitStore) : Prop :=
  ∀ entry ∈ store.entries, canonicalPath entry.2.path = .ok entry.1

theorem Registered.insert (registered : store.Registered) {unit : SourceUnit} {after : UnitStore}
    (inserted : store.insert unit = .ok after) : after.Registered := by
  unfold UnitStore.insert at inserted
  cases canonical : canonicalPath unit.path with
  | error _ =>
    rw [canonical] at inserted
    cases inserted
  | ok path =>
    rw [canonical] at inserted
    cases inserted
    intro entry member
    rcases List.mem_append.mp member with old | new
    · exact registered entry (List.mem_of_mem_filter old)
    · rw [List.mem_singleton.mp new]
      exact canonical

theorem Registered.map_path (registered : store.Registered) {units : List SourceUnit}
    (found : paths.map store.find? = units.map some) :
    units.map (canonicalPath ·.path) = paths.map .ok := by
  induction paths generalizing units with
  | nil =>
    rw [List.map_eq_nil_iff.mp found.symm]
    rfl
  | cons path rest step =>
    obtain ⟨unit, others, rfl, here, behind⟩ := List.map_eq_cons_iff.mp found.symm
    rw [List.map_cons, List.map_cons, step behind.symm, registered _ (mem_of_find? here.symm)]

end UnitStore

open UnitStore

/-- **The source set of an entry has every unit that it reaches, once, breadth first.** It fails if
the entry itself has no canonical form; and otherwise exactly if a path that is reached has no unit
or an import of its unit has no canonical form, with the first such problem in the same order. The
loop needs no bound: with more loads it returns the same. -/
theorem source_set_eq_reachable (store : UnitStore) (entry : String) :
    (∀ error, canonicalPath entry = .error error →
      error = .outsideRoot entry ∧ store.sourceSet entry = .error error) ∧
    ∀ start, canonicalPath entry = .ok start → ∃ paths, store.Follows start paths ∧
      (∀ units, store.sourceSet entry = .ok units → paths.map store.find? = units.map some ∧
        (store.Registered → units.map (canonicalPath ·.path) = paths.map .ok)) ∧
      ((∃ error, store.sourceSet entry = .error error) ↔
        ∃ path, store.Reaches start path ∧ (store.find? path = none ∨
          ∃ unit, store.find? path = some unit ∧
            ∃ written ∈ unit.imports, ∃ error, canonicalPath written = .error error)) ∧
      (∀ error, store.sourceSet entry = .error error ↔
        (paths.flatMap store.problems).head? = some error) ∧
      ∀ loads, store.size ≤ loads →
        store.follow loads [start] [start] = store.sourceSet entry := by
  unfold sourceSet
  constructor
  · intro error outside
    rw [outside]
    unfold canonicalPath at outside
    split at outside
    · cases outside
    · cases outside
      exact ⟨rfl, rfl⟩
  · intro start canonical
    rw [canonical]
    show ∃ paths, store.Follows start paths ∧
      (∀ units, store.follow store.size [start] [start] = .ok units → _) ∧
      ((∃ error, store.follow store.size [start] [start] = .error error) ↔ _) ∧
      (∀ error, store.follow store.size [start] [start] = .error error ↔ _) ∧
      ∀ loads, _ → _ = store.follow store.size [start] [start]
    obtain ⟨paths, follows, returns⟩ := exists_follows (.initial store start)
    rw [List.nil_append] at follows
    rw [returns (.initial (Nat.le_refl _))]
    refine ⟨paths, follows, fun units done => ?_, ?_, fun _ => outcome_eq_error_iff,
      fun loads enough => returns (.initial enough)⟩
    · have found := map_find?_of_outcome done
      exact ⟨found, fun registered => registered.map_path found⟩
    · simp only [outcome_eq_error_iff, ← problems_ne_nil_iff, ← follows.reached]
      rw [← Option.isSome_iff_exists, List.isSome_head?, Ne, List.flatMap_eq_nil_iff, not_forall₂]
      exact exists_congr fun path => exists_prop

/-- A unit with nothing but a path and imports. -/
def SourceUnit.importing (path : String) (imports : List String) : SourceUnit where
  path := path
  package := []
  imports := imports
  classes := []
  nodes := #[]
  stmtCount := 0

/-- Units that import each other in a circle, under several spellings. -/
def UnitStore.circle : UnitStore where
  entries := [
    ([.normal "c", .normal "C"], .importing "c/C" ["c/../Main", "c/C"]),
    ([.normal "a", .normal "A"], .importing "a/A" ["c/C", "b/../a/A"]),
    ([.normal "b", .normal "B"], .importing "b/B" ["a/A"]),
    ([.normal "Main"], .importing "Main" ["./a/A", "b/B", "a//A"])]

/-- Around the circle each unit is met once, in the order of the imports. -/
theorem source_set_eq_reachable_circle :
    ∃ paths units, UnitStore.circle.Follows [.normal "Main"] paths ∧
      UnitStore.circle.sourceSet "Main" = .ok units ∧
      paths.map UnitStore.circle.find? = units.map some ∧
      units.map (·.path) = ["Main", "a/A", "b/B", "c/C"] := by
  have read : (UnitStore.circle.sourceSet "Main").toOption.map (·.map (·.path)) =
      some ["Main", "a/A", "b/B", "c/C"] := by decide +kernel
  cases done : UnitStore.circle.sourceSet "Main" with
  | error _ =>
    rw [done] at read
    cases read
  | ok units =>
    rw [done] at read
    obtain ⟨paths, follows, returns, _⟩ :=
      (source_set_eq_reachable UnitStore.circle "Main").2 [.normal "Main"] rfl
    exact ⟨paths, units, follows, rfl, (returns units done).1, Option.some.inj read⟩

/-- **An entry outside the root fails although it reaches nothing.** -/
theorem source_set_fails_outside :
    UnitStore.sourceSet ⟨[]⟩ "../Main" = .error (.outsideRoot "../Main") ∧
      ¬∃ start path, canonicalPath "../Main" = .ok start ∧ UnitStore.Reaches ⟨[]⟩ start path ∧
        (UnitStore.find? ⟨[]⟩ path = none ∨ ∃ unit, UnitStore.find? ⟨[]⟩ path = some unit ∧
          ∃ written ∈ unit.imports, ∃ error, canonicalPath written = .error error) := by
  have outside : canonicalPath "../Main" = .error (.outsideRoot "../Main") := rfl
  refine ⟨rfl, ?_⟩
  rintro ⟨start, _, canonical, _⟩
  cases outside.symm.trans canonical

end ObjectLowering.Source
