/-
**Building each vtable once comes to the same vtables.**

A builder keeps the vtables that are finished and looks for a cycle among the classes that wait for
their parents. The vtables of a program are defined class by class, each along a lineage that is
walked anew. Both see the same: the classes that wait are those that the walk has passed, and where
a class is met whose vtable is finished the rest of the walk is known to come to its end.

* `Lineage.failure?` is why a walk fails, and `ClassTable.failure?_eq_none`: it does not where the
  class reaches a root.
* `VtableSet.Sound` says that vtables are built along lineages.
* **`VtableBuilder.build_spec`**: building a class succeeds or fails as the walk does.
* **`VtableBuilder.get?_buildAll`**: what is built for a table are its vtables.
-/

import ObjectLowering.Hierarchy.VtableBuilder
import ObjectLowering.Proofs.Hierarchy.Ancestry
import ObjectLowering.Proofs.Vtables.Bindings

namespace ObjectLowering

open Lineage (Passed)

/-- Why a walk fails; nothing where it comes to its end. -/
def Lineage.failure? : Lineage → Option LoweringError
  | .complete _ => none
  | .cycle repeated => some (.inheritanceCycle repeated)
  | .unknownParent child parent => some (.unknownParent child parent)

theorem Lineage.failure?_eq_cycle_iff {walk : Lineage} {repeated : Name} :
    walk.failure? = some (.inheritanceCycle repeated) ↔ walk = .cycle repeated := by
  cases walk <;> simp [failure?]

namespace ClassTable

variable {table : ClassTable} {name : Name} {info : ClassInfo} {passed : List Name} {steps : Nat}

/-- A walk from a class that reaches a root does not fail. -/
theorem failure?_eq_none (behind : Passed table passed name)
    (enough : table.size < steps + passed.length) (reaches : table.ReachesRoot name) :
    (Lineage.climb table.parentMap steps passed name).failure? = none := by
  obtain ⟨classes, complete⟩ := complete_of_reachesRoot behind enough reaches
  rw [complete]
  rfl

/-- What a walk does at a class of the table. -/
theorem climb_succ (found : table.class? name = some info) :
    Lineage.climb table.parentMap (steps + 1) passed name =
      if name ∈ passed then .cycle name
      else if info.parent = Reserved.empty then .complete (name :: passed).reverse
      else if table.contains info.parent then
        Lineage.climb table.parentMap steps (name :: passed) info.parent
      else .unknownParent name info.parent := by
  conv_lhs => unfold Lineage.climb
  rw [declared_of_class? found]
  have unknown : (table.parentMap.lookup info.parent).isNone = !table.contains info.parent := by
    rw [lookup_parentMap, Option.isNone_map, contains, Option.not_isSome]
  simp only [unknown]
  cases table.contains info.parent <;> rfl

/-- The lineage of a class is the class and that of its parent. -/
theorem isLineage_cons {parent : Name} {older : List Name} (up : table.Declares name parent)
    (known : table.contains parent = true) (above : IsLineage table.parentMap parent older) :
    IsLineage table.parentMap name (name :: older) := by
  obtain ⟨classes, complete⟩ :=
    (exists_complete_iff up.inside).mpr ((reachesRoot_of_isLineage above known).step up)
  have lineage := isLineage_of_complete complete
  obtain ⟨others, rfl, rest⟩ := up.lineage lineage
  rw [above.unique rest]
  exact lineage

end ClassTable

/-- The vtable of a class is that of its parent with its own methods added. -/
theorem Vtable.along_cons {table : ClassTable} {record : MangleRecord} {name : Name}
    {info : ClassInfo} (found : table.class? name = some info) (older : List Name) :
    Vtable.along table record (name :: older) =
      (Vtable.along table record older).extend record info := by
  rw [← List.singleton_append, Vtable.along_append]
  simp [found]

namespace VtableSet

variable {table : ClassTable} {record : MangleRecord} {set sets : VtableSet}

/-- Every vtable is that of a class of the table, built along its lineage. -/
def Sound (table : ClassTable) (record : MangleRecord) (set : VtableSet) : Prop :=
  ∀ name vtable, set.get? name = some vtable → table.contains name = true ∧
    ∃ classes, IsLineage table.parentMap name classes ∧ vtable = .along table record classes

theorem sound_ofTable (computed : ofTable table record = .ok set) : set.Sound table record := by
  intro name vtable found
  have inside := contains_of_get? computed found
  obtain ⟨classes, lineage, built⟩ := get?_of_contains computed inside
  exact ⟨inside, classes, lineage, Option.some.inj (found.symm.trans built)⟩

/-- Two sets with vtables for every class of the table are the same. -/
theorem Sound.get?_eq (sound : set.Sound table record) (soundToo : sets.Sound table record)
    (full : ∀ name, table.contains name = true → (set.get? name).isSome = true)
    (fullToo : ∀ name, table.contains name = true → (sets.get? name).isSome = true) :
    set.get? = sets.get? := by
  have covers {name : Name} {vtable : Vtable} {set sets : VtableSet}
      (sound : set.Sound table record) (soundToo : sets.Sound table record)
      (fullToo : ∀ name, table.contains name = true → (sets.get? name).isSome = true)
      (found : set.get? name = some vtable) : sets.get? name = some vtable := by
    obtain ⟨inside, classes, lineage, rfl⟩ := sound name vtable found
    obtain ⟨other, there⟩ := Option.isSome_iff_exists.mp (fullToo name inside)
    obtain ⟨_, others, lineageToo, rfl⟩ := soundToo name other there
    rw [there, lineage.unique lineageToo]
  funext name
  refine Option.ext fun vtable => ⟨covers sound soundToo fullToo, covers soundToo sound full⟩

theorem ofClass_eq_error_iff {name : Name} {error : LoweringError} :
    ofClass table record name = .error error ↔
      (Lineage.of table.parentMap name).failure? = some error := by
  unfold ofClass
  cases Lineage.of table.parentMap name <;> simp [Lineage.failure?]

theorem exists_ofClass {name : Name} (ended : (Lineage.of table.parentMap name).failure? = none) :
    ∃ entry, ofClass table record name = .ok entry := by
  cases built : ofClass table record name with
  | ok entry => exact ⟨entry, rfl⟩
  | error error => cases ended.symm.trans (ofClass_eq_error_iff.mp built)

end VtableSet

namespace VtableBuilder

variable {table : ClassTable} {record : MangleRecord} {builder : VtableBuilder} {name : Name}
  {info : ClassInfo} {steps : Nat}

/-! ### One class -/

theorem build_of_finished (done : (builder.finished.get? name).isSome = true) :
    builder.build table record name = .ok builder := by
  unfold build
  rw [if_pos done]

/-- What building does at a class of the table that is not finished. -/
theorem build_of_class? (unfinished : ¬(builder.finished.get? name).isSome = true)
    (found : table.class? name = some info) :
    builder.build table record name =
      if name ∈ builder.waiting then .error (.inheritanceCycle name)
      else if info.parent = Reserved.empty then .ok (builder.finish record .empty info)
      else if table.contains info.parent then do
        let above ← (builder.wait name).build table record info.parent
        return above.finish record ((above.finished.get? info.parent).getD .empty) info
      else .error (.unknownParent name info.parent) := by
  conv_lhs => unfold build
  rw [if_neg unfinished]
  split
  · rename_i missing
    cases missing.symm.trans found
  · rename_i foundToo
    cases found.symm.trans foundToo
    rfl

/-- What building some classes successfully comes to. -/
structure Finishes (table : ClassTable) (record : MangleRecord) (builder : VtableBuilder)
    (names : List Name) (next : VtableBuilder) : Prop where
  sound : next.finished.Sound table record
  /-- The same classes wait as before. -/
  waiting : next.waiting = builder.waiting
  /-- The classes are finished. -/
  here : ∀ name ∈ names, (next.finished.get? name).isSome = true
  /-- What was finished still is. -/
  kept : ∀ other, (builder.finished.get? other).isSome = true →
    (next.finished.get? other).isSome = true

theorem Finishes.cons {names : List Name} {middle last : VtableBuilder}
    (first : Finishes table record builder [name] middle)
    (rest : Finishes table record middle names last) :
    Finishes table record builder (name :: names) last where
  sound := rest.sound
  waiting := rest.waiting.trans first.waiting
  here := List.forall_mem_cons.mpr
    ⟨rest.kept name (first.here name (List.mem_singleton_self name)), rest.here⟩
  kept other there := rest.kept other (first.kept other there)

theorem get?_finish (builder : VtableBuilder) (inherited : Vtable) (other : Name) :
    (builder.finish record inherited info).finished.get? other =
      if other = info.name then some (inherited.extend record info)
      else builder.finished.get? other := by
  unfold finish VtableSet.get?
  rw [List.lookup_cons]
  by_cases same : other = info.name
  · rw [if_pos same, beq_iff_eq.mpr same]
  · rw [if_neg same, beq_false_of_ne same]

/-- A class is finished with the vtable that its lineage calls for. -/
theorem finishes_finish {above : VtableBuilder} {inherited : Vtable} {older : List Name}
    (sound : above.finished.Sound table record)
    (waits : above.waiting.erase name = builder.waiting)
    (kept : ∀ other, (builder.finished.get? other).isSome = true →
      (above.finished.get? other).isSome = true)
    (found : table.class? name = some info)
    (lineage : IsLineage table.parentMap name (name :: older))
    (built : inherited = .along table record older) :
    Finishes table record builder [name] (above.finish record inherited info) := by
  have named := ClassTable.name_of_class? found
  constructor
  · intro other vtable there
    rw [get?_finish, named] at there
    split at there
    · rename_i same
      rw [same]
      refine ⟨ClassTable.contains_of_class? found, name :: older, lineage, ?_⟩
      rw [Vtable.along_cons found, ← built]
      exact (Option.some.inj there).symm
    · exact sound other vtable there
  · unfold finish
    rw [named]
    exact waits
  · rw [List.forall_mem_singleton, get?_finish, if_pos named.symm]
    rfl
  · intro other there
    rw [get?_finish]
    split
    · rfl
    · exact kept other there

/-- **Building a class succeeds or fails as the walk from it does**, where the classes that wait are
those that the walk has passed. -/
theorem build_spec (sound : builder.finished.Sound table record)
    (behind : Passed table builder.waiting name) (inside : table.contains name = true)
    (enough : table.size < steps + builder.waiting.length) :
    (∀ error, (Lineage.climb table.parentMap steps builder.waiting name).failure? = some error →
      builder.build table record name = .error error) ∧
    ((Lineage.climb table.parentMap steps builder.waiting name).failure? = none →
      ∃ next, builder.build table record name = .ok next ∧
        Finishes table record builder [name] next) := by
  induction steps generalizing builder name with
  | zero =>
    have short := behind.length_le
    omega
  | succ steps step =>
    by_cases done : (builder.finished.get? name).isSome = true
    · obtain ⟨vtable, there⟩ := Option.isSome_iff_exists.mp done
      obtain ⟨_, classes, lineage, _⟩ := sound name vtable there
      rw [ClassTable.failure?_eq_none behind enough
        (ClassTable.reachesRoot_of_isLineage lineage inside)]
      exact ⟨fun _ failed => (by cases failed), fun _ =>
        ⟨builder, build_of_finished done, sound, rfl, List.forall_mem_singleton.mpr done,
          fun _ there => there⟩⟩
    obtain ⟨info, found⟩ := Option.isSome_iff_exists.mp inside
    have declared := ClassTable.declared_of_class? found
    rw [ClassTable.climb_succ found, build_of_class? done found]
    by_cases waits : name ∈ builder.waiting
    · rw [if_pos waits, if_pos waits]
      exact ⟨fun _ failed => congrArg _ (Option.some.inj failed), fun ended => (by cases ended)⟩
    rw [if_neg waits, if_neg waits]
    by_cases rootless : info.parent = Reserved.empty
    · rw [if_pos rootless, if_pos rootless]
      refine ⟨fun _ failed => (by cases failed), fun _ => ⟨_, rfl, finishes_finish sound
        (List.erase_of_not_mem waits) (fun _ there => there) found (.root fun parent again => ?_)
        rfl⟩⟩
      rw [declared, Option.some.injEq] at again
      exact again.symm.trans rootless
    rw [if_neg rootless, if_neg rootless]
    by_cases known : table.contains info.parent = true
    · rw [if_pos known, if_pos known]
      have up := ClassTable.declares_iff.mpr ⟨declared, rootless⟩
      have soundToo : (builder.wait name).finished.Sound table record := sound
      have behindToo : Passed table (builder.wait name).waiting info.parent := behind.next waits up
      obtain ⟨fails, finishes⟩ := step soundToo behindToo known
        (by simp only [wait, List.length_cons]; omega)
      constructor
      · intro error failed
        rw [fails error failed]
        rfl
      · intro ended
        obtain ⟨above, done, there⟩ := finishes ended
        obtain ⟨vtable, here⟩ :=
          Option.isSome_iff_exists.mp (there.here _ (List.mem_singleton_self _))
        obtain ⟨_, older, lineage, along⟩ := there.sound info.parent vtable here
        refine ⟨_, by rw [done]; rfl, finishes_finish there.sound ?_ there.kept found
          (ClassTable.isLineage_cons up known lineage) ?_⟩
        · rw [there.waiting]
          exact List.erase_cons_head name _
        · rw [here]
          exact along
    · rw [if_neg known, if_neg known]
      exact ⟨fun _ failed => congrArg _ (Option.some.inj failed), fun ended => (by cases ended)⟩

/-! ### All classes -/

/-- **Building some classes one after the other succeeds or fails as it does class by class.** -/
theorem foldlM_build_spec {names : List Name} (inside : ∀ name ∈ names, table.contains name = true)
    (sound : builder.finished.Sound table record) (idle : builder.waiting = []) :
    (∀ error, names.mapM (VtableSet.ofClass table record) = .error error →
      names.foldlM (build table record) builder = .error error) ∧
    (∀ results, names.mapM (VtableSet.ofClass table record) = .ok results →
      ∃ last, names.foldlM (build table record) builder = .ok last ∧
        Finishes table record builder names last) := by
  induction names generalizing builder with
  | nil =>
    refine ⟨fun _ failed => (nomatch failed), fun _ _ => ⟨builder, rfl, sound, rfl, ?_, ?_⟩⟩
    · exact fun _ member => (nomatch member)
    · exact fun _ there => there
  | cons name rest step =>
    obtain ⟨here, behind⟩ := List.forall_mem_cons.mp inside
    have enough : table.size < table.parentMap.length + 1 + builder.waiting.length :=
      idle ▸ table.size_lt_steps
    obtain ⟨fails, finishes⟩ := build_spec sound (idle ▸ Passed.start table name) here enough
    rw [idle] at fails finishes
    rw [List.mapM_cons, List.foldlM_cons]
    cases failure : (Lineage.of table.parentMap name).failure? with
    | some error =>
      rw [VtableSet.ofClass_eq_error_iff.mpr failure, fails error failure]
      exact ⟨fun _ failed => congrArg _ (Except.error.inj failed), fun _ done => (nomatch done)⟩
    | none =>
      obtain ⟨entry, built⟩ : ∃ entry, VtableSet.ofClass table record name = .ok entry :=
        VtableSet.exists_ofClass failure
      obtain ⟨next, done, first⟩ := finishes failure
      obtain ⟨failsToo, finishesToo⟩ := step behind first.sound (first.waiting.trans idle)
      rw [built, done]
      constructor
      · intro error failed
        obtain ⟨_, _, failed⟩ := (error_of_bind failed).resolve_left fun failed => (nomatch failed)
        rcases error_of_bind failed with failed | ⟨_, _, failed⟩
        · exact failsToo error failed
        · cases failed
      · intro results done
        obtain ⟨_, _, done⟩ := ok_of_bind done
        obtain ⟨others, there, _⟩ := ok_of_bind done
        obtain ⟨last, doneToo, second⟩ := finishesToo others there
        exact ⟨last, doneToo, first.cons second⟩

/-- **What is built for a table are its vtables**, or the same failure. -/
theorem get?_buildAll (table : ClassTable) (record : MangleRecord) :
    VtableSet.get? <$> buildAll table record =
      VtableSet.get? <$> VtableSet.ofTable table record := by
  have sound : start.finished.Sound table record := fun _ _ found => (nomatch found)
  obtain ⟨fails, finishes⟩ :=
    foldlM_build_spec (fun name => table.mem_classes_parentMap.mp) sound rfl
  cases computed : VtableSet.ofTable table record with
  | error error =>
    unfold buildAll
    rw [fails error (error_of_map computed)]
    rfl
  | ok set =>
    obtain ⟨results, done, _⟩ := ok_of_map computed
    obtain ⟨last, doneToo, all⟩ := finishes results done
    unfold buildAll
    rw [doneToo]
    refine congrArg Except.ok (all.sound.get?_eq (VtableSet.sound_ofTable computed) ?_ ?_)
    · exact fun name inside => all.here name (ClassTable.mem_classes_parentMap.mpr inside)
    · intro name inside
      obtain ⟨_, _, built⟩ := VtableSet.get?_of_contains computed inside
      rw [built]
      rfl

end VtableBuilder

end ObjectLowering
