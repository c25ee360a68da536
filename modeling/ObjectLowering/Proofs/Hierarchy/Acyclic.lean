/-
**Closed hierarchies without cycles.**

That a class has a lineage says at once that the classes above it are in the table and that none of
them is met twice. Here both are said of the table, class by class: the parent of a class is in the
table, and no class is its own proper ancestor.

* `ClassTable.Closed` says that no parent is missing.
* `ClassTable.rooted_iff`: every class has a lineage exactly if every class reaches a root.
* **`ClassTable.closed_acyclic_iff`**: every class has a lineage in a closed hierarchy without
  cycles, and only there.
* **`ClassTable.isSubclass_antisymm`**: where classes have lineages, no two are above each other.
-/

import ObjectLowering.Proofs.Hierarchy.Ancestry
import ObjectLowering.Proofs.Naming.SlotNames

namespace ObjectLowering

namespace ClassTable

/-- Every parent is a class of the table. -/
def Closed (table : ClassTable) : Prop :=
  ∀ info ∈ table.classes, info.parent = Reserved.empty ∨ table.contains info.parent = true

instance (table : ClassTable) : Decidable table.Closed :=
  inferInstanceAs (Decidable (∀ info ∈ _, _))

variable {table : ClassTable} {name above : Name}

/-! ### Lineages of a closed hierarchy without cycles -/

/-- Every class has a lineage exactly if every class reaches a root. -/
theorem rooted_iff :
    table.Rooted ↔ ∀ name, table.contains name = true → table.ReachesRoot name := by
  refine forall₂_congr fun name inside => ?_
  rw [← exists_complete_iff inside]
  exact exists_congr fun classes =>
    ⟨fun lineage => complete_of_isLineage lineage inside, isLineage_of_complete⟩

/-- **In a closed hierarchy without cycles every class has a lineage.** -/
theorem Closed.rooted (closed : table.Closed) (acyclic : ∀ name, ¬table.Circular name) :
    table.Rooted := by
  intro name inside
  cases walked : Lineage.of table.parentMap name with
  | complete classes => exact ⟨classes, isLineage_of_complete walked⟩
  | cycle above =>
    obtain ⟨member, _, cycle⟩ := exists_cycle_iff.mp ⟨above, walked⟩
    exact absurd cycle (acyclic member)
  | unknownParent child parent =>
    obtain ⟨_, up, unknown⟩ := unknown_of_climb walked
    obtain ⟨declared, named⟩ := declares_iff.mp up
    rw [lookup_parentMap, Option.map_eq_some_iff] at declared
    obtain ⟨info, found, rfl⟩ := declared
    have known := (closed info (List.mem_of_find?_eq_some found)).resolve_left named
    cases unknown.symm.trans known

/-- **A hierarchy is closed and without cycles exactly if every class has a lineage.** -/
theorem closed_acyclic_iff (distinct : table.names.Nodup) :
    (table.Closed ∧ ∀ name, ¬table.Circular name) ↔ table.Rooted := by
  refine ⟨fun ⟨closed, acyclic⟩ => closed.rooted acyclic, fun rooted => ⟨?_, ?_⟩⟩
  · intro info member
    have found := class?_of_mem distinct member
    have declared := declared_of_class? found
    obtain ⟨classes, lineage⟩ := rooted _ (contains_of_class? found)
    cases lineage with
    | root rootless => exact .inl (rootless _ declared)
    | child declaredToo _ known _ _ =>
      rw [declared, Option.some.injEq] at declaredToo
      exact .inr (contains_iff.mpr (declaredToo ▸ known))
  · intro name cycle
    exact (rooted_iff.mp rooted name cycle.inside).not_circular cycle

/-! ### Classes above each other -/

/-- **No two classes are above each other.** -/
theorem isSubclass_antisymm (rooted : table.Rooted) (there : table.isSubclass name above = true)
    (back : table.isSubclass above name = true) : name = above := by
  obtain ⟨_, known, way⟩ := isSubclass_iff.mp there
  exact eq_of_isSubclass (rooted_iff.mp rooted name (inside_of_way known way)).not_circular there
    back

end ClassTable

end ObjectLowering
