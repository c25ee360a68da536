/-
**Which ancestors a walk meets twice.**

The walk that lists the ancestors of a class counts its steps and does not look back. It ends at a
root or in front of an unknown parent; around a cycle it goes on until as many steps are taken as
there are classes. There are always the provided classes, none of them on the way to a cycle, so
such a walk comes back to where it has been, and the fields there are listed again.

* `ClassTable.length_climb`: a walk around a cycle takes all its steps.
* `ClassTable.nodup_climb`: any other walk meets no class twice.
* `ClassTable.nodup_fieldRefs_iff`: when the fields of entries are listed without repetition.
* **`ancestors_nodup_iff`**: which classes a walk meets, and when it meets them and their fields
  once.
* **`ancestors_repeat_ring`**: two classes that name each other as parents.
-/

import Mathlib.Data.List.Duplicate
import ObjectLowering.Proofs.Hierarchy.Ancestry

namespace ObjectLowering

open Source (SourceUnit)

namespace ClassTable

variable {table : ClassTable} {name : Name}

/-! ### Walks around a cycle -/

/-- From a class that leads into a cycle there is a step up, and it leads there, too. -/
theorem LeadsIntoCycle.next (leads : table.LeadsIntoCycle name) :
    ∃ parent, table.Declares name parent ∧ table.LeadsIntoCycle parent := by
  obtain ⟨member, way, cycle⟩ := leads
  rcases Relation.ReflTransGen.cases_head way with rfl | ⟨parent, up, rest⟩
  · obtain ⟨parent, up, rest⟩ := Relation.TransGen.head'_iff.mp cycle
    exact ⟨parent, up, name, rest, cycle⟩
  · exact ⟨parent, up, member, rest, cycle⟩

/-- A class leads where its parent leads. -/
theorem LeadsIntoCycle.of_declares {parent : Name} (leads : table.LeadsIntoCycle parent)
    (up : table.Declares name parent) : table.LeadsIntoCycle name := by
  obtain ⟨member, way, cycle⟩ := leads
  exact ⟨member, .head up way, cycle⟩

theorem climb_of_declares {info : ClassInfo} {parent : Name} (found : table.class? name = some info)
    (up : table.Declares name parent) (steps : Nat) :
    table.climb (steps + 1) name = info :: table.climb steps parent := by
  obtain ⟨declared, named⟩ := declares_iff.mp up
  rw [declared_of_class? found, Option.some.injEq] at declared
  subst declared
  rw [climb, found]
  exact congrArg (info :: ·) (if_neg named)

/-- **A walk into a cycle takes all its steps.** -/
theorem length_climb (leads : table.LeadsIntoCycle name) (steps : Nat) :
    (table.climb steps name).length = steps := by
  induction steps generalizing name with
  | zero => rfl
  | succ steps step =>
    obtain ⟨parent, up, leadsToo⟩ := leads.next
    obtain ⟨info, found⟩ := Option.isSome_iff_exists.mp (leads.inside .refl)
    rw [climb_of_declares found up, List.length_cons, step leadsToo]

/-- **A walk that leads into no cycle meets no class twice.** -/
theorem nodup_climb (free : ¬table.LeadsIntoCycle name) (steps : Nat) :
    ((table.climb steps name).map (·.name)).Nodup := by
  induction steps generalizing name with
  | zero => exact List.nodup_nil
  | succ steps step =>
    cases found : table.class? name with
    | none =>
      rw [climb, found]
      exact List.nodup_nil
    | some info =>
      by_cases rootless : info.parent = Reserved.empty
      · rw [climb, found]
        dsimp only
        rw [if_pos rootless]
        exact List.nodup_singleton _
      · have up : table.Declares name info.parent :=
          declares_iff.mpr ⟨declared_of_class? found, rootless⟩
        rw [climb_of_declares found up, List.map_cons, name_of_class? found, List.nodup_cons]
        refine ⟨fun again => ?_, step fun leads => free (leads.of_declares up)⟩
        obtain ⟨other, member, same⟩ := List.mem_map.mp again
        exact free ⟨name, .refl, .head' up (same ▸ above_of_mem_climb member)⟩

/-! ### Fields of walks -/

theorem mem_fieldRefs {info : ClassInfo} {ref : FieldRef} :
    ref ∈ info.fieldRefs ↔ ref.className = info.name ∧ ref.index < info.fields.length := by
  unfold ClassInfo.fieldRefs
  rw [List.mem_map]
  constructor
  · rintro ⟨index, inside, rfl⟩
    exact ⟨rfl, List.mem_range.mp inside⟩
  · rintro ⟨named, inside⟩
    exact ⟨ref.index, List.mem_range.mpr inside, by rw [← named]⟩

theorem nodup_fieldRefs (info : ClassInfo) : info.fieldRefs.Nodup :=
  List.nodup_range.map fun _ _ same => congrArg FieldRef.index same

/-- The fields of a list of entries, each known by its name, are listed once exactly if no entry
that stands there twice has any. -/
theorem nodup_fieldRefs_iff {infos : List ClassInfo}
    (known : ∀ info ∈ infos, table.class? info.name = some info) :
    (infos.flatMap (·.fieldRefs)).Nodup ↔
      ∀ info ∈ infos, (infos.map (·.name)).Duplicate info.name → info.fields = [] := by
  induction infos with
  | nil => exact ⟨fun _ _ member => (nomatch member), fun _ => List.nodup_nil⟩
  | cons info rest step =>
    rw [List.forall_mem_cons] at known
    have same {other : ClassInfo} (member : other ∈ rest) (named : other.name = info.name) :
        other = info := by
      have found := known.2 other member
      rw [named, known.1] at found
      exact (Option.some.inj found).symm
    have apart : info.fieldRefs.Disjoint (rest.flatMap (·.fieldRefs)) ↔
        (info.name ∈ rest.map (·.name) → info.fields = []) := by
      constructor
      · intro disjoint again
        obtain ⟨other, member, named⟩ := List.mem_map.mp again
        obtain rfl := same member named
        refine List.eq_nil_iff_length_eq_zero.mpr (Nat.eq_zero_of_not_pos fun some => ?_)
        have first : ⟨other.name, 0⟩ ∈ other.fieldRefs := mem_fieldRefs.mpr ⟨rfl, some⟩
        exact disjoint first (List.mem_flatMap.mpr ⟨other, member, first⟩)
      · intro bare ref here there
        obtain ⟨other, member, there⟩ := List.mem_flatMap.mp there
        obtain ⟨named, inside⟩ := mem_fieldRefs.mp here
        have again : info.name ∈ rest.map (·.name) :=
          List.mem_map.mpr ⟨other, member, (mem_fieldRefs.mp there).1.symm.trans named⟩
        rw [bare again] at inside
        exact Nat.not_lt_zero _ inside
    rw [List.flatMap_cons, List.nodup_append', step known.2, apart, List.map_cons,
      List.forall_mem_cons, List.duplicate_cons_self_iff]
    constructor
    · rintro ⟨_, later, first⟩
      refine ⟨first, fun other member again => ?_⟩
      rcases List.duplicate_cons_iff.mp again with ⟨named, behind⟩ | again
      · obtain rfl := same member named.symm
        exact first behind
      · exact later other member again
    · rintro ⟨first, later⟩
      exact ⟨nodup_fieldRefs info,
        fun other member again => later other member (again.duplicate_cons _), first⟩

/-! ### The walk through the ancestors -/

/-- The root class leads into no cycle, for it has no parent. -/
theorem not_leadsIntoCycle_of_object {units : List SourceUnit}
    (way : Relation.ReflTransGen (ofUnits units).Declares name Reserved.object) :
    ¬(ofUnits units).LeadsIntoCycle name := by
  intro leads
  obtain ⟨info, found⟩ := Option.isSome_iff_exists.mp (leads.inside way)
  have rootless : info.parent = Reserved.empty := by
    unfold class? at found
    rw [classes_ofUnits] at found
    cases found
    rfl
  have reaches : (ofUnits units).ReachesRoot name := ⟨_, info, way, found, rootless⟩
  exact reaches.not_leadsIntoCycle leads

theorem ancestors_of_named (named : name ≠ Reserved.empty) :
    table.ancestors name = table.climb table.size name := if_neg named

theorem mem_names_ancestors_iff {above : Name} :
    above ∈ (table.ancestors name).map (·.name) ↔ name ≠ Reserved.empty ∧
      table.contains above = true ∧ Relation.ReflTransGen table.Declares name above := by
  rw [List.mem_map, ← isSubclass_iff, isSubclass_iff_mem_ancestors]

/-- **A walk into a cycle meets some class twice.** It takes as many steps as there are classes, and
the root class is none of those that it meets. -/
theorem not_nodup_of_leadsIntoCycle {units : List SourceUnit} (named : name ≠ Reserved.empty)
    (leads : (ofUnits units).LeadsIntoCycle name) :
    ¬(((ofUnits units).ancestors name).map (·.name)).Nodup := by
  intro distinct
  have inside : ((ofUnits units).ancestors name).map (·.name) ⊆ (ofUnits units).names :=
    fun above member => contains_iff_mem_names.mp (mem_names_ancestors_iff.mp member).2.1
  have length : (((ofUnits units).ancestors name).map (·.name)).length = (ofUnits units).size := by
    rw [ancestors_of_named named, List.length_map, length_climb leads]
  have all := (List.subperm_of_subset distinct inside).perm_of_length_le
    (Nat.le_of_eq ((List.length_map _).trans length.symm))
  have root : Reserved.object ∈ (ofUnits units).names := by
    rw [names_ofUnits]
    exact List.mem_append_left _ List.mem_cons_self
  have met := mem_names_ancestors_iff.mp (all.mem_iff.mpr root)
  exact not_leadsIntoCycle_of_object met.2.2 leads

end ClassTable

/-- **A walk through the ancestors of a class meets the classes above it that are in the table**,
the class itself among them. It meets none of them twice exactly if the class leads into no cycle;
and fields are listed once exactly if no class that is met twice has any. The empty name, which
stands for no class, has no ancestors. -/
theorem ancestors_nodup_iff (units : List SourceUnit) (name : Name) :
    (∀ above, above ∈ ((ClassTable.ofUnits units).ancestors name).map (·.name) ↔
      name ≠ Reserved.empty ∧ (ClassTable.ofUnits units).contains above = true ∧
        Relation.ReflTransGen (ClassTable.ofUnits units).Declares name above) ∧
    ((((ClassTable.ofUnits units).ancestors name).map (·.name)).Nodup ↔
      name = Reserved.empty ∨ ¬(ClassTable.ofUnits units).LeadsIntoCycle name) ∧
    (((ClassTable.ofUnits units).fieldsOwnAndInherited name).Nodup ↔
      ∀ info ∈ (ClassTable.ofUnits units).ancestors name,
        (((ClassTable.ofUnits units).ancestors name).map (·.name)).Duplicate info.name →
          info.fields = []) := by
  refine ⟨fun above => ClassTable.mem_names_ancestors_iff, ?_, ?_⟩
  · by_cases named : name = Reserved.empty
    · rw [ClassTable.ancestors, if_pos named]
      exact ⟨fun _ => .inl named, fun _ => List.nodup_nil⟩
    · rw [or_iff_right named]
      refine ⟨fun distinct leads => ClassTable.not_nodup_of_leadsIntoCycle named leads distinct,
        fun free => ?_⟩
      rw [ClassTable.ancestors_of_named named]
      exact ClassTable.nodup_climb free _
  · unfold ClassTable.fieldsOwnAndInherited
    rw [((List.reverse_perm _).flatMap fun _ _ => .refl _).nodup_iff]
    exact ClassTable.nodup_fieldRefs_iff fun info => ClassTable.class?_of_mem_ancestors

/-- Two classes that name each other as parents, one of them with a field. -/
def Source.SourceUnit.ring : SourceUnit where
  path := "Ring"
  package := []
  imports := []
  classes := [
    { name := "A", parent := some "B", methods := [], span := ⟨0, 1⟩
      fields := [⟨"x", .int, none, {}, ⟨1, 2⟩⟩] },
    .bare "B" "A" 2]
  nodes := #[]
  stmtCount := 0

/-- **Around a cycle of two classes the walk goes on for as many steps as there are classes**, the
three provided ones among them. -/
theorem ancestors_repeat_ring :
    ((ClassTable.ofUnits [.ring]).ancestors "A").map (·.name) = ["A", "B", "A", "B", "A"] ∧
    ¬(((ClassTable.ofUnits [.ring]).ancestors "A").map (·.name)).Nodup ∧
    ¬((ClassTable.ofUnits [.ring]).fieldsOwnAndInherited "A").Nodup := by
  decide +kernel

end ObjectLowering
