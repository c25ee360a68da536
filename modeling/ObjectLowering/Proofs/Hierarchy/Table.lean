/-
**The first declaration of a class counts.**

The table takes the declarations of all units in order and keeps one entry for each name: that of
the first declaration, unless the name is a provided class's. So the entry of a class that a unit
owns is that of a declaration of this unit.

* `ClassTable.firsts` are the entries that are kept.
* `ClassTable.classes_ofUnits`: the table has the provided classes, then the kept entries.
* `ClassTable.names_nodup_ofUnits`: no name has two entries.
* **`ClassTable.declared_of_owns`**: what a unit owns it declares, and the entry says so.
-/

import Mathlib.Data.List.Nodup
import ObjectLowering.Proofs.Hierarchy.Lineage

namespace ObjectLowering

open Source (SourceUnit ClassDecl)

/-- The entry with its overriding methods marked, as the table finds them. -/
def ClassInfo.withOverrides (table : ClassTable) (info : ClassInfo) : ClassInfo :=
  { info with
    methods := info.methods.map fun method =>
      if method.flags.isVirtual && table.inheritsSlot info.parent method then
        { method with flags := { method.flags with isOverride := true } }
      else
        method }

namespace ClassTable

variable {table : ClassTable} {name : Name}

/-! ### Names of a table -/

def names (table : ClassTable) : List Name := table.classes.map (·.name)

theorem contains_iff_mem_names : table.contains name = true ↔ name ∈ table.names := by
  unfold contains class? names
  rw [List.find?_isSome, List.mem_map]
  simp only [beq_iff_eq]

theorem mem_names_of_class? {info : ClassInfo} (found : table.class? name = some info) :
    name ∈ table.names :=
  contains_iff_mem_names.mp (contains_of_class? found)

/-- Where no name has two entries, every entry is found under its name. -/
theorem class?_of_mem (distinct : table.names.Nodup) {info : ClassInfo}
    (member : info ∈ table.classes) : table.class? info.name = some info := by
  unfold class?
  unfold names at distinct
  obtain ⟨before, behind, split⟩ := List.append_of_mem member
  rw [split, List.map_append, List.map_cons] at distinct
  refine List.find?_eq_some_iff_append.mpr ⟨beq_self_eq_true _, before, behind, split, ?_⟩
  intro other earlier
  rw [Bool.not_eq_true', beq_eq_false_iff_ne]
  intro same
  have apart := (List.nodup_append.mp distinct).2.2 other.name (List.mem_map_of_mem earlier)
  exact apart info.name List.mem_cons_self same

/-! ### The entries that are kept -/

/-- The entries whose names were not seen and do not stand earlier in the list. -/
def firsts (seen : List Name) : List ClassInfo → List ClassInfo
  | [] => []
  | info :: rest =>
    if info.name ∈ seen then firsts seen rest else info :: firsts (seen ++ [info.name]) rest

theorem classes_foldl_add (infos : List ClassInfo) (table : ClassTable) :
    (infos.foldl add table).classes = table.classes ++ firsts table.names infos := by
  induction infos generalizing table with
  | nil => exact (List.append_nil _).symm
  | cons info rest step =>
    rw [List.foldl_cons, step, firsts]
    unfold add
    by_cases seen : info.name ∈ table.names
    · rw [if_pos seen, if_pos (contains_iff_mem_names.mpr seen)]
    · rw [if_neg seen, if_neg (mt contains_iff_mem_names.mp seen)]
      have longer : names ⟨table.classes ++ [info]⟩ = table.names ++ [info.name] :=
        List.map_append
      rw [longer, List.append_assoc]
      rfl

theorem firsts_sublist (seen : List Name) (infos : List ClassInfo) :
    (firsts seen infos).Sublist infos := by
  induction infos generalizing seen with
  | nil => exact .slnil
  | cons info rest step =>
    unfold firsts
    split
    · exact (step seen).cons info
    · exact (step _).cons_cons info

/-- Kept entries have names of their own, none of them seen before. -/
theorem names_firsts (infos : List ClassInfo) (seen : List Name) :
    ((firsts seen infos).map (·.name)).Nodup ∧
      ∀ info ∈ firsts seen infos, info.name ∉ seen := by
  induction infos generalizing seen with
  | nil => exact ⟨List.nodup_nil, fun _ member => nomatch member⟩
  | cons info rest step =>
    unfold firsts
    split
    · exact step seen
    · rename_i unseen
      obtain ⟨distinct, fresh⟩ := step (seen ++ [info.name])
      refine ⟨?_, ?_⟩
      · rw [List.map_cons, List.nodup_cons]
        refine ⟨fun member => ?_, distinct⟩
        obtain ⟨other, kept, same⟩ := List.mem_map.mp member
        apply fresh other kept
        rw [same]
        exact List.mem_append_right _ List.mem_cons_self
      · intro other member
        rcases List.mem_cons.mp member with rfl | kept
        · exact unseen
        · exact fun earlier => fresh other kept (List.mem_append_left _ earlier)

/-! ### The table of a program -/

/-- The table before overriding methods are marked. -/
def unmarked (units : List SourceUnit) : ClassTable := (entries units).foldl add ⟨provided⟩

/-- The declarations that count, as entries in order. -/
def counted (units : List SourceUnit) : List ClassInfo :=
  firsts (names ⟨provided⟩) (entries units)

theorem classes_ofUnits (units : List SourceUnit) :
    (ofUnits units).classes =
      (provided ++ counted units).map (·.withOverrides (unmarked units)) :=
  congrArg (List.map _) (classes_foldl_add (entries units) ⟨provided⟩)

theorem names_ofUnits (units : List SourceUnit) :
    (ofUnits units).names = names ⟨provided⟩ ++ (counted units).map (·.name) := by
  unfold names
  rw [classes_ofUnits, List.map_map, ← List.map_append]
  rfl

/-- **No name has two entries.** -/
theorem names_nodup_ofUnits (units : List SourceUnit) : (ofUnits units).names.Nodup := by
  obtain ⟨distinct, fresh⟩ := names_firsts (entries units) (names ⟨provided⟩)
  rw [names_ofUnits, List.nodup_append]
  refine ⟨by decide, distinct, ?_⟩
  rintro _ given _ kept rfl
  obtain ⟨info, member, same⟩ := List.mem_map.mp kept
  exact fresh info member (same ▸ given)

/-- A kept entry is that of a declaration of some unit. -/
theorem declared_of_mem_counted {units : List SourceUnit} {info : ClassInfo}
    (member : info ∈ counted units) : ∃ index unit, units[index]? = some unit ∧
      ∃ decl ∈ unit.classes, info = entry index unit.package decl := by
  obtain ⟨⟨unit, index⟩, here, inside⟩ :=
    List.mem_flatMap.mp ((firsts_sublist _ _).subset member)
  obtain ⟨decl, declared, same⟩ := List.mem_map.mp inside
  exact ⟨index, unit, List.mem_zipIdx_iff_getElem?.mp here, decl, declared, same.symm⟩

/-- The classes declared in source are the kept entries. -/
theorem userClasses_ofUnits (units : List SourceUnit) :
    (ofUnits units).userClasses = (counted units).map (·.withOverrides (unmarked units)) := by
  have given : provided.filter (!·.isProvided) = [] := by decide
  have kept : (counted units).filter (!·.isProvided) = counted units := by
    refine List.filter_eq_self.mpr fun info member => ?_
    obtain ⟨index, unit, _, decl, _, rfl⟩ := declared_of_mem_counted member
    rfl
  have marks : (fun info : ClassInfo => !info.isProvided) ∘
      (ClassInfo.withOverrides (unmarked units)) = fun info => !info.isProvided := rfl
  unfold userClasses
  rw [classes_ofUnits, List.filter_map, marks, List.filter_append, given, kept, List.nil_append]

theorem owns_iff {unit : Nat} :
    table.owns unit name = true ↔
      ∃ info, table.class? name = some info ∧ info.unit = some unit := by
  unfold owns
  rw [Option.any_eq_true]
  simp only [beq_iff_eq]

/-- **What a unit owns it declares**, and the entry is that of its declaration. -/
theorem declared_of_owns {units : List SourceUnit} {index : Nat}
    (owned : (ofUnits units).owns index name = true) :
    ∃ unit, units[index]? = some unit ∧ ∃ decl ∈ unit.classes, decl.name = name ∧
      (ofUnits units).class? name =
        some ((entry index unit.package decl).withOverrides (unmarked units)) := by
  obtain ⟨info, found, here⟩ := owns_iff.mp owned
  have named := name_of_class? found
  have member := List.mem_of_find?_eq_some found
  rw [classes_ofUnits] at member
  obtain ⟨plain, inside, rfl⟩ := List.mem_map.mp member
  rcases List.mem_append.mp inside with given | kept
  · -- A provided class belongs to no unit.
    have unowned : ∀ info ∈ provided, info.unit = none := by decide
    cases (unowned plain given).symm.trans here
  · obtain ⟨place, unit, there, decl, declared, rfl⟩ := declared_of_mem_counted kept
    cases here
    exact ⟨unit, there, decl, declared, named, found⟩

/-- The first declaration of a name that is not provided is owned by its unit. -/
theorem owns_of_mem_counted {units : List SourceUnit} {info : ClassInfo}
    (member : info ∈ counted units) {index : Nat} (here : info.unit = some index) :
    (ofUnits units).owns index info.name = true := by
  have inside : info.withOverrides (unmarked units) ∈ (ofUnits units).classes := by
    rw [classes_ofUnits]
    exact List.mem_map_of_mem (List.mem_append_right _ member)
  have found : (ofUnits units).class? info.name = some (info.withOverrides (unmarked units)) :=
    class?_of_mem (names_nodup_ofUnits units) inside
  exact owns_iff.mpr ⟨_, found, here⟩

end ClassTable

end ObjectLowering
