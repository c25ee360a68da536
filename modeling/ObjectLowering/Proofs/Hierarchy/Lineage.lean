/-
**Lineages of classes.**

A lineage is the way from a class up to a class without a parent, each class on it met once.
`Lineage.of` finds it with a list of the classes passed, `ClassTable.ancestors` walks the same way
with nothing but a count of steps. Where the first succeeds, both see the same classes.

* `IsLineage` says what a lineage is, without a walk.
* `isLineage_of_complete`, `ClassTable.complete_of_isLineage`: `Lineage.of` returns it where there
  is one.
* `IsLineage.split`: the way from a class above is the end of the way from the class below.
* **`ancestors_of_isLineage`**: the ancestors of a class are the entries of its lineage.
-/

import Mathlib.Data.List.Perm.Subperm
import ObjectLowering.Hierarchy.Initializers

namespace ObjectLowering

/-- The classes from one up to a class without a parent, none of them twice. -/
inductive IsLineage (parents : ParentMap) : Name → List Name → Prop
  | root {name : Name} (rootless : ∀ parent, parents.lookup name = some parent →
      parent = Reserved.empty) : IsLineage parents name [name]
  | child {name parent : Name} {older : List Name} (declared : parents.lookup name = some parent)
      (named : parent ≠ Reserved.empty) (known : (parents.lookup parent).isSome)
      (rest : IsLineage parents parent older) (fresh : name ∉ older) :
      IsLineage parents name (name :: older)

namespace IsLineage

variable {parents : ParentMap} {name : Name} {classes : List Name}

theorem nodup (lineage : IsLineage parents name classes) : classes.Nodup := by
  induction lineage with
  | root _ => exact List.pairwise_singleton _ _
  | child _ _ _ _ fresh rest => exact List.nodup_cons.mpr ⟨fresh, rest⟩

theorem head_eq (lineage : IsLineage parents name classes) : ∃ older, classes = name :: older := by
  cases lineage with
  | root _ => exact ⟨[], rfl⟩
  | child _ _ _ _ _ => exact ⟨_, rfl⟩

/-- Above a class of the map there are only classes of the map. -/
theorem known (lineage : IsLineage parents name classes) (inside : (parents.lookup name).isSome) :
    ∀ above ∈ classes, (parents.lookup above).isSome := by
  induction lineage with
  | root _ =>
    intro above member
    rw [List.mem_singleton.mp member]
    exact inside
  | child _ _ here _ _ rest =>
    intro above member
    rcases List.mem_cons.mp member with rfl | member
    · exact inside
    · exact rest here above member

/-- **A class has one lineage.** -/
theorem unique (lineage : IsLineage parents name classes) :
    ∀ {others : List Name}, IsLineage parents name others → classes = others := by
  induction lineage with
  | root rootless =>
    intro others other
    cases other with
    | root _ => rfl
    | child declared named _ _ _ => exact absurd (rootless _ declared) named
  | child declared named _ _ _ step =>
    intro others other
    cases other with
    | root rootless => exact absurd (rootless _ declared) named
    | child declared' _ _ rest _ =>
      rw [declared, Option.some.injEq] at declared'
      subst declared'
      rw [step rest]

/-- **The way from a class above is the end of the way from the class below.** -/
theorem split (lineage : IsLineage parents name classes) {above : Name} (member : above ∈ classes) :
    ∃ younger older, classes = younger ++ older ∧ IsLineage parents above older := by
  induction lineage with
  | root rootless =>
    rw [List.mem_singleton.mp member]
    exact ⟨[], _, rfl, .root rootless⟩
  | @child name _ older declared named known rest fresh step =>
    rcases List.mem_cons.mp member with rfl | member
    · exact ⟨[], _, rfl, .child declared named known rest fresh⟩
    · obtain ⟨younger, oldest, rfl, ends⟩ := step member
      exact ⟨name :: younger, oldest, rfl, ends⟩

end IsLineage

/-! ### What the walk with a list of passed classes returns -/

theorem isLineage_of_climb (parents : ParentMap) {steps : Nat} {passed classes : List Name}
    {name : Name} (complete : Lineage.climb parents steps passed name = .complete classes) :
    ∃ rest, IsLineage parents name rest ∧ classes = passed.reverse ++ rest ∧
      ∀ before ∈ passed, before ∉ rest := by
  induction steps generalizing passed name with
  | zero => cases complete
  | succ steps step =>
    -- The two ways to stop: the class is not in the map, or it has no parent.
    have stops (rootless : ∀ parent, parents.lookup name = some parent → parent = Reserved.empty)
        (fresh : name ∉ passed) : ∃ rest, IsLineage parents name rest ∧
          (name :: passed).reverse = passed.reverse ++ rest ∧ ∀ before ∈ passed, before ∉ rest := by
      refine ⟨[name], .root rootless, List.reverse_cons, fun before member same => fresh ?_⟩
      rwa [← List.mem_singleton.mp same]
    unfold Lineage.climb at complete
    split at complete
    · cases complete
    · rename_i fresh
      split at complete
      · rename_i missing
        cases complete
        exact stops (fun parent found => by rw [missing] at found; cases found) fresh
      · rename_i parent declared
        split at complete
        · rename_i rootless
          cases complete
          refine stops (fun other found => ?_) fresh
          rw [declared, Option.some.injEq] at found
          rw [← found, rootless]
        · rename_i named
          split at complete
          · cases complete
          · rename_i known
            obtain ⟨rest, lineage, rfl, apart⟩ := step complete
            refine ⟨name :: rest, .child declared named ?_ lineage ?_, ?_, ?_⟩
            · cases found : parents.lookup parent with
              | none => rw [found] at known; exact absurd rfl known
              | some _ => rfl
            · exact apart name List.mem_cons_self
            · rw [List.reverse_cons, List.append_assoc, List.singleton_append]
            · intro before member inside
              rcases List.mem_cons.mp inside with rfl | inside
              · exact fresh member
              · exact apart before (List.mem_cons_of_mem _ member) inside

theorem isLineage_of_complete {parents : ParentMap} {name : Name} {classes : List Name}
    (complete : Lineage.of parents name = .complete classes) : IsLineage parents name classes := by
  obtain ⟨rest, lineage, rfl, _⟩ := isLineage_of_climb parents complete
  exact lineage

/-- **The walk with a list of passed classes finds the lineage**, given steps enough. -/
theorem climb_complete_of_isLineage {parents : ParentMap} {name : Name} {classes : List Name}
    (lineage : IsLineage parents name classes) : ∀ {steps : Nat} {passed : List Name},
      classes.length ≤ steps → (∀ before ∈ passed, before ∉ classes) →
        Lineage.climb parents steps passed name = .complete (passed.reverse ++ classes) := by
  induction lineage with
  | @root name rootless =>
    intro steps passed enough apart
    obtain ⟨steps, rfl⟩ := Nat.exists_eq_add_one.mpr enough
    have fresh : name ∉ passed := fun inside => apart name inside List.mem_cons_self
    unfold Lineage.climb
    rw [if_neg fresh, ← List.reverse_cons]
    cases declared : parents.lookup name with
    | none => rfl
    | some parent => exact if_pos (rootless parent declared)
  | @child name parent older declared named known _ fresh step =>
    intro steps passed enough apart
    rw [List.length_cons] at enough
    obtain ⟨steps, rfl⟩ := Nat.exists_eq_add_one.mpr (Nat.zero_lt_of_lt enough)
    have unpassed : name ∉ passed := fun inside => apart name inside List.mem_cons_self
    have inMap : ¬(parents.lookup parent).isNone = true := by
      rwa [Option.isNone_iff_eq_none, ← Option.not_isSome_iff_eq_none, not_not]
    unfold Lineage.climb
    rw [if_neg unpassed, declared]
    dsimp only
    rw [if_neg named, if_neg inMap, step (Nat.le_of_succ_le_succ enough), List.reverse_cons,
      List.append_assoc, List.singleton_append]
    intro before member
    rcases List.mem_cons.mp member with rfl | member
    · exact fresh
    · exact fun inside => apart before member (List.mem_cons_of_mem _ inside)

/-! ### The ancestors that a class table finds -/

namespace ClassTable

variable {table : ClassTable} {name : Name} {classes : List Name}

theorem name_of_class? {info : ClassInfo} (found : table.class? name = some info) :
    info.name = name := by
  have same := List.find?_some found
  exact beq_iff_eq.mp same

theorem contains_of_class? {info : ClassInfo} (found : table.class? name = some info) :
    table.contains name = true :=
  Option.isSome_iff_exists.mpr ⟨info, found⟩

/-- What is kept under the names of classes is found where the class is. -/
theorem lookup_map {α : Type} (table : ClassTable) (kept : ClassInfo → α) (name : Name) :
    (table.classes.map fun info => (info.name, kept info)).lookup name =
      (table.class? name).map kept := by
  unfold class?
  induction table.classes with
  | nil => rfl
  | cons info rest step =>
    rw [List.map_cons, List.lookup_cons, List.find?_cons]
    by_cases same : name = info.name
    · subst same
      simp
    · have other : (name == info.name) = false := beq_false_of_ne same
      have other' : (info.name == name) = false := beq_false_of_ne (Ne.symm same)
      rw [other, other']
      exact step

theorem lookup_parentMap (table : ClassTable) (name : Name) :
    table.parentMap.lookup name = (table.class? name).map (·.parent) :=
  table.lookup_map (·.parent) name

/-- A class of the table stands in the map with the parent that it declares. -/
theorem declared_of_class? {info : ClassInfo} (found : table.class? name = some info) :
    table.parentMap.lookup name = some info.parent := by
  rw [lookup_parentMap, found]
  rfl

theorem contains_iff :
    table.contains name = true ↔ (table.parentMap.lookup name).isSome = true := by
  rw [lookup_parentMap, Option.isSome_map]
  rfl

/-- The parent map has the classes of the table. -/
theorem mem_classes_parentMap : name ∈ table.parentMap.classes ↔ table.contains name = true := by
  unfold ParentMap.classes parentMap contains class?
  rw [List.map_map, List.mem_map, List.find?_isSome]
  simp only [beq_iff_eq, Function.comp_apply]

theorem length_le_of_isLineage (lineage : IsLineage table.parentMap name classes)
    (inside : table.contains name = true) : classes.length ≤ table.size := by
  have covered : classes ⊆ table.classes.map (·.name) := by
    intro above member
    have known := lineage.known (contains_iff.mp inside) above member
    rw [lookup_parentMap, Option.isSome_map] at known
    obtain ⟨info, found⟩ := Option.isSome_iff_exists.mp known
    exact List.mem_map.mpr ⟨info, List.mem_of_find?_eq_some found, name_of_class? found⟩
  have bounded := (List.subperm_of_subset lineage.nodup covered).length_le
  rwa [List.length_map] at bounded

/-- A class of the table that has a lineage is found to have it. -/
theorem complete_of_isLineage (lineage : IsLineage table.parentMap name classes)
    (inside : table.contains name = true) :
    Lineage.of table.parentMap name = .complete classes := by
  have enough : classes.length ≤ table.parentMap.length + 1 := by
    have bounded := length_le_of_isLineage lineage inside
    unfold parentMap
    rw [List.length_map]
    exact Nat.le_succ_of_le bounded
  exact climb_complete_of_isLineage lineage enough fun _ member => (nomatch member)

theorem climb_of_isLineage (lineage : IsLineage table.parentMap name classes) :
    ∀ {steps : Nat}, classes.length ≤ steps →
      table.climb steps name = classes.filterMap table.class? := by
  induction lineage with
  | @root name rootless =>
    intro steps enough
    obtain ⟨steps, rfl⟩ := Nat.exists_eq_add_one.mpr enough
    unfold climb
    cases found : table.class? name with
    | none => rw [List.filterMap_cons_none found]; rfl
    | some info =>
      have alone : info.parent = Reserved.empty := rootless info.parent (declared_of_class? found)
      rw [List.filterMap_cons_some found]
      simp [alone]
  | @child name parent older declared named _ _ _ step =>
    intro steps enough
    rw [List.length_cons] at enough
    obtain ⟨steps, rfl⟩ := Nat.exists_eq_add_one.mpr (Nat.zero_lt_of_lt enough)
    rw [lookup_parentMap] at declared
    obtain ⟨info, found, rfl⟩ := Option.map_eq_some_iff.mp declared
    unfold climb
    rw [List.filterMap_cons_some found, found]
    simp only [if_neg named]
    rw [step (Nat.le_of_succ_le_succ enough)]

/-- **The ancestors of a class are the entries of its lineage.** -/
theorem ancestors_of_isLineage (lineage : IsLineage table.parentMap name classes)
    (inside : table.contains name = true) (named : name ≠ Reserved.empty) :
    table.ancestors name = classes.filterMap table.class? := by
  unfold ancestors
  rw [if_neg named]
  exact climb_of_isLineage lineage (length_le_of_isLineage lineage inside)

theorem class?_of_mem_climb {steps : Nat} {info : ClassInfo} :
    ∀ {name : Name}, info ∈ table.climb steps name → table.class? info.name = some info := by
  induction steps with
  | zero => intro name member; cases member
  | succ steps step =>
    intro name member
    unfold climb at member
    split at member
    · cases member
    · rename_i entry found
      rcases List.mem_cons.mp member with rfl | member
      · rw [name_of_class? found]
        exact found
      · split at member
        · cases member
        · exact step member

theorem class?_of_mem_ancestors {info : ClassInfo} (member : info ∈ table.ancestors name) :
    table.class? info.name = some info := by
  unfold ancestors at member
  split at member
  · cases member
  · exact class?_of_mem_climb member

/-- Only a class of the table, and not the empty name, has ancestors. -/
theorem inside_of_mem_ancestors {info : ClassInfo} (member : info ∈ table.ancestors name) :
    table.contains name = true ∧ name ≠ Reserved.empty := by
  unfold ancestors at member
  split at member
  · cases member
  · rename_i named
    refine ⟨?_, named⟩
    unfold contains
    cases found : table.class? name with
    | some _ => rfl
    | none =>
      cases size : table.size with
      | zero => rw [size] at member; cases member
      | succ steps =>
        rw [size, climb, found] at member
        cases member

theorem isSubclass_iff_mem_ancestors {above : Name} :
    table.isSubclass name above = true ↔ ∃ info ∈ table.ancestors name, info.name = above := by
  unfold isSubclass
  simp only [List.any_eq_true, beq_iff_eq]

/-- A class above another one is on its lineage. -/
theorem mem_of_isSubclass {above : Name} (lineage : IsLineage table.parentMap name classes)
    (sub : table.isSubclass name above = true) : above ∈ classes := by
  obtain ⟨info, member, rfl⟩ := isSubclass_iff_mem_ancestors.mp sub
  obtain ⟨inside, named⟩ := inside_of_mem_ancestors member
  rw [ancestors_of_isLineage lineage inside named] at member
  obtain ⟨above, onWay, found⟩ := List.mem_filterMap.mp member
  rwa [name_of_class? found]

end ClassTable

end ObjectLowering
