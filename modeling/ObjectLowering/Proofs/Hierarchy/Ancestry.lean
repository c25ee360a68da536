/-
**Declared parents, and what a walk along them comes to.**

A class declares its parent, which may be any name. Following declared parents either reaches a
class without one, or leaves the table, or comes back to a class that was passed. Nothing here asks
the table to be in order: unknown parents and cycles are part of it.

* `ClassTable.Declares` is one step up; a class to which one or more steps lead back is its own
  proper ancestor, `ClassTable.Circular`.
* `ClassTable.ReachesRoot` says that a class without a parent is above a class, and
  `ClassTable.LeadsIntoCycle` that a class on a cycle is.
* `Lineage.Passed` is what a walk knows of the classes behind it.
* **`ClassTable.cycle_of_climb`**, `ClassTable.unknown_of_climb`: a walk that fails has met a cycle
  or an unknown parent, and `ClassTable.climb_of_enough`: it was not cut short.
* **`ClassTable.exists_complete_iff`**, `ClassTable.exists_cycle_iff`: a class has a lineage exactly
  if it reaches a root, and a cycle is seen exactly if the class leads into one.
* **`ClassTable.isSubclass_iff`**: the walk that counts its steps sees every class above.
* `ClassTable.ancestors_eq_cons`: where no class is its own proper ancestor, the ancestors of a
  class are the class and those of its parent.
-/

import Mathlib.Logic.Relation
import ObjectLowering.Proofs.Hierarchy.Table

namespace ObjectLowering

namespace ClassTable

/-- The first class declares the second as its parent, be it in the table or not. -/
def Declares (table : ClassTable) (sub super : Name) : Prop := table.supertype? sub = some super

instance (table : ClassTable) (sub super : Name) : Decidable (table.Declares sub super) :=
  inferInstanceAs (Decidable (_ = _))

/-- The class is its own proper ancestor. -/
def Circular (table : ClassTable) (name : Name) : Prop :=
  Relation.TransGen table.Declares name name

/-- The class is on a cycle, or one of its ancestors is. -/
def LeadsIntoCycle (table : ClassTable) (name : Name) : Prop :=
  ∃ member, Relation.ReflTransGen table.Declares name member ∧ table.Circular member

/-- Declared parents lead from the class, through classes of the table, to one that has none. -/
def ReachesRoot (table : ClassTable) (name : Name) : Prop :=
  ∃ top info, Relation.ReflTransGen table.Declares name top ∧
    table.class? top = some info ∧ info.parent = Reserved.empty

variable {table : ClassTable} {name parent above : Name}

/-! ### Steps up -/

theorem declares_iff :
    table.Declares name parent ↔
      table.parentMap.lookup name = some parent ∧ parent ≠ Reserved.empty := by
  unfold Declares supertype?
  rw [lookup_parentMap]
  cases table.class? name with
  | none => simp
  | some info =>
    by_cases rootless : info.parent = Reserved.empty
    · simp only [Option.bind_some, Option.map_some, if_pos rootless, Option.some.injEq]
      constructor
      · rintro ⟨⟩
      · rintro ⟨rfl, named⟩
        exact absurd rootless named
    · simp only [Option.bind_some, Option.map_some, if_neg rootless, Option.some.injEq]
      constructor
      · rintro rfl
        exact ⟨rfl, rootless⟩
      · exact And.left

theorem Declares.inside (up : table.Declares name parent) : table.contains name = true := by
  rw [contains_iff, (declares_iff.mp up).1]
  rfl

theorem Declares.eq (up : table.Declares name parent) (upToo : table.Declares name above) :
    parent = above := Option.some.inj (up.symm.trans upToo)

/-- A class from which a class of the table is reached is in the table. -/
theorem inside_of_way (known : table.contains above = true)
    (way : Relation.ReflTransGen table.Declares name above) : table.contains name = true := by
  rcases Relation.ReflTransGen.cases_head way with rfl | ⟨_, first, _⟩
  · exact known
  · exact first.inside

/-- No step leads up from a class without a parent. -/
theorem not_declares_of_rootless {info : ClassInfo} (found : table.class? name = some info)
    (rootless : info.parent = Reserved.empty) : ¬table.Declares name parent := by
  intro up
  obtain ⟨declared, named⟩ := declares_iff.mp up
  rw [declared_of_class? found, Option.some.injEq] at declared
  exact named (declared.symm.trans rootless)

/-! ### Classes that reach a root -/

namespace ReachesRoot

theorem inside (reaches : table.ReachesRoot name) : table.contains name = true := by
  obtain ⟨_, _, way, found, _⟩ := reaches
  exact inside_of_way (contains_of_class? found) way

theorem step (up : table.Declares name parent) (reaches : table.ReachesRoot parent) :
    table.ReachesRoot name := by
  obtain ⟨top, info, way, rootless⟩ := reaches
  exact ⟨top, info, .head up way, rootless⟩

/-- What is above a class that reaches a root reaches it, too. -/
theorem upward (reaches : table.ReachesRoot name)
    (way : Relation.ReflTransGen table.Declares name above) : table.ReachesRoot above := by
  induction way with
  | refl => exact reaches
  | tail _ up step =>
    obtain ⟨top, info, way, found, rootless⟩ := step
    rcases Relation.ReflTransGen.cases_head way with rfl | ⟨_, first, rest⟩
    · exact absurd up (not_declares_of_rootless found rootless)
    · exact ⟨top, info, up.eq first ▸ rest, found, rootless⟩

/-- A class that reaches a root is not its own proper ancestor. -/
theorem not_circular (reaches : table.ReachesRoot name) : ¬table.Circular name := by
  unfold Circular
  obtain ⟨top, info, way, found, rootless⟩ := reaches
  induction way using Relation.ReflTransGen.head_induction_on with
  | refl =>
    intro cycle
    obtain ⟨_, first, _⟩ := Relation.TransGen.head'_iff.mp cycle
    exact not_declares_of_rootless found rootless first
  | head up _ step =>
    -- The cycle can be entered one class further up.
    intro cycle
    obtain ⟨_, first, rest⟩ := Relation.TransGen.head'_iff.mp cycle
    exact step (.tail' (up.eq first ▸ rest) up)

theorem not_leadsIntoCycle (reaches : table.ReachesRoot name) : ¬table.LeadsIntoCycle name := by
  rintro ⟨member, way, cycle⟩
  exact (reaches.upward way).not_circular cycle

end ReachesRoot

/-! ### Classes on a cycle -/

theorem Circular.inside (cycle : table.Circular name) : table.contains name = true := by
  obtain ⟨_, first, _⟩ := Relation.TransGen.head'_iff.mp cycle
  exact first.inside

/-- No step leads off a cycle. -/
theorem Circular.back (cycle : table.Circular name)
    (way : Relation.ReflTransGen table.Declares name above) :
    Relation.TransGen table.Declares above name := by
  induction way with
  | refl => exact cycle
  | tail _ up step =>
    obtain ⟨_, first, rest⟩ := Relation.TransGen.head'_iff.mp step
    exact .trans_right (up.eq first ▸ rest) cycle

/-- A class on a cycle is the parent of some class. -/
theorem Circular.exists_sub (cycle : table.Circular name) :
    ∃ sub ∈ table.names, table.Declares sub name := by
  obtain ⟨sub, _, up⟩ := Relation.TransGen.tail'_iff.mp cycle
  exact ⟨sub, contains_iff_mem_names.mp up.inside, up⟩

/-- What leads into a cycle never leaves the table. -/
theorem LeadsIntoCycle.inside (leads : table.LeadsIntoCycle name)
    (way : Relation.ReflTransGen table.Declares name above) : table.contains above = true := by
  obtain ⟨member, wayToo, cycle⟩ := leads
  have functional : Relator.RightUnique table.Declares := fun _ _ _ up upToo => up.eq upToo
  rcases Relation.ReflTransGen.total_of_right_unique functional way wayToo with rest | rest
  · exact inside_of_way cycle.inside rest
  · obtain ⟨_, first, _⟩ := Relation.TransGen.head'_iff.mp (cycle.back rest)
    exact first.inside

end ClassTable

/-! ### The walk with a list of passed classes -/

/-- What a walk that stands at a class knows of the classes behind it: they are classes of the
table, none of them twice, and the class is above all of them. -/
structure Lineage.Passed (table : ClassTable) (passed : List Name) (name : Name) : Prop where
  distinct : passed.Nodup
  inside : passed ⊆ table.names
  below : ∀ before ∈ passed, Relation.TransGen table.Declares before name

namespace Lineage.Passed

variable {table : ClassTable} {passed : List Name} {name parent : Name}

theorem start (table : ClassTable) (name : Name) : Passed table [] name :=
  ⟨List.nodup_nil, fun _ member => (nomatch member), fun _ member => (nomatch member)⟩

theorem next (behind : Passed table passed name) (fresh : name ∉ passed)
    (up : table.Declares name parent) : Passed table (name :: passed) parent where
  distinct := List.nodup_cons.mpr ⟨fresh, behind.distinct⟩
  inside := List.cons_subset.mpr ⟨ClassTable.contains_iff_mem_names.mp up.inside, behind.inside⟩
  below := List.forall_mem_cons.mpr
    ⟨.single up, fun before member => (behind.below before member).tail up⟩

theorem length_le (behind : Passed table passed name) : passed.length ≤ table.size := by
  have bounded := (List.subperm_of_subset behind.distinct behind.inside).length_le
  rwa [ClassTable.names, List.length_map] at bounded

/-- A class that comes for the first time is one more. -/
theorem length_lt (behind : Passed table passed name) (fresh : name ∉ passed)
    (inside : table.contains name = true) : passed.length < table.size := by
  have bounded := (List.subperm_of_subset (List.nodup_cons.mpr ⟨fresh, behind.distinct⟩)
    (List.cons_subset.mpr
      ⟨ClassTable.contains_iff_mem_names.mp inside, behind.inside⟩)).length_le
  rwa [ClassTable.names, List.length_map] at bounded

end Lineage.Passed

namespace ClassTable

open Lineage (Passed)

variable {table : ClassTable} {passed : List Name} {name parent above : Name} {steps : Nat}

/-- The steps that a walk is given are enough. -/
theorem size_lt_steps (table : ClassTable) :
    table.size < table.parentMap.length + 1 + ([] : List Name).length := by
  unfold parentMap
  rw [List.length_map]
  exact Nat.lt_succ_self _

/-- **Where a walk sees a cycle there is one**: the class that it meets again is above the class
where it started and is its own proper ancestor. -/
theorem cycle_of_climb (behind : Passed table passed name)
    (enough : table.size < steps + passed.length)
    (failed : Lineage.climb table.parentMap steps passed name = .cycle above) :
    Relation.ReflTransGen table.Declares name above ∧ table.Circular above := by
  induction steps generalizing passed name with
  | zero =>
    have short := behind.length_le
    omega
  | succ steps step =>
    unfold Lineage.climb at failed
    split at failed
    · rename_i again
      cases failed
      exact ⟨.refl, behind.below _ again⟩
    · rename_i fresh
      split at failed
      · cases failed
      · rename_i parent declared
        split at failed
        · cases failed
        · rename_i named
          split at failed
          · cases failed
          · have up := declares_iff.mpr ⟨declared, named⟩
            obtain ⟨way, cycle⟩ :=
              step (behind.next fresh up) (by rw [List.length_cons]; omega) failed
            exact ⟨.head up way, cycle⟩

/-- Where a walk sees an unknown parent a class above the start declares it. -/
theorem unknown_of_climb
    (failed : Lineage.climb table.parentMap steps passed name = .unknownParent above parent) :
    Relation.ReflTransGen table.Declares name above ∧ table.Declares above parent ∧
      table.contains parent = false := by
  induction steps generalizing passed name with
  | zero => cases failed
  | succ steps step =>
    unfold Lineage.climb at failed
    split at failed
    · cases failed
    · split at failed
      · cases failed
      · rename_i declared
        split at failed
        · cases failed
        · rename_i named
          split at failed
          · rename_i unknown
            cases failed
            refine ⟨.refl, declares_iff.mpr ⟨declared, named⟩,
              Bool.eq_false_iff.mpr fun known => ?_⟩
            rw [contains_iff, ← Option.not_isNone] at known
            rw [unknown] at known
            cases known
          · obtain ⟨way, rest⟩ := step failed
            exact ⟨.head (declares_iff.mpr ⟨declared, named⟩) way, rest⟩

/-- A walk from a class that reaches a root comes to its end. -/
theorem complete_of_reachesRoot (behind : Passed table passed name)
    (enough : table.size < steps + passed.length) (reaches : table.ReachesRoot name) :
    ∃ classes, Lineage.climb table.parentMap steps passed name = .complete classes := by
  cases walked : Lineage.climb table.parentMap steps passed name with
  | complete classes => exact ⟨classes, rfl⟩
  | cycle above =>
    obtain ⟨way, cycle⟩ := cycle_of_climb behind enough walked
    exact absurd cycle (reaches.upward way).not_circular
  | unknownParent above parent =>
    obtain ⟨way, up, unknown⟩ := unknown_of_climb walked
    have known := ((reaches.upward way).upward (.single up)).inside
    cases unknown.symm.trans known

/-- **A walk of one step more than there are classes is never cut short**: more steps change
nothing. -/
theorem climb_of_enough (behind : Passed table passed name)
    (enough : table.size < steps + passed.length) (more : Nat) :
    Lineage.climb table.parentMap (steps + more) passed name =
      Lineage.climb table.parentMap steps passed name := by
  induction steps generalizing passed name with
  | zero =>
    have short := behind.length_le
    omega
  | succ steps step =>
    rw [Nat.add_right_comm]
    unfold Lineage.climb
    by_cases fresh : name ∈ passed
    · rw [if_pos fresh, if_pos fresh]
    · rw [if_neg fresh, if_neg fresh]
      cases declared : table.parentMap.lookup name with
      | none => rfl
      | some parent =>
        by_cases named : parent = Reserved.empty
        · simp only [if_pos named]
        · simp only [if_neg named]
          rw [step (behind.next fresh (declares_iff.mpr ⟨declared, named⟩))
            (by rw [List.length_cons]; omega)]

/-! ### Lineages -/

theorem reachesRoot_of_isLineage {classes : List Name}
    (lineage : IsLineage table.parentMap name classes) (inside : table.contains name = true) :
    table.ReachesRoot name := by
  induction lineage with
  | @root name rootless =>
    obtain ⟨info, found⟩ := Option.isSome_iff_exists.mp inside
    exact ⟨name, info, .refl, found, rootless _ (declared_of_class? found)⟩
  | child declared named known _ _ step =>
    exact (step (contains_iff.mpr known)).step (declares_iff.mpr ⟨declared, named⟩)

/-- The lineage of a class goes on with that of its parent. -/
theorem Declares.lineage {classes : List Name} (up : table.Declares name parent)
    (lineage : IsLineage table.parentMap name classes) :
    ∃ older, classes = name :: older ∧ IsLineage table.parentMap parent older := by
  obtain ⟨declared, named⟩ := declares_iff.mp up
  cases lineage with
  | root rootless => exact absurd (rootless _ declared) named
  | child declaredToo _ _ rest _ =>
    rw [declared, Option.some.injEq] at declaredToo
    exact ⟨_, rfl, declaredToo ▸ rest⟩

/-- **A class has a lineage exactly if it reaches a root.** -/
theorem exists_complete_iff (inside : table.contains name = true) :
    (∃ classes, Lineage.of table.parentMap name = .complete classes) ↔ table.ReachesRoot name := by
  constructor
  · rintro ⟨classes, complete⟩
    exact reachesRoot_of_isLineage (isLineage_of_complete complete) inside
  · exact complete_of_reachesRoot (Passed.start table name) (size_lt_steps table)

/-- **A walk sees a cycle exactly if it leads into one.** -/
theorem exists_cycle_iff :
    (∃ above, Lineage.of table.parentMap name = .cycle above) ↔ table.LeadsIntoCycle name := by
  constructor
  · rintro ⟨above, walked⟩
    exact ⟨above, cycle_of_climb (Passed.start table name) (size_lt_steps table) walked⟩
  · intro leads
    cases walked : Lineage.of table.parentMap name with
    | cycle above => exact ⟨above, rfl⟩
    | complete classes =>
      have reaches := (exists_complete_iff (leads.inside .refl)).mp ⟨classes, walked⟩
      exact absurd leads reaches.not_leadsIntoCycle
    | unknownParent above parent =>
      obtain ⟨way, up, unknown⟩ := unknown_of_climb walked
      cases unknown.symm.trans (leads.inside (way.tail up))

/-- There is no cycle in a table where no walk sees one. -/
theorem not_circular_of_walks (walks : ∀ name ∈ table.names, ∀ above ∈ table.names,
      Lineage.of table.parentMap name ≠ .cycle above) (name : Name) : ¬table.Circular name := by
  intro cycle
  obtain ⟨above, walked⟩ := exists_cycle_iff.mpr ⟨name, .refl, cycle⟩
  obtain ⟨_, cycleToo⟩ := cycle_of_climb (Passed.start table name) (size_lt_steps table) walked
  exact walks name (contains_iff_mem_names.mp cycle.inside) above
    (contains_iff_mem_names.mp cycleToo.inside) walked

/-! ### The walk that counts its steps -/

theorem above_of_mem_climb {info : ClassInfo} (member : info ∈ table.climb steps name) :
    Relation.ReflTransGen table.Declares name info.name := by
  induction steps generalizing name with
  | zero => cases member
  | succ steps step =>
    unfold climb at member
    split at member
    · cases member
    · rename_i entry found
      rcases List.mem_cons.mp member with rfl | member
      · rw [name_of_class? found]
      · split at member
        · cases member
        · rename_i named
          exact .head (declares_iff.mpr ⟨declared_of_class? found, named⟩) (step member)

/-- What is above a member of a list that has the parents of its members is in the list. -/
theorem mem_of_closed (closed : ∀ before ∈ passed, ∀ parent, table.Declares before parent →
      parent ∈ passed ∨ parent = name) (again : name ∈ passed)
    (way : Relation.ReflTransGen table.Declares name above) : above ∈ passed := by
  induction way with
  | refl => exact again
  | tail _ up member =>
    rcases closed _ member _ up with there | rfl
    · exact there
    · exact again

/-- A walk sees every class of the table above its start that it has not passed before. The parents
of the passed classes are passed or stand next, so a class that is met again shows nothing new. -/
theorem mem_climb_of_above (behind : Passed table passed name)
    (closed : ∀ before ∈ passed, ∀ parent, table.Declares before parent →
      parent ∈ passed ∨ parent = name)
    (enough : table.size ≤ steps + passed.length) (known : table.contains above = true)
    (way : Relation.ReflTransGen table.Declares name above) :
    above ∈ passed ∨ ∃ info ∈ table.climb steps name, info.name = above := by
  induction steps generalizing passed name with
  | zero =>
    refine .inl (by_contra fun unseen => ?_)
    have fresh : name ∉ passed := fun again => unseen (mem_of_closed closed again way)
    have shorter := behind.length_lt fresh (inside_of_way known way)
    omega
  | succ steps step =>
    by_cases again : name ∈ passed
    · exact .inl (mem_of_closed closed again way)
    obtain ⟨entry, found⟩ := Option.isSome_iff_exists.mp (inside_of_way known way)
    have sees : ∃ info ∈ table.climb (steps + 1) name, info.name = name := by
      unfold climb
      rw [found]
      exact ⟨entry, List.mem_cons_self, name_of_class? found⟩
    rcases Relation.ReflTransGen.cases_head way with rfl | ⟨parent, up, rest⟩
    · exact .inr sees
    obtain ⟨declared, named⟩ := declares_iff.mp up
    rw [declared_of_class? found, Option.some.injEq] at declared
    subst declared
    have closedToo : ∀ before ∈ name :: passed, ∀ parent, table.Declares before parent →
        parent ∈ name :: passed ∨ parent = entry.parent := by
      intro before member parent upToo
      rcases List.mem_cons.mp member with rfl | member
      · exact .inr (upToo.eq up)
      · rcases closed before member parent upToo with there | rfl
        · exact .inl (List.mem_cons_of_mem _ there)
        · exact .inl List.mem_cons_self
    rcases step (behind.next again up) closedToo (by rw [List.length_cons]; omega) rest with
      member | ⟨info, member, same⟩
    · rcases List.mem_cons.mp member with rfl | earlier
      · exact .inr sees
      · exact .inl earlier
    · refine .inr ⟨info, ?_, same⟩
      unfold climb
      simp only [found, if_neg named]
      exact List.mem_cons_of_mem _ member

/-- **The walk that counts its steps sees every class above**, also where parents form a cycle. -/
theorem isSubclass_iff : table.isSubclass name above = true ↔ name ≠ Reserved.empty ∧
    table.contains above = true ∧ Relation.ReflTransGen table.Declares name above := by
  rw [isSubclass_iff_mem_ancestors]
  constructor
  · rintro ⟨info, member, rfl⟩
    refine ⟨(inside_of_mem_ancestors member).2,
      contains_of_class? (class?_of_mem_ancestors member), ?_⟩
    unfold ancestors at member
    rw [if_neg (inside_of_mem_ancestors member).2] at member
    exact above_of_mem_climb member
  · rintro ⟨named, known, way⟩
    unfold ancestors
    rw [if_neg named]
    exact (mem_climb_of_above (Passed.start table name) (fun _ member => (nomatch member))
      (Nat.le_add_right _ _) known way).resolve_left List.not_mem_nil

/-- A class above another one is above what that is above. -/
theorem isSubclass_trans {top : Name} (lower : table.isSubclass name above = true)
    (upper : table.isSubclass above top = true) : table.isSubclass name top = true := by
  obtain ⟨named, _, way⟩ := isSubclass_iff.mp lower
  obtain ⟨_, known, rest⟩ := isSubclass_iff.mp upper
  exact isSubclass_iff.mpr ⟨named, known, way.trans rest⟩

/-- Two classes above each other are one, unless they are on a cycle. -/
theorem eq_of_isSubclass (acyclic : ¬table.Circular name)
    (there : table.isSubclass name above = true) (back : table.isSubclass above name = true) :
    name = above := by
  obtain ⟨_, _, way⟩ := isSubclass_iff.mp there
  obtain ⟨_, _, rest⟩ := isSubclass_iff.mp back
  rcases Relation.reflTransGen_iff_eq_or_transGen.mp way with same | up
  · exact same.symm
  · exact absurd (up.trans_left rest) acyclic

/-! ### The ancestors where no class is its own -/

/-- Where no class is its own proper ancestor, the walk that counts its steps is not cut short. -/
theorem climb_add (acyclic : ∀ name, ¬table.Circular name) (behind : Passed table passed name)
    (enough : table.size ≤ steps + passed.length) (more : Nat) :
    table.climb (steps + more) name = table.climb steps name := by
  have fresh : name ∉ passed := fun again => acyclic name (behind.below name again)
  induction steps generalizing passed name with
  | zero =>
    have outside : table.class? name = none := by
      refine Option.eq_none_iff_forall_ne_some.mpr fun info found => ?_
      have short := behind.length_lt fresh (contains_of_class? found)
      omega
    cases more with
    | zero => rfl
    | succ more =>
      rw [Nat.zero_add]
      unfold climb
      rw [outside]
  | succ steps step =>
    rw [Nat.add_right_comm]
    unfold climb
    cases found : table.class? name with
    | none => rfl
    | some info =>
      by_cases named : info.parent = Reserved.empty
      · simp only [if_pos named]
      · have up : table.Declares name info.parent :=
          declares_iff.mpr ⟨declared_of_class? found, named⟩
        have later := behind.next fresh up
        simp only [if_neg named]
        rw [step later (by rw [List.length_cons]; omega)
          fun again => acyclic _ (later.below _ again)]

/-- **A class stands in front of the ancestors of its parent**, where no class is its own proper
ancestor. -/
theorem ancestors_eq_cons (acyclic : ∀ name, ¬table.Circular name) {info : ClassInfo}
    (found : table.class? name = some info) (named : name ≠ Reserved.empty) :
    table.ancestors name = info :: table.ancestors info.parent := by
  have fresh : name ∉ ([] : List Name) := List.not_mem_nil
  obtain ⟨steps, size⟩ : ∃ steps, table.size = steps + 1 :=
    Nat.exists_eq_add_one.mpr ((Passed.start table name).length_lt fresh (contains_of_class? found))
  unfold ancestors
  rw [if_neg named, size, climb, found]
  dsimp only
  by_cases rootless : info.parent = Reserved.empty
  · rw [if_pos rootless, if_pos rootless]
  · rw [if_neg rootless, if_neg rootless]
    have up : table.Declares name info.parent :=
      declares_iff.mpr ⟨declared_of_class? found, rootless⟩
    have behind := (Passed.start table name).next fresh up
    rw [climb_add acyclic behind (Nat.le_of_eq size) 1]

/-- A class is not among the ancestors of its parent, unless it is its own proper ancestor. -/
theorem name_ne_of_mem_ancestors_parent (acyclic : ¬table.Circular name) {info upper : ClassInfo}
    (found : table.class? name = some info) (member : upper ∈ table.ancestors info.parent) :
    upper.name ≠ name := by
  intro same
  have above : table.isSubclass info.parent name = true :=
    isSubclass_iff_mem_ancestors.mpr ⟨upper, member, same⟩
  obtain ⟨named, _, way⟩ := isSubclass_iff.mp above
  exact acyclic (.head' (declares_iff.mpr ⟨declared_of_class? found, named⟩) way)

end ClassTable

/-! ### A cycle and a class below it -/

/-- A class without members. -/
def Source.ClassDecl.bare (name parent : Name) (start : Nat) : ClassDecl :=
  { name, parent := some parent, fields := [], methods := [], span := ⟨start, start + 1⟩ }

/-- Two classes on a cycle and one that only leads into it. -/
def Source.SourceUnit.knot : SourceUnit where
  path := "Tail"
  package := []
  imports := []
  classes := [.bare "Tail" "Ring" 0, .bare "Ring" "Loop" 1, .bare "Loop" "Ring" 2]
  nodes := #[]
  stmtCount := 0

end ObjectLowering
