/-
**Which hierarchies are accepted, and what their errors name.**

The initializer chains and the vtables of a program both follow the parents of every class. Each
stops at the first class whose parents do not lead to a root, for either a name that is not in the
table or a cycle stands in between. An unknown parent is reported with the class that declares it.
A cycle is reported by the vtables at a class on it, but by the chains, which come first, at the
class where the walk began.

* `InitializerChains.exists_ofTable_iff`, `VtableSet.exists_ofTable_iff`: both accept the tables in
  which every class reaches a root.
* **`hierarchies_accepted`**: so does the builder; walks end, and without a cycle the only error is
  an unknown parent.
* **`cycle_error_names_first`**: the class that a cycle is reported at is the first mentioned one
  that does not reach a root.
-/

import ObjectLowering.Program
import ObjectLowering.Proofs.Hierarchy.Acyclic
import ObjectLowering.Proofs.Vtables.VtableBuilder

namespace ObjectLowering

open Source (SourceUnit)
open Lineage (Passed)

section Accepted

variable {names : NameTable} {table : ClassTable} {record : MangleRecord} {name : Name}
  {error : LoweringError}

/-! ### The order of mention -/

namespace NameTable

theorem mem_inOrder : name ∈ names.inOrder table.parentMap.classes ↔
    name ∈ names.texts ∧ table.contains name = true := by
  unfold inOrder
  rw [List.mem_filter, decide_eq_true_iff, ClassTable.mem_classes_parentMap]

/-- In front of a name stand those of the given ones that were mentioned before it. -/
theorem inOrder_split_iff {given before : List Name} :
    (∃ behind, names.inOrder given = before ++ name :: behind) ↔ name ∈ given ∧
      ∃ earlier later, names.texts = earlier ++ name :: later ∧
        before = (NameTable.mk earlier).inOrder given := by
  unfold inOrder
  constructor
  · rintro ⟨behind, split⟩
    obtain ⟨front, rest, texts, rfl, others⟩ := List.filter_eq_append_iff.mp split
    obtain ⟨skipped, later, rfl, skip, known, _⟩ := List.filter_eq_cons_iff.mp others
    refine ⟨of_decide_eq_true known, front ++ skipped, later, by rw [texts, List.append_assoc], ?_⟩
    rw [List.filter_append, List.filter_eq_nil_iff.mpr skip, List.append_nil]
  · rintro ⟨known, earlier, later, texts, rfl⟩
    refine ⟨later.filter (· ∈ given), ?_⟩
    rw [texts, List.filter_append]
    exact congrArg _ (List.filter_cons_of_pos (decide_eq_true known))

end NameTable

/-! ### One class -/

namespace ClassTable

/-- The error names a class of the table and the parent that it declares, which is not there. -/
def LacksParent (table : ClassTable) (error : LoweringError) : Prop :=
  ∃ child parent, error = .unknownParent child parent ∧ table.Declares child parent ∧
    table.contains parent = false

/-- Where no walk sees a cycle, one that fails lacks a parent. -/
theorem lacksParent_of_failure? (acyclic : ∀ name, ¬table.Circular name)
    (failed : (Lineage.of table.parentMap name).failure? = some error) :
    table.LacksParent error := by
  cases walked : Lineage.of table.parentMap name with
  | complete classes =>
    rw [walked] at failed
    cases failed
  | cycle above =>
    obtain ⟨member, _, cycle⟩ := exists_cycle_iff.mp ⟨above, walked⟩
    exact absurd cycle (acyclic member)
  | unknownParent child parent =>
    rw [walked] at failed
    cases failed
    exact ⟨child, parent, rfl, (unknown_of_climb walked).2⟩

end ClassTable

namespace InitializerChains

variable {raw : RawInitializers Source.Expr} {className : Name}

theorem exists_resolveClass_iff (inside : table.contains name = true) :
    (∃ entry, resolveClass table.parentMap raw name = .ok entry) ↔ table.ReachesRoot name := by
  rw [← ClassTable.exists_complete_iff inside]
  unfold resolveClass
  cases Lineage.of table.parentMap name <;> simp

/-- A cycle is reported at the class that is resolved, wherever above it the cycle is. -/
theorem resolveClass_eq_cycle_iff :
    resolveClass table.parentMap raw name = .error (.inheritanceCycle className) ↔
      name = className ∧ table.LeadsIntoCycle name := by
  rw [← ClassTable.exists_cycle_iff]
  unfold resolveClass
  cases Lineage.of table.parentMap name <;> simp

/-- Any other error is that of the walk. -/
theorem failure_of_resolveClass (failed : resolveClass table.parentMap raw name = .error error) :
    (Lineage.of table.parentMap name).failure? = some error ∨ table.LeadsIntoCycle name := by
  unfold resolveClass at failed
  cases walked : Lineage.of table.parentMap name with
  | complete classes =>
    rw [walked] at failed
    cases failed
  | cycle above => exact .inr (ClassTable.exists_cycle_iff.mp ⟨above, walked⟩)
  | unknownParent child parent =>
    rw [walked] at failed
    exact .inl (congrArg some (Except.error.inj failed))

/-! ### All classes -/

/-- **The chains are resolved exactly if every mentioned class reaches a root.** -/
theorem exists_ofTable_iff : (∃ chains, ofTable names table = .ok chains) ↔
    ∀ name ∈ names.texts, table.contains name = true → table.ReachesRoot name := by
  unfold ofTable resolve
  rw [exists_map_iff, exists_mapM_iff]
  constructor
  · exact fun each name listed inside =>
      (exists_resolveClass_iff inside).mp (each name (NameTable.mem_inOrder.mpr ⟨listed, inside⟩))
  · intro reaches name member
    obtain ⟨listed, inside⟩ := NameTable.mem_inOrder.mp member
    exact (exists_resolveClass_iff inside).mpr (reaches name listed inside)

/-- In a closed hierarchy every class has a chain. -/
theorem exists_ofTable (rooted : table.Rooted) (names : NameTable) :
    ∃ chains, ofTable names table = .ok chains :=
  exists_ofTable_iff.mpr fun name _ inside => ClassTable.rooted_iff.mp rooted name inside

theorem lacksParent_of_ofTable (acyclic : ∀ name, ¬table.Circular name)
    (failed : ofTable names table = .error error) : table.LacksParent error := by
  obtain ⟨name, _, failed⟩ := error_of_mapM (error_of_map failed)
  rcases failure_of_resolveClass failed with failed | leads
  · exact ClassTable.lacksParent_of_failure? acyclic failed
  · obtain ⟨member, _, cycle⟩ := leads
    exact absurd cycle (acyclic member)

/-- **A cycle is reported at the first mentioned class that does not reach a root**, if its parents
lead into one. -/
theorem ofTable_eq_cycle_iff : ofTable names table = .error (.inheritanceCycle className) ↔
    ∃ earlier later, names.texts = earlier ++ className :: later ∧
      (∀ other ∈ earlier, table.contains other = true → table.ReachesRoot other) ∧
      table.LeadsIntoCycle className := by
  unfold ofTable resolve
  rw [map_eq_error_iff, mapM_eq_error_iff]
  constructor
  · rintro ⟨before, item, behind, split, failed, fine⟩
    obtain ⟨rfl, leads⟩ := resolveClass_eq_cycle_iff.mp failed
    obtain ⟨_, earlier, later, texts, rfl⟩ := NameTable.inOrder_split_iff.mp ⟨behind, split⟩
    refine ⟨earlier, later, texts, fun other member inside => ?_, leads⟩
    exact (exists_resolveClass_iff inside).mp
      (fine other (NameTable.mem_inOrder.mpr ⟨member, inside⟩))
  · rintro ⟨earlier, later, texts, fine, leads⟩
    have inside := ClassTable.mem_classes_parentMap.mpr (leads.inside .refl)
    obtain ⟨behind, split⟩ := NameTable.inOrder_split_iff.mpr ⟨inside, earlier, later, texts, rfl⟩
    refine ⟨_, className, behind, split, resolveClass_eq_cycle_iff.mpr ⟨rfl, leads⟩, ?_⟩
    intro other member
    obtain ⟨member, known⟩ := NameTable.mem_inOrder.mp member
    exact (exists_resolveClass_iff known).mpr (fine other member known)

end InitializerChains

namespace VtableSet

variable {className : Name}

/-- **The vtables are built exactly if every class reaches a root.** -/
theorem exists_ofTable_iff : (∃ set, ofTable table record = .ok set) ↔
    ∀ name, table.contains name = true → table.ReachesRoot name := by
  rw [← ClassTable.rooted_iff]
  exact ⟨fun ⟨_, built⟩ => rooted_of_ofTable built, fun rooted => exists_ofTable rooted record⟩

theorem lacksParent_of_ofTable (acyclic : ∀ name, ¬table.Circular name)
    (failed : ofTable table record = .error error) : table.LacksParent error := by
  obtain ⟨_, _, failed⟩ := error_of_mapM (error_of_map failed)
  exact ClassTable.lacksParent_of_failure? acyclic (ofClass_eq_error_iff.mp failed)

/-- **The vtables report a cycle at a class on it.** -/
theorem circular_of_ofTable (failed : ofTable table record = .error (.inheritanceCycle className)) :
    table.Circular className := by
  obtain ⟨name, _, failed⟩ := error_of_mapM (error_of_map failed)
  have walked := Lineage.failure?_eq_cycle_iff.mp (ofClass_eq_error_iff.mp failed)
  exact (ClassTable.cycle_of_climb (Passed.start table name) table.size_lt_steps walked).2

end VtableSet

end Accepted

/-- **Both passes accept the same hierarchies**, those in which every class reaches a root, and what
is built class by class is built at once. No walk needs more steps than it is given. Without a cycle
the only error is a parent that is not there. -/
theorem hierarchies_accepted {names : NameTable} {table : ClassTable}
    (mentioned : ∀ name ∈ table.names, name ∈ names.texts) (record : MangleRecord) :
    ((∃ chains, InitializerChains.ofTable names table = .ok chains) ↔
      ∀ name ∈ table.names, table.ReachesRoot name) ∧
    ((∃ set, VtableBuilder.buildAll table record = .ok set) ↔
      ∀ name ∈ table.names, table.ReachesRoot name) ∧
    VtableSet.get? <$> VtableBuilder.buildAll table record =
      VtableSet.get? <$> VtableSet.ofTable table record ∧
    (∀ name more, Lineage.climb table.parentMap (table.parentMap.length + 1 + more) [] name =
      Lineage.of table.parentMap name) ∧
    ((∀ name, ¬table.Circular name) → ∀ error,
      InitializerChains.ofTable names table = .error error ∨
        VtableBuilder.buildAll table record = .error error → table.LacksParent error) := by
  have same := VtableBuilder.get?_buildAll table record
  refine ⟨?_, ?_, same, fun name more => ?_, fun acyclic error failed => ?_⟩
  · rw [InitializerChains.exists_ofTable_iff]
    exact ⟨fun each name member => each name (mentioned name member)
      (ClassTable.contains_iff_mem_names.mpr member),
      fun each name _ inside => each name (ClassTable.contains_iff_mem_names.mp inside)⟩
  · rw [← exists_map_iff, same, exists_map_iff, VtableSet.exists_ofTable_iff]
    simp only [ClassTable.contains_iff_mem_names]
  · exact ClassTable.climb_of_enough (Passed.start table name) table.size_lt_steps more
  · rcases failed with failed | failed
    · exact InitializerChains.lacksParent_of_ofTable acyclic failed
    · rw [← map_eq_error_iff, same, map_eq_error_iff] at failed
      exact VtableSet.lacksParent_of_ofTable acyclic failed

/-- A class whose parent is in no unit. -/
def Source.SourceUnit.stray : SourceUnit where
  path := "Stray"
  package := []
  imports := []
  classes := [.bare "Stray" "Lost" 0]
  nodes := #[]
  stmtCount := 0

/-- A class of an unknown parent stops both passes. -/
theorem hierarchies_accepted_stray :
    (∀ name ∈ (ClassTable.ofUnits [.stray]).names, name ∈ (NameTable.start.mention "Stray").texts) ∧
    (∀ name, ¬(ClassTable.ofUnits [.stray]).Circular name) ∧
    InitializerChains.ofTable (NameTable.start.mention "Stray") (.ofUnits [.stray]) =
      .error (.unknownParent "Stray" "Lost") ∧
    (ClassTable.ofUnits [.stray]).LacksParent (.unknownParent "Stray" "Lost") ∧
    ¬∃ set, VtableBuilder.buildAll (.ofUnits [.stray]) ⟨[]⟩ = .ok set := by
  have mentioned : ∀ name ∈ (ClassTable.ofUnits [.stray]).names,
      name ∈ (NameTable.start.mention "Stray").texts := by decide +kernel
  have acyclic : ∀ name, ¬(ClassTable.ofUnits [.stray]).Circular name :=
    ClassTable.not_circular_of_walks (by decide +kernel)
  have failed : InitializerChains.ofTable (NameTable.start.mention "Stray") (.ofUnits [.stray]) =
      .error (.unknownParent "Stray" "Lost") := rfl
  obtain ⟨chains, vtables, _, _, errors⟩ := hierarchies_accepted mentioned ⟨[]⟩
  refine ⟨mentioned, acyclic, failed, errors acyclic _ (.inl failed), fun built => ?_⟩
  obtain ⟨_, resolved⟩ := chains.mpr (vtables.mp built)
  cases failed.symm.trans resolved

/-- The facts fail as the chains do: what follows only fails where these do. -/
theorem Facts.ofProgram_eq_error_iff {names : NameTable} {table : ClassTable}
    (mentioned : ∀ name ∈ table.names, name ∈ names.texts) {units : List (SourceUnit × Facade)}
    {options : LoweringOptions} {error : LoweringError} :
    Facts.ofProgram names table units options = .error error ↔
      InitializerChains.ofTable names table = .error error := by
  unfold ofProgram
  constructor
  · intro failed
    rcases error_of_bind failed with failed | ⟨chains, resolved, failed⟩
    · exact failed
    · have reaches := InitializerChains.exists_ofTable_iff.mp ⟨chains, resolved⟩
      obtain ⟨set, built⟩ := VtableSet.exists_ofTable_iff.mpr fun name inside =>
        reaches name (mentioned name (ClassTable.contains_iff_mem_names.mp inside)) inside
      rw [built] at failed
      cases failed
  · intro failed
    rw [failed]
    rfl

/-- **Of the classes that do not reach a root, the facts name the first mentioned one** if its
parents lead into a cycle. So it is its own proper ancestor exactly if a class of that cycle was
mentioned no later than it. The vtables always name a class on the cycle. -/
theorem cycle_error_names_first {names : NameTable} {table : ClassTable}
    (mentioned : ∀ name ∈ table.names, name ∈ names.texts) (units : List (SourceUnit × Facade))
    (options : LoweringOptions) (className : Name) :
    (Facts.ofProgram names table units options = .error (.inheritanceCycle className) ↔
      ∃ earlier later, names.texts = earlier ++ className :: later ∧
        (∀ other ∈ earlier, table.contains other = true → table.ReachesRoot other) ∧
        table.LeadsIntoCycle className) ∧
    (Facts.ofProgram names table units options = .error (.inheritanceCycle className) →
      (table.Circular className ↔ ∃ member, Relation.ReflTransGen table.Declares className member ∧
        table.Circular member ∧ names.texts.idxOf member ≤ names.texts.idxOf className)) ∧
    ∀ record, VtableSet.ofTable table record = .error (.inheritanceCycle className) →
      table.Circular className := by
  refine ⟨?_, fun failed => ?_, fun record failed => VtableSet.circular_of_ofTable failed⟩
  · rw [Facts.ofProgram_eq_error_iff mentioned, InitializerChains.ofTable_eq_cycle_iff]
  · refine ⟨fun cycle => ⟨className, .refl, cycle, Nat.le_refl _⟩, ?_⟩
    rintro ⟨member, _, cycle, sooner⟩
    rw [Facts.ofProgram_eq_error_iff mentioned, InitializerChains.ofTable_eq_cycle_iff] at failed
    obtain ⟨earlier, later, texts, fine, leads⟩ := failed
    by_cases same : member = className
    · exact same ▸ cycle
    -- A class in front of the reported one reaches a root, which no class on a cycle does.
    have unseen : member ∉ earlier := fun before =>
      (fine member before cycle.inside).not_circular cycle
    have unseenToo : className ∉ earlier := fun before =>
      (fine className before (leads.inside .refl)).not_leadsIntoCycle leads
    rw [texts, List.idxOf_append_of_notMem unseen, List.idxOf_append_of_notMem unseenToo,
      List.idxOf_cons_self, List.idxOf_cons_ne _ (Ne.symm same)] at sooner
    omega

/-- The class of the error leads into the cycle without being on it; the vtables name one that
is. -/
theorem cycle_error_names_first_knot :
    (∀ name ∈ (ClassTable.ofUnits [.knot]).names,
      name ∈ (NameTable.start.mentionAll ["Tail", "Ring", "Loop"]).texts) ∧
    Facts.ofProgram (NameTable.start.mentionAll ["Tail", "Ring", "Loop"]) (.ofUnits [.knot]) [] {} =
      .error (.inheritanceCycle "Tail") ∧
    (ClassTable.ofUnits [.knot]).LeadsIntoCycle "Tail" ∧
    VtableSet.ofTable (.ofUnits [.knot]) ⟨[]⟩ = .error (.inheritanceCycle "Ring") ∧
    (ClassTable.ofUnits [.knot]).Circular "Ring" := by
  have mentioned : ∀ name ∈ (ClassTable.ofUnits [.knot]).names,
      name ∈ (NameTable.start.mentionAll ["Tail", "Ring", "Loop"]).texts := by decide +kernel
  have failed : Facts.ofProgram (NameTable.start.mentionAll ["Tail", "Ring", "Loop"])
      (.ofUnits [.knot]) [] {} = .error (.inheritanceCycle "Tail") := rfl
  have vtables : VtableSet.ofTable (.ofUnits [.knot]) ⟨[]⟩ =
    .error (.inheritanceCycle "Ring") := rfl
  obtain ⟨_, _, _, _, leads⟩ := (cycle_error_names_first mentioned [] {} "Tail").1.mp failed
  exact ⟨mentioned, failed, leads, vtables,
    (cycle_error_names_first mentioned [] {} "Ring").2.2 ⟨[]⟩ vtables⟩

/-- The class at which a cycle is reported need not be its own proper ancestor. -/
theorem cycle_error_off_cycle :
    (Program.ofUnits [.knot]).facts (NameTable.start.mentionAll ["Tail", "Ring", "Loop"]) {} =
      .error (.inheritanceCycle "Tail") ∧ ¬(ClassTable.ofUnits [.knot]).Circular "Tail" := by
  refine ⟨rfl, fun cycle => ?_⟩
  obtain ⟨sub, known, up⟩ := cycle.exists_sub
  revert sub
  decide +kernel

end ObjectLowering
