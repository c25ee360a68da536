/-
**What a unit is built to.**

Every class takes what its parts left loose, so no reference is loose when a unit is done. What was
built is therefore valid and a forest, and its trees are those of the lowered unit.

* `VtableSet.aligned`: the bindings of every vtable follow its slots.
* **`agrees_buildClasses`**: the classes of a unit, built and lowered.
* `buildUnit_eq`: nothing is wrong with a unit that was built.
* `agrees_buildUnits`, `agrees_buildProgram`: units and programs.
-/

import ObjectLowering.Building.Program
import ObjectLowering.Compile
import ObjectLowering.Proofs.Building.Classes
import ObjectLowering.Proofs.Resolution.Dispatch
import ObjectLowering.Proofs.Vtables.Bindings

namespace ObjectLowering

open Source (SourceUnit)
open Lowered (CodeUnit FlatUnit forall₂_of_each)
open Lowering (Context)

/-- The bindings of every vtable follow its slots. -/
def VtableSet.Aligned (set : VtableSet) : Prop :=
  ∀ name vtable, set.get? name = some vtable →
    vtable.slots.map (·.name) = vtable.bindings.map (·.slot)

theorem VtableSet.aligned {table : ClassTable} {record : MangleRecord} {set : VtableSet}
    (computed : ofTable table record = .ok set) : set.Aligned := by
  intro name vtable found
  obtain ⟨results, done, rfl⟩ := ok_of_map computed
  have each : ∀ result ∈ results, result.2.slots.map (·.name) = result.2.bindings.map (·.slot) := by
    refine forall_of_forall₂ (ok_of_mapM done) fun className result built => ?_
    unfold ofClass at built
    split at built <;> cases built
    exact Vtable.names_slots_along ..
  obtain ⟨before, behind, split, _⟩ := List.lookup_eq_some_iff.mp found
  have split : results = before ++ (name, vtable) :: behind := split
  exact each (name, vtable) (split ▸ List.mem_append_right _ List.mem_cons_self)

namespace Building

/-- A unit was built to the trees of the other one, if its numbers fit. -/
def ReadsAs (flat : FlatUnit) (tree : Lowered.TreeUnit) : Prop := flat.arena.Fits → flat.read = tree

/-- **The classes of a unit are built as they are lowered**, and what was built is a valid
forest. -/
theorem agrees_buildClasses {context : Context} (aligned : context.facts.vtables.Aligned)
    (index : Nat) (unit : SourceUnit) :
    match buildClasses context index unit with
    | .ok flat => flat.validate = .ok () ∧ flat.IsForest ∧
        ∃ tree, Lowering.lowerClasses context index unit = .ok tree ∧ ReadsAs flat tree
    | .error failure => failure.Answers id (Lowering.lowerClasses context index unit) := by
  have agrees : Agrees 0
      ((unit.classes.filter (context.facade.owns index ·.name)).mapM (buildClass context))
      ((unit.classes.filter (context.facade.owns index ·.name)).mapM (Lowering.lowerClass context))
      (Lowered.each classAt) := .mapM fun decl _ => agrees_buildClass decl (aligned decl.name)
  have known := agrees .empty 0 ⟨Lowered.FlatArena.Accounts.empty, trivial⟩
  unfold buildClasses Lowering.lowerClasses
  dsimp only
  cases run : ((unit.classes.filter (context.facade.owns index ·.name)).mapM
      (buildClass context)).run .empty with
  | error failure =>
    rw [run] at known
    exact known.bind _
  | ok reached =>
    obtain ⟨classes, arena⟩ := reached
    rw [run] at known
    obtain ⟨_, trees, lowered, accounts, fact⟩ := known
    obtain ⟨loose, reads⟩ := each_parts classAt_parts fact
    rw [add_zero, loose] at accounts
    have ordered := forall_of_forall₂ (forall₂_of_each fact).flip fun _ _ fact => fact.1
    let flat : FlatUnit := ⟨⟨unit.path, unit.package, unit.imports, classes⟩, arena⟩
    have accounts : flat.arena.Accounts flat.roots := accounts
    refine ⟨FlatUnit.validate_of_accounts accounts ordered,
      FlatUnit.isForest_of_accounts accounts, ⟨unit.path, unit.package, unit.imports, trees⟩, ?_,
      fun fits => ?_⟩
    · rw [lowered]
      rfl
    · exact congrArg (CodeUnit.mk unit.path unit.package unit.imports)
        (reads arena arena.depth ⟨.refl arena, fits, Nat.lt_succ_self _⟩)

section Units

variable {facts : Facts} {options : LoweringOptions}

/-- **Nothing is wrong with a unit whose classes could be built.** -/
theorem buildUnit_eq (aligned : facts.vtables.Aligned) (index : Nat) (unit : SourceUnit)
    (facade : Facade) : buildUnit index unit facade facts options =
      buildClasses ⟨facade, facts.mangle.sites index, facts, options⟩ index unit := by
  have known := @agrees_buildClasses ⟨facade, facts.mangle.sites index, facts, options⟩ aligned
    index unit
  unfold buildUnit
  cases built : buildClasses ⟨facade, facts.mangle.sites index, facts, options⟩ index unit with
  | error failure => rfl
  | ok flat =>
    rw [built] at known
    show validated flat = .ok flat
    unfold validated
    rw [known.1]

/-- **A unit is built as it is lowered.** -/
theorem agrees_buildUnit (aligned : facts.vtables.Aligned) (index : Nat) (unit : SourceUnit)
    (facade : Facade) :
    match buildUnit index unit facade facts options with
    | .ok flat => ∃ tree, lowerUnit index unit facade facts options = .ok tree ∧ ReadsAs flat tree
    | .error failure => failure.Answers id (lowerUnit index unit facade facts options) := by
  have known := @agrees_buildClasses ⟨facade, facts.mangle.sites index, facts, options⟩ aligned
    index unit
  rw [buildUnit_eq aligned]
  cases built : buildClasses ⟨facade, facts.mangle.sites index, facts, options⟩ index unit with
  | error failure =>
    rw [built] at known
    exact known
  | ok flat =>
    rw [built] at known
    exact known.2.2

/-- Units are built as they are lowered; the first one that stops ends both runs. -/
theorem agrees_buildUnits (aligned : facts.vtables.Aligned) (parts : List (SourceUnit × Facade))
    (start : Nat) :
    match buildUnits facts options start parts with
    | .ok built => ∃ trees, lowerUnits facts options start parts = .ok trees ∧
        List.Forall₂ ReadsAs built trees
    | .error stop => stop.failure.Answers (UnitFailure.mk stop.path)
        (lowerUnits facts options start parts) := by
  induction parts generalizing start with
  | nil => exact ⟨[], rfl, .nil⟩
  | cons part rest step =>
    obtain ⟨unit, facade⟩ := part
    have first := @agrees_buildUnit facts options aligned start unit facade
    have others := step (start + 1)
    unfold buildUnits lowerUnits
    cases here : buildUnit start unit facade facts options with
    | error failure =>
      rw [here] at first
      exact (first.mapError _).bind _
    | ok flat =>
      rw [here] at first
      obtain ⟨tree, lowered, reads⟩ := first
      rw [lowered]
      cases there : buildUnits facts options (start + 1) rest with
      | error stop =>
        rw [there] at others
        exact others.bind _
      | ok flats =>
        rw [there] at others
        obtain ⟨trees, done, all⟩ := others
        rw [done]
        exact ⟨tree :: trees, rfl, .cons reads all⟩

/-- The units of a program are built as they are lowered. -/
theorem agrees_build (aligned : facts.vtables.Aligned) (program : Program) :
    match program.build facts options with
    | .ok built => ∃ trees, program.lower facts options = .ok trees ∧
        List.Forall₂ ReadsAs built trees
    | .error stop => stop.failure.Answers (UnitFailure.mk stop.path)
        (program.lower facts options) :=
  agrees_buildUnits aligned (program.parts .unchanged) 0

end Units

/-- **A program is built as it is lowered.** -/
theorem agrees_buildProgram (names : NameTable) (options : LoweringOptions)
    (units : List SourceUnit) :
    match buildProgram names options (.ofUnits units) with
    | .ok built => ∃ trees, lowerProgram names options (.ofUnits units) = .ok trees ∧
        List.Forall₂ ReadsAs built trees
    | .error (.program error) =>
      lowerProgram names options (.ofUnits units) = .error (.program error)
    | .error (.unit stop) => stop.failure.Answers (CompileError.unit ⟨stop.path, ·⟩)
        (lowerProgram names options (.ofUnits units)) := by
  cases computed : (Program.ofUnits units).facts names options with
  | error error =>
    rw [buildProgram_of_error computed, lowerProgram_of_error computed]
  | ok facts =>
    have known := @agrees_build facts options
      (VtableSet.aligned (Program.vtables_of_facts computed)) (.ofUnits units)
    rw [buildProgram_of_ok computed, lowerProgram_of_ok computed]
    cases run : (Program.ofUnits units).build facts options with
    | error stop =>
      rw [run] at known
      exact known.mapError CompileError.unit
    | ok built =>
      rw [run] at known
      obtain ⟨trees, lowered, reads⟩ := known
      rw [lowered]
      exact ⟨trees, rfl, reads⟩

end Building

end ObjectLowering
