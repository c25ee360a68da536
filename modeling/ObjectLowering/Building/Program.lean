/-
**Building units and programs.**

Each unit has an arena of its own. The classes that a unit owns are built one after the other, and
the unit is validated when they are. Read back, it has the trees of the lowered unit
(`Building.agrees_buildUnit`).

* `buildClasses` builds the classes of a unit; `buildUnit` validates the result as well.
* `Program.build` builds every unit; the first failure ends it.
* `buildProgram` computes the facts of a program and builds every unit.
-/

import ObjectLowering.Building.Class
import ObjectLowering.Program

namespace ObjectLowering

open Lowered (FlatUnit)
open Lowering (Context)
open Source (SourceUnit)

namespace Building

/-- Builds the classes that the unit at a position owns. -/
def buildClasses (context : Context) (index : Nat) (unit : SourceUnit) :
    Except BuildFailure FlatUnit := do
  let owned := unit.classes.filter (context.facade.owns index ·.name)
  let (classes, arena) ← (owned.mapM (buildClass context)).run .empty
  return ⟨⟨unit.path, unit.package, unit.imports, classes⟩, arena⟩

/-- Passes a unit on if it is valid. -/
def validated (flat : FlatUnit) : Except BuildFailure FlatUnit :=
  match flat.validate with
  | .error violation => .error (.violation violation)
  | .ok () => .ok flat

end Building

open Building

def buildUnit (index : Nat) (unit : SourceUnit) (facade : Facade) (facts : Facts)
    (options : LoweringOptions) : Except BuildFailure FlatUnit :=
  buildClasses ⟨facade, facts.mangle.sites index, facts, options⟩ index unit >>= validated

/-- A unit could not be built. -/
structure UnitStop where
  path : String
  failure : BuildFailure
  deriving DecidableEq, Repr

/-- Builds units from first to last, starting at a position. -/
def buildUnits (facts : Facts) (options : LoweringOptions) :
    Nat → List (SourceUnit × Facade) → Except UnitStop (List FlatUnit)
  | _, [] => .ok []
  | index, (unit, facade) :: rest => do
    let first ← (buildUnit index unit facade facts options).mapError (⟨unit.path, ·⟩)
    let others ← buildUnits facts options (index + 1) rest
    return first :: others

/-- Why a program could not be built. -/
inductive BuildError where
  /-- The program as a whole cannot be lowered. -/
  | program (error : LoweringError)
  /-- A unit could not be built. -/
  | unit (stop : UnitStop)
  deriving DecidableEq, Repr

namespace Program

/-- Builds the unit at a position with given facts and an altered facade. -/
def buildUnit? (program : Program) (facts : Facts) (options : LoweringOptions)
    (alteration : Alteration) (index : Nat) : Option (Except BuildFailure FlatUnit) :=
  (program.parts alteration)[index]?.map fun (unit, facade) =>
    buildUnit index unit facade facts options

/-- Builds every unit with given facts. -/
def build (program : Program) (facts : Facts) (options : LoweringOptions) :
    Except UnitStop (List FlatUnit) :=
  buildUnits facts options 0 (program.parts .unchanged)

end Program

/-- Computes the facts of a program and builds every unit. -/
def buildProgram (names : NameTable) (options : LoweringOptions) (program : Program) :
    Except BuildError (List FlatUnit) := do
  let facts ← (program.facts names options).mapError .program
  (program.build facts options).mapError .unit

theorem buildProgram_of_ok {names : NameTable} {options : LoweringOptions} {program : Program}
    {facts : Facts} (computed : program.facts names options = .ok facts) :
    buildProgram names options program = (program.build facts options).mapError .unit := by
  unfold buildProgram
  rw [computed]
  rfl

theorem buildProgram_of_error {names : NameTable} {options : LoweringOptions} {program : Program}
    {error : LoweringError} (failed : program.facts names options = .error error) :
    buildProgram names options program = .error (.program error) := by
  unfold buildProgram
  rw [failed]
  rfl

end ObjectLowering
