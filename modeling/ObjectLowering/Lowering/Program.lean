/-
**Lowering units and programs.**

The facts of a program are computed once: every declaration gets its name and every call its target,
then the initializer chains are resolved, then the vtables are built. Units are lowered one by one
with these facts, so that what a unit becomes does not depend on the bodies of others.

* `Facts.ofProgram` computes the facts or the first error.
* `lowerUnit` lowers the classes that a unit owns.
* `lowerUnits` lowers every unit; its first failure ends it.
-/

import ObjectLowering.Lowering.Class
import ObjectLowering.Typing.Infer

namespace ObjectLowering

open Source (SourceUnit)

/-- The parts that facts consist of; the targets of the calls are part of the names. -/
inductive FactPart where
  | mangle
  | calls
  | chains
  | vtables
  deriving DecidableEq, Repr

namespace Facts

/-- The facts of a program. The order of the names decides which class is resolved first. -/
def ofProgram (names : NameTable) (table : ClassTable) (units : List (SourceUnit × Facade))
    (options : LoweringOptions) : Except LoweringError Facts := do
  let mangle := MangleTable.ofProgram options.entryPoint units
  let chains ← InitializerChains.ofTable names table
  let vtables ← VtableSet.ofTable table mangle.record
  return ⟨mangle, chains, vtables⟩

def without (facts : Facts) : FactPart → Facts
  | .mangle => { facts with mangle := .empty }
  | .calls => { facts with mangle := facts.mangle.withoutCalls }
  | .chains => { facts with chains := .empty }
  | .vtables => { facts with vtables := .empty }

def withoutAll (facts : Facts) (parts : List FactPart) : Facts := parts.foldl without facts

end Facts

namespace Lowering

/-- Lowers the classes that the unit at a position owns. -/
def lowerClasses (context : Context) (index : Nat) (unit : SourceUnit) :
    Except LoweringFailure Lowered.TreeUnit := do
  let classes ← (unit.classes.filter (context.facade.owns index ·.name)).mapM (lowerClass context)
  return ⟨unit.path, unit.package, unit.imports, classes⟩

end Lowering

open Lowering

def lowerUnit (index : Nat) (unit : SourceUnit) (facade : Facade) (facts : Facts)
    (options : LoweringOptions) : Except LoweringFailure Lowered.TreeUnit :=
  lowerClasses ⟨facade, facts.mangle.sites index, facts, options⟩ index unit

/-- A unit could not be lowered. -/
structure UnitFailure where
  path : String
  failure : LoweringFailure
  deriving DecidableEq, Repr

/-- Lowers units from first to last, starting at a position. -/
def lowerUnits (facts : Facts) (options : LoweringOptions) :
    Nat → List (SourceUnit × Facade) → Except UnitFailure (List Lowered.TreeUnit)
  | _, [] => .ok []
  | index, (unit, facade) :: rest => do
    let first ← (lowerUnit index unit facade facts options).mapError (⟨unit.path, ·⟩)
    let others ← lowerUnits facts options (index + 1) rest
    return first :: others

end ObjectLowering
