/-
**A program with its class table and annotations.**

The units of a program share one class table; each unit has annotations of its own. Later stages
read a unit together with its facade, which may be altered.

* `Program.ofUnits` builds the table and annotates every unit.
* `Program.mangle` names the declarations, `Program.facts` computes all facts and `Program.lower`
  lowers every unit.
* `Program.mentions` lists the names that a program brings beyond those of its units.
-/

import ObjectLowering.Lowering.Program

namespace ObjectLowering

open Source (SourceUnit)

/-- Units, the table of their classes and the annotations of each unit. -/
structure Program where
  units : List SourceUnit
  table : ClassTable
  notes : List Annotations

namespace Program

/-- The program that consists of the units. -/
def ofUnits (units : List SourceUnit) : Program :=
  let table := ClassTable.ofUnits units
  ⟨units, table, units.zipIdx.map fun (unit, index) => .ofUnit table index unit⟩

/-- The facades of the units, each altered in the same way. -/
def facades (program : Program) (alteration : Alteration) : List Facade :=
  program.notes.map fun notes => alteration.apply (.ofUnit program.table notes)

def parts (program : Program) (alteration : Alteration) : List (SourceUnit × Facade) :=
  program.units.zip (program.facades alteration)

/-- The names of the declarations and the targets of the calls. -/
def mangle (program : Program) (options : LoweringOptions) (alteration : Alteration) :
    MangleTable :=
  .ofProgram options.entryPoint (program.parts alteration)

/-- The names that come with the table, then those given to declarations. -/
def mentions (program : Program) (options : LoweringOptions) : List Name :=
  program.table.mentions ++ (program.mangle options .unchanged).record.mentions

def facts (program : Program) (names : NameTable) (options : LoweringOptions) :
    Except LoweringError Facts :=
  Facts.ofProgram names program.table (program.parts .unchanged) options

/-- Lowers every unit with given facts. -/
def lower (program : Program) (facts : Facts) (options : LoweringOptions) :
    Except UnitFailure (List Lowered.TreeUnit) :=
  lowerUnits facts options 0 (program.parts .unchanged)

end Program

end ObjectLowering
