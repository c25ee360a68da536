/-
**From units to C++ files.**

A run annotates its units, computes the facts of the program, lowers every unit and prints what
came out. Nothing is printed unless every unit was lowered. Along with its result a run gives the
table of names, by which a diagnostic numbers the names it shows.

* `compileUnits` runs on units that are at hand.
* `lowerProgram` is a run that stops before printing (`compileProgram_eq`).
* `compile` runs on the units that an entry reaches in a store.
-/

import ObjectLowering.Cpp.Unit
import ObjectLowering.Program
import ObjectLowering.Source.UnitStore

namespace ObjectLowering

open Source (SourceError SourceUnit UnitStore)

/-- Choices for one run. -/
structure CompileOptions where
  lower : LoweringOptions := {}
  emit : Cpp.EmitOptions := {}
  /-- Print the lowered units. -/
  emitText : Bool := true
  deriving DecidableEq, Repr

/-- Why a run gave no output. -/
inductive CompileError where
  /-- A unit could not be brought in. -/
  | source (error : SourceError)
  /-- The program as a whole cannot be lowered. -/
  | program (error : LoweringError)
  /-- A unit could not be lowered. -/
  | unit (failure : UnitFailure)
  /-- A part of the unit with this path is missing. -/
  | incomplete (path : String)
  deriving DecidableEq, Repr

/-- What a run gives, in the order of the units. -/
structure Compiled where
  units : List SourceUnit
  lowered : List Lowered.TreeUnit
  /-- The files; none if printing was not asked for. -/
  emitted : List Cpp.EmittedUnit

def emitOrFail (options : Cpp.EmitOptions) (unit : Lowered.TreeUnit) :
    Except CompileError Cpp.EmittedUnit :=
  match Cpp.emitUnit? options unit with
  | some emitted => .ok emitted
  | none => .error (.incomplete unit.path)

def compileProgram (names : NameTable) (options : CompileOptions) (program : Program) :
    Except CompileError Compiled := do
  let facts ← (program.facts names options.lower).mapError .program
  let lowered ← (program.lower facts options.lower).mapError .unit
  let emitted ← if options.emitText then lowered.mapM (emitOrFail options.emit) else .ok []
  return ⟨program.units, lowered, emitted⟩

/-- Computes the facts of a program and lowers every unit. -/
def lowerProgram (names : NameTable) (options : LoweringOptions) (program : Program) :
    Except CompileError (List Lowered.TreeUnit) := do
  let facts ← (program.facts names options).mapError .program
  (program.lower facts options).mapError .unit

theorem lowerProgram_of_ok {names : NameTable} {options : LoweringOptions} {program : Program}
    {facts : Facts} (computed : program.facts names options = .ok facts) :
    lowerProgram names options program = (program.lower facts options).mapError .unit := by
  unfold lowerProgram
  rw [computed]
  rfl

theorem lowerProgram_of_error {names : NameTable} {options : LoweringOptions} {program : Program}
    {error : LoweringError} (failed : program.facts names options = .error error) :
    lowerProgram names options program = .error (.program error) := by
  unfold lowerProgram
  rw [failed]
  rfl

/-- A run prints what lowering the program gives. -/
theorem compileProgram_eq (names : NameTable) (options : CompileOptions) (program : Program) :
    compileProgram names options program = do
      let lowered ← lowerProgram names options.lower program
      let emitted ← if options.emitText then lowered.mapM (emitOrFail options.emit) else .ok []
      return ⟨program.units, lowered, emitted⟩ := by
  unfold compileProgram lowerProgram
  rw [bind_assoc]

/-- Lowers and prints the given units. -/
def compileUnits (names : NameTable) (options : CompileOptions) (units : List SourceUnit) :
    NameTable × Except CompileError Compiled :=
  let program := Program.ofUnits units
  let names := names.mentionAll (program.mentions options.lower)
  (names, compileProgram names options program)

/-- Lowers and prints the units that an entry reaches. -/
def compile (names : NameTable) (options : CompileOptions) (store : UnitStore) (entry : String) :
    NameTable × Except CompileError Compiled :=
  match store.sourceSet entry with
  | .error error => (names, .error (.source error))
  | .ok units => compileUnits names options units

end ObjectLowering
