/-
**What a run does for each unit.**

A run computes the facts of the program, lowers the units one after the other and prints them one
after the other. It comes to a result exactly if the facts are known and every unit is lowered and,
where printing is asked for, printed; and the result has, at the position of each unit, what this
unit came to.

* `Program.ok_of_lower_unit`, `Program.exists_lower`: lowering the units of a program.
* `Compiled.SameAt`: two runs have the same for a unit.
* **`ok_of_compileUnits`**: the result of a run, unit by unit.
* **`exists_compileUnits`**: when there is one.
-/

import ObjectLowering.Compile
import ObjectLowering.Proofs.Lowering.LoweredClasses

namespace ObjectLowering

open Source (SourceUnit)

/-! ### Related lists -/

section Related

variable {α β γ : Type} {related : α → β → Prop} {items : List α} {others : List β}

theorem map_eq_of_forall₂ (each : List.Forall₂ related items others) {change : α → γ}
    {change' : β → γ} (same : ∀ item other, related item other → change item = change' other) :
    items.map change = others.map change' := by
  induction each with
  | nil => rfl
  | cons here _ step => rw [List.map_cons, List.map_cons, same _ _ here, step]

/-- What two steps come to holds of whole lists. -/
theorem forall₂_trans {relatedToo : β → γ → Prop} {whole : α → γ → Prop} {results : List γ}
    (first : List.Forall₂ related items others) (second : List.Forall₂ relatedToo others results)
    (compose : ∀ item other result, related item other → relatedToo other result →
      whole item result) : List.Forall₂ whole items results := by
  induction first generalizing results with
  | nil =>
    cases second
    exact .nil
  | cons here _ step =>
    cases second with
    | cons there behind => exact .cons (compose _ _ _ here there) (step behind)

end Related

/-! ### Lowering -/

namespace Program

variable {units : List SourceUnit} {facts : Facts} {options : LoweringOptions}

/-- A program that was lowered has, at the position of each unit, what this unit became. -/
theorem ok_of_lower_unit {lowered : List Lowered.TreeUnit}
    (done : (ofUnits units).lower facts options = .ok lowered) {index : Nat} {unit : SourceUnit}
    (here : units[index]? = some unit) :
    ∃ tree, lowered[index]? = some tree ∧
      lowerUnit index unit (facadeAt units index unit) facts options = .ok tree := by
  have each := ok_of_lowerUnits done
  rw [zipIdx_parts, List.forall₂_map_left_iff] at each
  have place : units.zipIdx[index]? = some (unit, index) := by
    rw [List.getElem?_zipIdx, here, Nat.zero_add]
    rfl
  obtain ⟨tree, there, ran⟩ := getElem?_of_forall₂ each place
  exact ⟨tree, there, ran⟩

/-- Lowering units gives a result if every one of them is lowered. -/
theorem exists_lowerUnits {parts : List (SourceUnit × Facade)} {start : Nat}
    (each : ∀ part ∈ parts.zipIdx start, ∃ tree,
      lowerUnit part.2 part.1.1 part.1.2 facts options = .ok tree) :
    ∃ lowered, lowerUnits facts options start parts = .ok lowered := by
  induction parts generalizing start with
  | nil => exact ⟨[], rfl⟩
  | cons part rest step =>
    rw [List.zipIdx_cons, List.forall_mem_cons] at each
    obtain ⟨first, here⟩ := each.1
    obtain ⟨others, there⟩ := step each.2
    refine ⟨first :: others, ?_⟩
    unfold lowerUnits
    dsimp only at here ⊢
    rw [here, there]
    rfl

/-- A program is lowered if every unit is. -/
theorem exists_lower (each : ∀ index unit, units[index]? = some unit → ∃ tree,
      lowerUnit index unit (facadeAt units index unit) facts options = .ok tree) :
    ∃ lowered, (ofUnits units).lower facts options = .ok lowered := by
  refine exists_lowerUnits fun part member => ?_
  rw [zipIdx_parts] at member
  obtain ⟨⟨unit, index⟩, here, rfl⟩ := List.mem_map.mp member
  exact each index unit (List.mem_zipIdx_iff_getElem?.mp here)

end Program

/-! ### Runs -/

variable {names : NameTable} {options : CompileOptions} {units : List SourceUnit} {facts : Facts}
  {compiled : Compiled}

theorem emitOrFail_eq_ok {options : Cpp.EmitOptions} {tree : Lowered.TreeUnit}
    {files : Cpp.EmittedUnit} :
    emitOrFail options tree = .ok files ↔ Cpp.emitUnit? options tree = some files := by
  unfold emitOrFail
  cases Cpp.emitUnit? options tree with
  | none => exact ⟨fun done => (nomatch done), fun done => (nomatch done)⟩
  | some printed => exact ⟨fun done => congrArg _ (Except.ok.inj done),
      fun done => congrArg _ (Option.some.inj done)⟩

/-- The table of names of a run: it has the names of the program too. -/
def runNames (names : NameTable) (options : CompileOptions) (units : List SourceUnit) : NameTable :=
  names.mentionAll ((Program.ofUnits units).mentions options.lower)

/-- A run has, at a position, what lowering the unit came to and, where printing was asked for, its
files. -/
def Compiled.HasAt (compiled : Compiled) (options : CompileOptions) (index : Nat)
    (lowered : Except LoweringFailure Lowered.TreeUnit) : Prop :=
  ∃ tree, lowered = .ok tree ∧ compiled.lowered[index]? = some tree ∧
    (options.emitText = true →
      ∃ files, Cpp.emitUnit? options.emit tree = some files ∧ compiled.emitted[index]? = some files)

/-- Two runs have, each at its own position, the same tree and, where printing was asked for, the
same files. -/
def Compiled.SameAt (options : CompileOptions) (compiled found : Compiled) (index position : Nat) :
    Prop :=
  (∃ tree, compiled.lowered[index]? = some tree ∧ found.lowered[position]? = some tree) ∧
    (options.emitText = true →
      ∃ files, compiled.emitted[index]? = some files ∧ found.emitted[position]? = some files)

/-- What is lowered to the same tree is printed in the same way. -/
theorem Compiled.HasAt.same {found : Compiled} {index position : Nat}
    {lowered : Except LoweringFailure Lowered.TreeUnit}
    (first : compiled.HasAt options index lowered) (second : found.HasAt options position lowered) :
    compiled.SameAt options found index position := by
  obtain ⟨tree, ran, stands, printed⟩ := first
  obtain ⟨treeToo, ranToo, standsToo, printedToo⟩ := second
  cases ran.symm.trans ranToo
  refine ⟨⟨tree, stands, standsToo⟩, fun asked => ?_⟩
  obtain ⟨files, prints, emitted⟩ := printed asked
  obtain ⟨filesToo, printsToo, emittedToo⟩ := printedToo asked
  cases prints.symm.trans printsToo
  exact ⟨files, emitted, emittedToo⟩

/-- **A run that came to a result** knows the facts of the program and has, at the position of each
unit, what this unit became. -/
theorem ok_of_compileUnits (done : (compileUnits names options units).2 = .ok compiled) :
    ∃ facts, (Program.ofUnits units).facts (runNames names options units) options.lower =
        .ok facts ∧
      ∀ index unit, units[index]? = some unit → compiled.HasAt options index
        (lowerUnit index unit (Program.facadeAt units index unit) facts options.lower) := by
  obtain ⟨facts, computed, done⟩ := ok_of_bind done
  obtain ⟨lowered, lowers, done⟩ := ok_of_bind done
  dsimp only at done
  refine ⟨facts, mapError_eq_ok.mp computed, fun index unit here => ?_⟩
  obtain ⟨tree, there, ran⟩ := Program.ok_of_lower_unit (mapError_eq_ok.mp lowers) here
  split at done
  · obtain ⟨emitted, printed, done⟩ := ok_of_bind done
    cases done
    refine ⟨tree, ran, there, fun _ => ?_⟩
    obtain ⟨files, found, prints⟩ := getElem?_of_forall₂ (ok_of_mapM printed) there
    exact ⟨files, emitOrFail_eq_ok.mp prints, found⟩
  · rename_i unasked
    cases done
    exact ⟨tree, ran, there, fun asked => absurd asked unasked⟩

/-- **A run comes to a result** if the facts are known and every unit is lowered and can be
printed. -/
theorem exists_compileUnits
    (computed : (Program.ofUnits units).facts (runNames names options units) options.lower =
      .ok facts)
    (each : ∀ index unit, units[index]? = some unit → ∃ tree,
      lowerUnit index unit (Program.facadeAt units index unit) facts options.lower = .ok tree ∧
      (options.emitText = true → ∃ files, Cpp.emitUnit? options.emit tree = some files)) :
    ∃ compiled, (compileUnits names options units).2 = .ok compiled := by
  obtain ⟨lowered, lowers⟩ := Program.exists_lower fun index unit here =>
    (each index unit here).imp fun _ ran => ran.1
  have prints (asked : options.emitText = true) :
      ∃ emitted, lowered.mapM (emitOrFail options.emit) = .ok emitted := by
    refine exists_mapM fun tree member => ?_
    obtain ⟨part, listed, ran⟩ := exists_of_mem_right (ok_of_lowerUnits lowers) member
    rw [Program.zipIdx_parts] at listed
    obtain ⟨⟨unit, index⟩, here, rfl⟩ := List.mem_map.mp listed
    obtain ⟨found, lowered, printed⟩ := each index unit (List.mem_zipIdx_iff_getElem?.mp here)
    cases lowered.symm.trans ran
    obtain ⟨files, printed⟩ := printed asked
    exact ⟨files, emitOrFail_eq_ok.mpr printed⟩
  show ∃ compiled, compileProgram (runNames names options units) options (.ofUnits units) = _
  unfold compileProgram
  rw [mapError_eq_ok.mpr computed]
  dsimp only [bind, Except.bind]
  rw [mapError_eq_ok.mpr lowers]
  dsimp only
  split
  · rename_i asked
    obtain ⟨emitted, printed⟩ := prints asked
    rw [printed]
    exact ⟨_, rfl⟩
  · exact ⟨_, rfl⟩

end ObjectLowering
