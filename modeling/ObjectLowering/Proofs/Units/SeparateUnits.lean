/-
**Units are lowered separately.**

Two programs that share a unit, and declare the same classes elsewhere, have the same entries in
their tables, up to the values of fields and places in other units. The shared unit owns the same
classes in both, and brings the same initializers; no method is named differently. So the unit
becomes the same in both.

* `SourceUnit.Alike`: two units declare the same classes, but for bodies and the values of fields.
* `ClassInfo.Corresponds`: what this says of two entries, as a unit sees them.
* `Program.Share`: two programs share a unit, and the other units are alike.
* `Program.Share.tables`, `Program.Share.owns`, `Program.Share.renamed`: what follows of the whole
  programs.
* `Program.Share.seenAlike`: they look the same to the shared unit.
* **`units_lowered_separately`**: the shared unit is lowered and printed in the same way.
-/

import ObjectLowering.Proofs.Naming.MangledNames
import ObjectLowering.Proofs.Units.Runs
import ObjectLowering.Proofs.Units.SameView

namespace ObjectLowering

open Source (SourceUnit ClassDecl FieldDecl MethodDecl)

/-! ### Declared alike -/

namespace Source

/-- Two fields have one name, one type and the same modifiers. -/
structure FieldDecl.Alike (field other : FieldDecl) : Prop where
  name : field.name = other.name
  type : field.type = other.type
  modifiers : field.modifiers = other.modifiers

/-- Two methods have one name, one signature and the same modifiers. -/
structure MethodDecl.Alike (method other : MethodDecl) : Prop where
  name : method.name = other.name
  paramTypes : method.paramTypes = other.paramTypes
  ret : method.ret = other.ret
  modifiers : method.modifiers = other.modifiers

/-- Two classes have one name, one parent and members that are alike. -/
structure ClassDecl.Alike (decl other : ClassDecl) : Prop where
  name : decl.name = other.name
  parent : decl.parent = other.parent
  fields : List.Forall₂ FieldDecl.Alike decl.fields other.fields
  methods : List.Forall₂ MethodDecl.Alike decl.methods other.methods

/-- Two units have one package and declare classes that are alike. -/
structure SourceUnit.Alike (unit other : SourceUnit) : Prop where
  package : unit.package = other.package
  classes : List.Forall₂ ClassDecl.Alike unit.classes other.classes

end Source

/-- Two programs share the unit at a position and declare the same classes in the others. -/
structure Program.Share (units others : List SourceUnit) (index : Nat) (unit : SourceUnit) :
    Prop where
  alike : List.Forall₂ SourceUnit.Alike units others
  here : units[index]? = some unit
  there : others[index]? = some unit

/-! ### Related answers -/

theorem map_eq_of_rel {α β γ : Type} {related : α → β → Prop} {first : Option α}
    {second : Option β} (both : Option.Rel related first second) {change : α → γ} {change' : β → γ}
    (same : ∀ item other, related item other → change item = change' other) :
    first.map change = second.map change' := by
  cases both with
  | none => rfl
  | some here => exact congrArg some (same _ _ here)

/-! ### Entries -/

/-- Two entries of one unit with the same outline; those of the unit at the position are the
same. -/
structure ClassInfo.Corresponds (index : Nat) (info other : ClassInfo) : Prop where
  outline : info.outline = other.outline
  unit : info.unit = other.unit
  own : info.unit = some index → info = other

theorem ClassInfo.Corresponds.refl (index : Nat) (info : ClassInfo) : info.Corresponds index info :=
  ⟨rfl, rfl, fun _ => rfl⟩

theorem ClassInfo.Corresponds.name {index : Nat} {info other : ClassInfo}
    (both : info.Corresponds index other) : info.name = other.name :=
  congrArg (·.name) both.outline

namespace ClassTable

variable {index : Nat}

/-- Classes that are declared alike have entries with the same outline. -/
theorem outline_entry {decl other : ClassDecl} (alike : decl.Alike other) (index : Nat)
    (package : List Name) :
    (entry index package decl).outline = (entry index package other).outline := by
  have parent : decl.parentOrRoot = other.parentOrRoot := congrArg (Option.getD · _) alike.parent
  unfold entry ClassInfo.outline
  dsimp only
  rw [alike.name, parent, List.map_map, List.map_map, List.map_map, List.map_map]
  refine congr (congrArg (ClassInfo.mk _ _ _ _) ?_) ?_
  · refine map_eq_of_forall₂ alike.fields fun field other alike => ?_
    unfold FieldInfo.outline
    simp only [Function.comp_apply, alike.name, alike.type, alike.modifiers]
  · refine map_eq_of_forall₂ alike.methods fun method other alike => ?_
    unfold MethodInfo.outline MethodDecl.isConstructorOf
    simp only [Function.comp_apply, alike.name, alike.paramTypes, alike.ret, alike.modifiers]

/-- Units that are alike have entries that correspond. -/
theorem entries_of_alike {position : Nat} {unit other : SourceUnit} (alike : unit.Alike other)
    (own : position = index → unit = other) :
    List.Forall₂ (ClassInfo.Corresponds index)
      (unit.classes.map (entry position unit.package))
      (other.classes.map (entry position other.package)) := by
  by_cases here : position = index
  · rw [own here, List.forall₂_same]
    exact fun info _ => .refl index info
  · rw [List.forall₂_map_left_iff, List.forall₂_map_right_iff, alike.package]
    refine alike.classes.imp fun decl other declared => ⟨outline_entry declared _ _, rfl, ?_⟩
    exact fun placed => absurd (Option.some.inj placed) here

end ClassTable

/-- The methods of a declaration that are given names are settled by the names of its methods. -/
theorem Program.renamedIn_congr (entryPoint : Name) {place other : PlacedClass}
    (alike : place.decl.Alike other.decl) :
    renamedIn entryPoint place = renamedIn entryPoint other := by
  have through (place : PlacedClass) : renamedIn entryPoint place =
      ((place.decl.methods.map (·.name)).zipIdx.filter fun method =>
        !(method.1 == entryPoint || method.1 == place.decl.name)).map fun method =>
          (⟨place.decl.name, method.2⟩, method.1) := by
    unfold renamedIn
    rw [List.zipIdx_map, List.filter_map, List.map_map]
    rfl
  rw [through, through, alike.name,
    map_eq_of_forall₂ alike.methods fun method other alike => alike.name]

/-! ### Two programs that share a unit -/

namespace Program.Share

variable {units others : List SourceUnit} {index : Nat} {unit : SourceUnit}

/-- The units at one position are alike; at the shared one they are the same. -/
theorem zipIdx (share : Share units others index unit) :
    List.Forall₂ (fun place other => place.2 = other.2 ∧ place.1.Alike other.1 ∧
      (place.2 = index → place.1 = other.1)) units.zipIdx others.zipIdx := by
  obtain ⟨alike, here, there⟩ := share
  obtain ⟨length, each⟩ := List.forall₂_iff_get.mp alike
  refine List.forall₂_iff_get.mpr ⟨?_, fun position inside insideToo => ?_⟩
  · rw [List.length_zipIdx, List.length_zipIdx, length]
  · rw [List.length_zipIdx] at inside insideToo
    simp only [List.get_eq_getElem, List.getElem_zipIdx, Nat.zero_add, true_and]
    refine ⟨each position inside insideToo, ?_⟩
    rintro rfl
    rw [List.getElem?_eq_getElem inside, Option.some.injEq] at here
    rw [List.getElem?_eq_getElem insideToo, Option.some.injEq] at there
    rw [here, there]

/-- **The entries of the two programs correspond.** -/
theorem entries (share : Share units others index unit) :
    List.Forall₂ (ClassInfo.Corresponds index) (ClassTable.entries units)
      (ClassTable.entries others) := by
  refine List.rel_flatMap share.zipIdx fun place other both => ?_
  obtain ⟨position, declared, own⟩ := both
  dsimp only
  rw [← position]
  exact ClassTable.entries_of_alike declared own

/-- The first entries of a name correspond, those that are provided too. -/
theorem first (share : Share units others index unit) (name : Name) :
    Option.Rel (ClassInfo.Corresponds index)
      ((ClassTable.provided ++ ClassTable.entries units).find? (·.name == name))
      ((ClassTable.provided ++ ClassTable.entries others).find? (·.name == name)) := by
  have given : List.Forall₂ (ClassInfo.Corresponds index) ClassTable.provided
      ClassTable.provided := by
    rw [List.forall₂_same]
    exact fun info _ => .refl index info
  exact rel_find?_of_forall₂ (List.rel_append given share.entries) fun _ _ both =>
    congrArg (· == name) both.name

/-- **The tables of the two programs answer alike.** -/
theorem tables (share : Share units others index unit) :
    (ClassTable.ofUnits units).Alike (.ofUnits others) := by
  refine ClassTable.alike_ofUnits fun name => ?_
  have first := rel_find?_of_forall₂ share.entries fun _ _ both => congrArg (· == name) both.name
  exact map_eq_of_rel first fun _ _ both => both.outline

/-- Every unit owns the same classes. -/
theorem owns (share : Share units others index unit) (position : Nat) (name : Name) :
    (ClassTable.ofUnits units).owns position name =
      (ClassTable.ofUnits others).owns position name := by
  have through (units : List SourceUnit) : (ClassTable.ofUnits units).owns position name =
      (((ClassTable.provided ++ ClassTable.entries units).find? (·.name == name)).map
        (·.unit)).any (· == some position) := by
    unfold ClassTable.owns
    rw [ClassTable.class?_ofUnits, Option.any_map, Option.any_map]
    rfl
  rw [through, through, map_eq_of_rel (share.first name) fun _ _ both => both.unit]

/-- The shared unit brings the same initializers. -/
theorem declared (share : Share units others index unit) {name : Name}
    (owned : (ClassTable.ofUnits units).owns index name = true) :
    (RawInitializers.ofTable (.ofUnits units)).of name =
      (RawInitializers.ofTable (.ofUnits others)).of name := by
  obtain ⟨info, found, placed⟩ := ClassTable.owns_iff.mp owned
  have first := share.first name
  rw [ClassTable.class?_ofUnits, Option.map_eq_some_iff] at found
  obtain ⟨plain, found, rfl⟩ := found
  rw [RawInitializers.of_ofTable, RawInitializers.of_ofTable, ClassTable.class?_ofUnits,
    ClassTable.class?_ofUnits]
  rw [found] at first ⊢
  generalize (ClassTable.provided ++ ClassTable.entries others).find? (·.name == name) = second
    at first ⊢
  cases first with
  | some both =>
    rw [← both.own placed]
    rfl

/-- **The methods that are given names are the same.** -/
theorem renamed (share : Share units others index unit) (entryPoint : Name) :
    Program.renamed units entryPoint = Program.renamed others entryPoint := by
  have placed : List.Forall₂ (fun place other => place.decl.Alike other.decl)
      (Program.placed units) (Program.placed others) := by
    refine List.rel_flatMap share.zipIdx fun place other both => ?_
    obtain ⟨position, declared, _⟩ := both
    unfold placedIn
    rw [List.forall₂_map_left_iff, List.forall₂_map_right_iff, ← position]
    refine List.rel_filter (fun decl other both => ?_) declared.classes
    have named : decl.name = other.name := both.name
    show (ClassTable.ofUnits units).owns place.2 decl.name = true ↔
      (ClassTable.ofUnits others).owns place.2 other.name = true
    rw [named, share.owns]
  unfold Program.renamed
  rw [List.flatMap_def, List.flatMap_def,
    map_eq_of_forall₂ placed fun _ _ alike => renamedIn_congr entryPoint alike]

/-- **The two programs look the same to the unit that they share.** -/
theorem seenAlike (share : Share units others index unit) (options : LoweringOptions) :
    SeenAlike units others options index index unit where
  here := share.here
  there := share.there
  tables := share.tables
  names method := by
    rw [record_eq, record_eq, share.renamed]
  owns decl _ := share.owns index decl.name
  declared _ _ owned := share.declared owned

end Program.Share

/-! ### Runs -/

/-- The chains of a unit that was lowered were resolved. -/
theorem Program.resolves_of_lowerUnit {units : List SourceUnit} {index : Nat} {unit : SourceUnit}
    {facts : Facts} {options : LoweringOptions} {tree : Lowered.TreeUnit}
    (done : lowerUnit index unit (facadeAt units index unit) facts options = .ok tree) :
    Resolves units facts index unit := by
  intro decl declared owned
  have kept : decl ∈ unit.classes.filter ((ClassTable.ofUnits units).owns index ·.name) :=
    List.mem_filter.mpr ⟨declared, owned⟩
  obtain ⟨position, listed⟩ := List.getElem?_of_mem kept
  obtain ⟨layout, _, ran⟩ := getElem?_of_forall₂ (ok_of_lowerUnit done) listed
  obtain ⟨chain, resolved, _⟩ := (Lowering.lays_of_lowerClass ran).members
  exact Option.isSome_iff_exists.mpr ⟨chain, resolved⟩

/-- **Units are lowered separately.** Where two programs share a unit and declare the same classes
in the others, up to bodies and the values of fields, two runs that come to a result lower and print
the shared unit in the same way. -/
theorem units_lowered_separately {units others : List SourceUnit}
    (alike : List.Forall₂ SourceUnit.Alike units others) {index : Nat} {unit : SourceUnit}
    (here : units[index]? = some unit) (there : others[index]? = some unit)
    {names known : NameTable} {options : CompileOptions} {compiled found : Compiled}
    (done : (compileUnits names options units).2 = .ok compiled)
    (doneToo : (compileUnits known options others).2 = .ok found) :
    compiled.SameAt options found index index := by
  obtain ⟨facts, computed, each⟩ := ok_of_compileUnits done
  obtain ⟨factsToo, computedToo, eachToo⟩ := ok_of_compileUnits doneToo
  have first := each index unit here
  have second := eachToo index unit there
  have resolves {units : List SourceUnit} {facts : Facts} {compiled : Compiled}
      (has : compiled.HasAt options index
        (lowerUnit index unit (Program.facadeAt units index unit) facts options.lower)) :
      Program.Resolves units facts index unit := by
    obtain ⟨_, ran, _⟩ := has
    exact Program.resolves_of_lowerUnit ran
  have seen := Program.Share.seenAlike ⟨alike, here, there⟩ options.lower
  rw [← seen.lowerUnit_congr computed computedToo (resolves first) (resolves second)] at second
  exact first.same second

/-- A class whose field has a value. -/
def Source.SourceUnit.ticker : SourceUnit where
  path := "Ticker"
  package := []
  imports := []
  classes := [
    { name := "Ticker", parent := none, span := ⟨0, 1⟩
      fields := [
        { name := "count", type := .int, init := some (.int ⟨0, 1, 2⟩ 1), modifiers := {}
          span := ⟨2, 3⟩ }]
      methods := [
        { name := "next", params := [], ret := .int, modifiers := {}, span := ⟨6, 7⟩
          body := .block ⟨5, 6⟩ [.ret ⟨4, 5⟩ (some (.ident ⟨1, 3, 4⟩ "count"))] }] }]
  nodes := #[.int ⟨0, 1, 2⟩ 1, .ident ⟨1, 3, 4⟩ "count"]
  stmtCount := 2

/-- The same class, but that the field has no value and the method another body. -/
def Source.SourceUnit.blankTicker : SourceUnit where
  path := "Ticker"
  package := []
  imports := []
  classes := [
    { name := "Ticker", parent := none, span := ⟨0, 1⟩
      fields := [
        { name := "count", type := .int, init := none, modifiers := {}, span := ⟨1, 2⟩ }]
      methods := [
        { name := "next", params := [], ret := .int, modifiers := {}, span := ⟨5, 6⟩
          body := .block ⟨4, 5⟩ [.ret ⟨3, 4⟩ (some (.int ⟨0, 2, 3⟩ 7))] }] }]
  nodes := #[.int ⟨0, 2, 3⟩ 7]
  stmtCount := 2

/-- A class below it that overrides the method and calls the one above. -/
def Source.SourceUnit.stepper : SourceUnit where
  path := "Stepper"
  package := []
  imports := []
  classes := [
    { name := "Stepper", parent := some "Ticker", span := ⟨0, 1⟩
      fields := [
        { name := "step", type := .int, init := some (.ident ⟨0, 1, 2⟩ "count"), modifiers := {}
          span := ⟨2, 3⟩ }]
      methods := [
        { name := "next", params := [], ret := .int, modifiers := {}, span := ⟨7, 8⟩
          body := .block ⟨6, 7⟩ [
            .ret ⟨5, 6⟩ (some (.call ⟨2, 4, 5⟩ (some (.super ⟨1, 3, 4⟩)) "next" []))] }] }]
  nodes := #[.ident ⟨0, 1, 2⟩ "count", .super ⟨1, 3, 4⟩,
    .call ⟨2, 4, 5⟩ (some (.super ⟨1, 3, 4⟩)) "next" []]
  stmtCount := 2

/-- A class is lowered in the same way whatever the class above it does. -/
theorem units_lowered_separately_stepper :
    ∃ compiled found, (compileUnits .start {} [.ticker, .stepper]).2 = .ok compiled ∧
      (compileUnits .start {} [.blankTicker, .stepper]).2 = .ok found ∧
      ∃ files, compiled.emitted[1]? = some files ∧ found.emitted[1]? = some files := by
  obtain ⟨compiled, done⟩ := exists_of_isOk
    (show ((compileUnits .start {} [.ticker, .stepper]).2).isOk = true by decide +kernel)
  obtain ⟨found, doneToo⟩ := exists_of_isOk
    (show ((compileUnits .start {} [.blankTicker, .stepper]).2).isOk = true by decide +kernel)
  have tickers : SourceUnit.Alike .ticker .blankTicker :=
    ⟨rfl, .cons ⟨rfl, rfl, .cons ⟨rfl, rfl, rfl⟩ .nil, .cons ⟨rfl, rfl, rfl, rfl⟩ .nil⟩ .nil⟩
  have steppers : SourceUnit.Alike .stepper .stepper :=
    ⟨rfl, .cons ⟨rfl, rfl, .cons ⟨rfl, rfl, rfl⟩ .nil, .cons ⟨rfl, rfl, rfl, rfl⟩ .nil⟩ .nil⟩
  have alike : List.Forall₂ SourceUnit.Alike [.ticker, .stepper] [.blankTicker, .stepper] :=
    .cons tickers (.cons steppers .nil)
  have here : [SourceUnit.ticker, .stepper][1]? = some .stepper := rfl
  have same := units_lowered_separately alike here rfl done doneToo
  exact ⟨compiled, found, done, doneToo, same.2 rfl⟩

end ObjectLowering
