/-
**A unit that sees the same classes becomes the same.**

What a unit becomes is settled by what it sees of the program: the outlines of all classes, which of
its own declarations count, the initializers that these bring to the table and the names given to
methods. The positions of the unit and everything else may differ.

* `chainOf_seenFrom`: a chain, without the values of other classes, is built from declared fields
  without the values of other classes.
* `VtableSet.get?_congr`: classes have the same vtables.
* `Program.SeenAlike`: two programs look the same to a unit.
* `Program.SeenAlike.agreesAbout`: lowering a class of the unit reads the same in both.
* **`Program.SeenAlike.lowerUnit_congr`**: the unit becomes the same in both.
-/

import ObjectLowering.Proofs.Lowering.ClassLayouts
import ObjectLowering.Proofs.Lowering.Total
import ObjectLowering.Proofs.Units.SameLowering

namespace ObjectLowering

open Source (SourceUnit)
open Lowering

/-! ### Initializer chains -/

section Chains

variable {ν : Type} {className : Name}

theorem addInitializer_seenFrom (chain : List (Initializer ν)) (init : Initializer ν) :
    (addInitializer chain init).map (·.seenFrom className) =
      addInitializer (chain.map (·.seenFrom className)) (init.seenFrom className) := by
  unfold addInitializer
  induction chain with
  | nil => rfl
  | cons entry rest step =>
    have slots : (entry.seenFrom className).sameSlot (init.seenFrom className) =
        entry.sameSlot init := rfl
    rw [List.map_cons, redefine, redefine, slots, apply_ite (List.map _), List.map_cons,
      List.map_cons, step]

/-- **A chain hides the values that the declared fields of other classes hide.** -/
theorem chainOf_seenFrom {raw others : RawInitializers ν}
    (same : ∀ name, (raw.of name).map (·.seenFrom className) =
      (others.of name).map (·.seenFrom className)) (lineage : List Name) :
    (chainOf raw lineage).map (·.seenFrom className) =
      (chainOf others lineage).map (·.seenFrom className) := by
  have adds (inits chain : List (Initializer ν)) :
      (inits.foldl addInitializer chain).map (·.seenFrom className) =
        (inits.map (·.seenFrom className)).foldl addInitializer
          (chain.map (·.seenFrom className)) := by
    induction inits generalizing chain with
    | nil => rfl
    | cons init rest step =>
      rw [List.foldl_cons, step, List.map_cons, List.foldl_cons, addInitializer_seenFrom]
  have declared (raw : RawInitializers ν) :
      (lineage.reverse.flatMap fun name => (raw.of name).filter (!·.isStatic)).map
          (·.seenFrom className) =
        lineage.reverse.flatMap fun name =>
          ((raw.of name).map (·.seenFrom className)).filter (!·.isStatic) := by
    rw [List.map_flatMap]
    refine congrArg (List.flatMap · _) (funext fun name => ?_)
    rw [List.filter_map]
    rfl
  unfold chainOf
  rw [adds, adds, declared, declared]
  simp only [same]

/-- A class that is not seen from hides the values of its fields. -/
theorem of_seenFrom_other (table : ClassTable) {name : Name} (other : name ≠ className) :
    ((RawInitializers.ofTable table).of name).map (·.seenFrom className) =
      ((table.class? name).map fun info => info.fields.map fun field =>
        (⟨field.name, field.type, name, none, field.isStatic⟩ :
          Initializer Source.Expr)).getD [] := by
  rw [RawInitializers.of_ofTable]
  cases found : table.class? name with
  | none => rfl
  | some info =>
    have foreign : (info.name == className) = false :=
      beq_false_of_ne (ClassTable.name_of_class? found ▸ other)
    show (info.fields.map _).map _ = info.fields.map _
    rw [List.map_map]
    refine List.map_congr_left fun field _ => ?_
    rw [Function.comp_apply, Initializer.seenFrom, ClassTable.name_of_class? found]
    dsimp only
    rw [← ClassTable.name_of_class? found, foreign]
    rfl

/-- Tables that answer alike declare the same fields, as one class sees them. -/
theorem of_seenFrom {table other : ClassTable} (alike : table.Alike other)
    (own : (RawInitializers.ofTable table).of className =
      (RawInitializers.ofTable other).of className) (name : Name) :
    ((RawInitializers.ofTable table).of name).map (·.seenFrom className) =
      ((RawInitializers.ofTable other).of name).map (·.seenFrom className) := by
  by_cases same : name = className
  · rw [same, own]
  · rw [of_seenFrom_other table same, of_seenFrom_other other same]
    refine congrArg (Option.getD · []) (read_of_outline ClassInfo.outline (fun info => ?_)
      (alike.outline name))
    unfold ClassInfo.outline
    rw [List.map_map]
    rfl

/-- The chain and the static fields of a class that has an entry. -/
theorem InitializerChains.resolved_of_instance? {table : ClassTable} {names : NameTable}
    {chains : InitializerChains Source.Expr} (computed : ofTable names table = .ok chains)
    (inside : table.contains className = true) (known : (chains.instance? className).isSome) :
    ∃ lineage, Lineage.of table.parentMap className = .complete lineage ∧
      chains.instance? className = some (chainOf (.ofTable table) lineage) ∧
      chains.statics className =
        ((RawInitializers.ofTable table).of className).filter (·.isStatic) := by
  unfold instance? at known
  rw [Option.isSome_map] at known
  obtain ⟨entry, found⟩ := Option.isSome_iff_exists.mp known
  obtain ⟨lineage, isLineage, rfl⟩ := entry_of_class? computed found
  refine ⟨lineage, ClassTable.complete_of_isLineage isLineage inside, ?_, ?_⟩
  · unfold instance?
    rw [found]
    rfl
  · unfold statics
    rw [found]
    rfl

end Chains

/-! ### Vtables -/

namespace VtableSet

variable {table other : ClassTable} {record others : MangleRecord} {set sets : VtableSet}

/-- **Classes have the same vtables** in tables that answer alike. -/
theorem get?_congr (alike : table.Alike other) (named : record.Alike others)
    (computed : ofTable table record = .ok set) (computedToo : ofTable other others = .ok sets)
    (name : Name) : set.get? name = sets.get? name := by
  cases inside : table.contains name with
  | true =>
    obtain ⟨classes, lineage, found⟩ := get?_of_contains computed inside
    have insideToo : other.contains name = true := alike.contains name ▸ inside
    obtain ⟨classesToo, lineageToo, foundToo⟩ := get?_of_contains computedToo insideToo
    have complete := ClassTable.complete_of_isLineage lineage inside
    rw [alike.lineage, ClassTable.complete_of_isLineage lineageToo insideToo] at complete
    cases complete
    rw [found, foundToo, alike.along named]
  | false =>
    rw [get?_of_not_contains computed inside,
      get?_of_not_contains computedToo (alike.contains name ▸ inside)]

end VtableSet

/-! ### Tables of programs -/

namespace ClassTable

variable {units others : List SourceUnit}

/-- A class of a program is the first of its name, with its overriding methods marked. -/
theorem class?_ofUnits (units : List SourceUnit) (name : Name) :
    (ofUnits units).class? name =
      ((provided ++ entries units).find? (·.name == name)).map
        (·.withOverrides (unmarked units)) := by
  rw [← class?_unmarked]
  exact class?_markOverrides (unmarked units) name

/-- **Programs whose first declarations have the same outlines have tables that answer alike.** -/
theorem alike_ofUnits (same : ∀ name,
      ((entries units).find? (·.name == name)).map (·.outline) =
        ((entries others).find? (·.name == name)).map (·.outline)) :
    (ofUnits units).Alike (ofUnits others) := by
  have distinct (units : List SourceUnit) : (unmarked units).names.Nodup := by
    have marked := names_nodup_ofUnits units
    unfold ofUnits markOverrides names at marked
    rw [List.map_map] at marked
    exact marked
  have alike : (unmarked units).Alike (unmarked others) := by
    refine Alike.of_outline (distinct units) (distinct others) fun name => ?_
    rw [class?_unmarked, class?_unmarked, List.find?_append, List.find?_append, Option.map_or,
      Option.map_or, same]
  exact alike.markOverrides

end ClassTable

/-! ### Units -/

namespace Program

/-- Two programs, each with a unit at a position, look the same to this unit. -/
structure SeenAlike (units others : List SourceUnit) (options : LoweringOptions)
    (index position : Nat) (unit : SourceUnit) : Prop where
  here : units[index]? = some unit
  there : others[position]? = some unit
  tables : (ClassTable.ofUnits units).Alike (.ofUnits others)
  names : ((ofUnits units).mangle options .unchanged).record.Alike
    ((ofUnits others).mangle options .unchanged).record
  owns : ∀ decl ∈ unit.classes, (ClassTable.ofUnits units).owns index decl.name =
    (ClassTable.ofUnits others).owns position decl.name
  declared : ∀ decl ∈ unit.classes, (ClassTable.ofUnits units).owns index decl.name = true →
    (RawInitializers.ofTable (.ofUnits units)).of decl.name =
      (RawInitializers.ofTable (.ofUnits others)).of decl.name

variable {units others : List SourceUnit} {names known : NameTable} {options : LoweringOptions}
  {facts found : Facts} {index position : Nat} {unit : SourceUnit}

/-- Lowering the expressions of the unit reads the same. -/
theorem SeenAlike.agrees (seen : SeenAlike units others options index position unit)
    (computed : (ofUnits units).facts names options = .ok facts)
    (computedToo : (ofUnits others).facts known options = .ok found) :
    Agrees (contextAt units facts options index unit)
      (contextAt others found options position unit) := by
  have facades : (facadeAt units index unit).Alike (facadeAt others position unit) :=
    Facade.alike_ofUnit seen.tables seen.owns
  have records : facts.mangle.record.Alike found.mangle.record := by
    rw [mangle_of_facts computed, mangle_of_facts computedToo]
    exact seen.names
  have sites : facts.mangle.sites index = found.mangle.sites position := by
    rw [sites_of_facts computed seen.here, sites_of_facts computedToo seen.there]
    exact CallSites.ofUnit_congr facades records seen.owns
  exact ⟨facades, sites, records, VtableSet.get?_congr seen.tables records
    (vtables_of_facts computed) (vtables_of_facts computedToo), rfl⟩

/-- The chains of the classes that the unit owns were resolved. -/
def Resolves (units : List SourceUnit) (facts : Facts) (index : Nat) (unit : SourceUnit) : Prop :=
  ∀ decl ∈ unit.classes, (ClassTable.ofUnits units).owns index decl.name = true →
    (facts.chains.instance? decl.name).isSome

/-- **Lowering a class of the unit reads the same.** -/
theorem SeenAlike.agreesAbout (seen : SeenAlike units others options index position unit)
    (computed : (ofUnits units).facts names options = .ok facts)
    (computedToo : (ofUnits others).facts known options = .ok found)
    (resolved : Resolves units facts index unit) (resolvedToo : Resolves others found position unit)
    {decl : Source.ClassDecl} (declared : decl ∈ unit.classes)
    (owned : (ClassTable.ofUnits units).owns index decl.name = true) :
    AgreesAbout decl.name (contextAt units facts options index unit)
      (contextAt others found options position unit) := by
  obtain ⟨_, entry, _⟩ := ClassTable.owns_iff.mp owned
  have inside := ClassTable.contains_of_class? entry
  have ownedToo := seen.owns decl declared ▸ owned
  obtain ⟨lineage, complete, chain, statics⟩ := InitializerChains.resolved_of_instance?
    (chains_of_facts computed) inside (resolved decl declared owned)
  obtain ⟨lineageToo, completeToo, chainToo, staticsToo⟩ := InitializerChains.resolved_of_instance?
    (chains_of_facts computedToo) (seen.tables.contains decl.name ▸ inside)
    (resolvedToo decl declared ownedToo)
  rw [seen.tables.lineage, completeToo] at complete
  cases complete
  have own := seen.declared decl declared owned
  refine ⟨seen.agrees computed computedToo, ?_, ?_⟩
  · show (facts.chains.instance? decl.name).map _ = (found.chains.instance? decl.name).map _
    rw [chain, chainToo, Option.map_some, Option.map_some]
    exact congrArg some (chainOf_seenFrom (of_seenFrom seen.tables own) lineage)
  · show facts.chains.statics decl.name = found.chains.statics decl.name
    rw [statics, staticsToo, own]

/-- **A unit becomes the same** in two programs that look the same to it. -/
theorem SeenAlike.lowerUnit_congr (seen : SeenAlike units others options index position unit)
    (computed : (ofUnits units).facts names options = .ok facts)
    (computedToo : (ofUnits others).facts known options = .ok found)
    (resolved : Resolves units facts index unit)
    (resolvedToo : Resolves others found position unit) :
    lowerUnit index unit (facadeAt units index unit) facts options =
      lowerUnit position unit (facadeAt others position unit) found options := by
  have classes (decl : Source.ClassDecl) (kept : decl ∈ unit.classes.filter
      ((ClassTable.ofUnits units).owns index ·.name)) :
      lowerClass (contextAt units facts options index unit) decl =
        lowerClass (contextAt others found options position unit) decl := by
    obtain ⟨declared, owned⟩ := List.mem_filter.mp kept
    exact lowerClass_congr
      (seen.agreesAbout computed computedToo resolved resolvedToo declared owned)
  have owned : unit.classes.filter ((ClassTable.ofUnits units).owns index ·.name) =
      unit.classes.filter ((ClassTable.ofUnits others).owns position ·.name) :=
    List.filter_congr seen.owns
  show ((unit.classes.filter ((ClassTable.ofUnits units).owns index ·.name)).mapM
      (lowerClass (contextAt units facts options index unit))) >>= _ =
    ((unit.classes.filter ((ClassTable.ofUnits others).owns position ·.name)).mapM
      (lowerClass (contextAt others found options position unit))) >>= _
  rw [← owned, mapM_congr classes]

end Program

end ObjectLowering
