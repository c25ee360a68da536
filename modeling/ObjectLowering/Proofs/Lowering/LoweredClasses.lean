/-
**A class is lowered where its declaration counts.**

Lowering a unit keeps those of its declarations whose entry in the table belongs to the unit. Two
declarations of one name in one unit share an entry, so both are kept.

* `Program.placed` are the declarations that are lowered, `Program.contextAt` is what lowering them
  reads.
* `Program.ok_of_lower`: a program that was lowered has the layouts of these declarations, in order.
* `Lowering.lays_of_lowerClass`: what a class that was lowered is made of.
* `ClassTable.entries_placed`: the declarations that are lowered are read off their entries.
* `ClassTable.names_userClasses_sublist`, `ClassTable.nodup_placed_iff`: each class of the table is
  among them, and a name repeats only within a unit.
* **`layouts_eq_userClasses_iff`**: the layouts are those of the table's classes exactly if no unit
  declares a class of its own twice.
-/

import ObjectLowering.Proofs.Hierarchy.Table
import ObjectLowering.Proofs.Lowering.Success
import ObjectLowering.Proofs.Resolution.Stages

namespace ObjectLowering

open Source (SourceUnit ClassDecl)
open Lowering (Context lowerClass lowerClasses)

/-- A declaration of a class, with its unit and the unit's position. -/
structure PlacedClass where
  index : Nat
  unit : SourceUnit
  decl : ClassDecl

/-- What a declaration brings to the table. -/
def PlacedClass.entry (place : PlacedClass) : ClassInfo :=
  ClassTable.entry place.index place.unit.package place.decl

namespace Program

variable {units : List SourceUnit}

/-- The declarations of the unit at a position that count there. -/
def placedIn (units : List SourceUnit) (place : SourceUnit × Nat) : List PlacedClass :=
  (place.1.classes.filter ((ClassTable.ofUnits units).owns place.2 ·.name)).map
    (⟨place.2, place.1, ·⟩)

/-- The declarations that are lowered, in order. -/
def placed (units : List SourceUnit) : List PlacedClass := units.zipIdx.flatMap (placedIn units)

/-- The true facade of the unit at a position. -/
def facadeAt (units : List SourceUnit) (index : Nat) (unit : SourceUnit) : Facade :=
  .ofUnit (.ofUnits units) (.ofUnit (.ofUnits units) index unit)

/-- What lowering the unit at a position reads. -/
def contextAt (units : List SourceUnit) (facts : Facts) (options : LoweringOptions) (index : Nat)
    (unit : SourceUnit) : Context :=
  ⟨facadeAt units index unit, facts.mangle.sites index, facts, options⟩

theorem mem_placed {place : PlacedClass} :
    place ∈ placed units ↔ units[place.index]? = some place.unit ∧
      place.decl ∈ place.unit.classes ∧
      (ClassTable.ofUnits units).owns place.index place.decl.name = true := by
  unfold placed placedIn
  rw [List.mem_flatMap]
  constructor
  · rintro ⟨⟨unit, index⟩, here, inside⟩
    obtain ⟨decl, kept, rfl⟩ := List.mem_map.mp inside
    exact ⟨List.mem_zipIdx_iff_getElem?.mp here, List.mem_filter.mp kept⟩
  · rintro ⟨here, kept⟩
    exact ⟨(place.unit, place.index), List.mem_zipIdx_iff_getElem?.mpr here,
      List.mem_map.mpr ⟨place.decl, List.mem_filter.mpr kept, rfl⟩⟩

/-- Each unit is read with its own facade. -/
theorem zipIdx_parts (units : List SourceUnit) :
    ((ofUnits units).parts .unchanged).zipIdx =
      units.zipIdx.map fun place => ((place.1, facadeAt units place.2 place.1), place.2) := by
  refine List.ext_getElem? fun index => ?_
  rw [List.getElem?_zipIdx, List.getElem?_map, List.getElem?_zipIdx, Nat.zero_add]
  cases here : units[index]? with
  | some unit =>
    rw [parts_ofUnits here]
    rfl
  | none =>
    have outside := List.getElem?_eq_none_iff.mp here
    have absent : ((ofUnits units).parts .unchanged)[index]? = none := by
      refine List.getElem?_eq_none_iff.mpr ?_
      unfold parts
      rw [List.length_zip]
      exact Nat.le_trans (Nat.min_le_left _ _) outside
    rw [absent]
    rfl

end Program

/-! ### What was lowered -/

section Success

variable {facts : Facts} {options : LoweringOptions}

theorem ok_of_lowerUnits {parts : List (SourceUnit × Facade)} {start : Nat}
    {lowered : List Lowered.TreeUnit} (done : lowerUnits facts options start parts = .ok lowered) :
    List.Forall₂ (fun part result => lowerUnit part.2 part.1.1 part.1.2 facts options = .ok result)
      (parts.zipIdx start) lowered := by
  induction parts generalizing start lowered with
  | nil =>
    cases done
    exact .nil
  | cons part rest step =>
    obtain ⟨first, here, done⟩ := ok_of_bind done
    obtain ⟨others, there, done⟩ := ok_of_bind done
    cases done
    refine .cons ?_ (step there)
    dsimp only
    cases lowered : lowerUnit start part.1 part.2 facts options with
    | error _ =>
      rw [lowered] at here
      cases here
    | ok result =>
      rw [lowered] at here
      cases here
      rfl

theorem ok_of_lowerUnit {index : Nat} {unit : SourceUnit} {facade : Facade}
    {result : Lowered.TreeUnit} (done : lowerUnit index unit facade facts options = .ok result) :
    List.Forall₂
      (fun decl layout =>
        lowerClass ⟨facade, facts.mangle.sites index, facts, options⟩ decl = .ok layout)
      (unit.classes.filter (facade.owns index ·.name)) result.classes := by
  obtain ⟨classes, each, built⟩ := ok_of_bind done
  cases built
  exact ok_of_mapM each

/-- **A program that was lowered has the layouts of the declarations that count**, in order. -/
theorem Program.ok_of_lower {units : List SourceUnit} {lowered : List Lowered.TreeUnit}
    (done : (ofUnits units).lower facts options = .ok lowered) :
    List.Forall₂
      (fun (place : PlacedClass) layout =>
        lowerClass (contextAt units facts options place.index place.unit) place.decl = .ok layout)
      (placed units) (lowered.flatMap (·.classes)) := by
  have each := ok_of_lowerUnits done
  rw [zipIdx_parts, List.forall₂_map_left_iff] at each
  refine List.rel_flatMap each fun place unit built => ?_
  exact List.forall₂_map_left_iff.mpr (ok_of_lowerUnit built)

end Success

/-! ### One class -/

namespace Lowering

/-- The sources of the construction routines of a class: its constructors with their positions, or
none where the routine is made without one. -/
def constructions (decl : ClassDecl) : List (Option (Source.MethodDecl × Nat)) :=
  let declared := decl.methods.zipIdx.filter (·.1.isConstructorOf decl.name)
  if declared.isEmpty then [none] else declared.map some

theorem mem_constructions {decl : ClassDecl} {source : Option (Source.MethodDecl × Nat)} :
    source ∈ constructions decl ↔
    (source = none ∧ decl.hasConstructor = false) ∨
      ∃ method, source = some method ∧ method ∈ decl.methods.zipIdx ∧
        method.1.isConstructorOf decl.name = true := by
  have empty : (decl.methods.zipIdx.filter (·.1.isConstructorOf decl.name)).isEmpty = true ↔
      decl.hasConstructor = false := by
    unfold Source.ClassDecl.hasConstructor
    rw [List.isEmpty_iff, List.filter_eq_nil_iff, List.any_eq_false]
    refine ⟨fun none method inside => ?_, fun none method inside => ?_⟩
    · obtain ⟨index, there⟩ := List.getElem?_of_mem inside
      exact none (method, index) (List.mem_zipIdx_iff_getElem?.mpr there)
    · exact none method.1 (List.fst_mem_of_mem_zipIdx inside)
  unfold constructions
  dsimp only
  split
  · rename_i undeclared
    rw [List.mem_singleton]
    refine ⟨fun same => .inl ⟨same, empty.mp undeclared⟩, ?_⟩
    rintro (⟨same, _⟩ | ⟨method, rfl, inside, isConstructor⟩)
    · exact same
    · exact absurd isConstructor
        (List.filter_eq_nil_iff.mp (List.isEmpty_iff.mp undeclared) method inside)
  · rename_i declared
    rw [List.mem_map]
    constructor
    · rintro ⟨method, inside, rfl⟩
      obtain ⟨inside, isConstructor⟩ := List.mem_filter.mp inside
      exact .inr ⟨method, rfl, inside, isConstructor⟩
    · rintro (⟨_, undeclared⟩ | ⟨method, rfl, inside, isConstructor⟩)
      · exact absurd (empty.mpr undeclared) declared
      · exact ⟨method, List.mem_filter.mpr ⟨inside, isConstructor⟩, rfl⟩

/-- Lowers a construction routine from its source. -/
def lowerConstruction (context : Context) (decl : ClassDecl) :
    Option (Source.MethodDecl × Nat) → LowerM (Lowered.Method Lowered.Stmt)
  | none => synthesizedInit context decl
  | some (method, index) => lowerConstructor context decl.name index method

variable {context : Context} {decl : ClassDecl}

/-- The parts of a lowered class, each with what it was made from. -/
structure Lays (context : Context) (decl : ClassDecl)
    (layout : Lowered.ClassLayout Lowered.Expr Lowered.Stmt) : Prop where
  named : layout.name = decl.name
  members : ∃ chain, context.facts.chains.instance? decl.name = some chain ∧
    layout.data = dataMembers chain ∧ layout.ctor = ctorMembers decl.span chain
  statics : inRoutine (runEach ((context.facts.chains.statics decl.name).map
    (lowerStatic context decl.name decl.span))) = .ok layout.statics
  vtable : ∃ vtable, context.facts.vtables.get? decl.name = some vtable ∧
    layout.slots = vtable.slots ∧ layout.bindings = vtable.bindings
  inits : List.Forall₂ (fun source routine =>
    inRoutine (lowerConstruction context decl source) = .ok routine) (constructions decl)
      layout.inits
  methods : List.Forall₂ (fun method routine =>
    inRoutine (lowerMethod context decl.name method.2 method.1) = .ok routine)
      (decl.methods.zipIdx.filter (!·.1.isConstructorOf decl.name)) layout.methods

theorem ok_of_lowerMember {owner : Name} {method : Source.MethodDecl × Nat}
    {result : Bool × Lowered.Method Lowered.Stmt}
    (done : lowerMember context owner method = .ok result) :
    result.1 = method.1.isConstructorOf owner ∧
      inRoutine (if method.1.isConstructorOf owner then
        lowerConstructor context owner method.2 method.1
      else lowerMethod context owner method.2 method.1) = .ok result.2 := by
  obtain ⟨routine, here, done⟩ := ok_of_bind done
  cases done
  exact ⟨rfl, here⟩

/-- The routines of a class, taken apart into those that construct and the others. -/
theorem members_of_mapM {members : List (Bool × Lowered.Method Lowered.Stmt)}
    (each : decl.methods.zipIdx.mapM (lowerMember context decl.name) = .ok members) :
    List.Forall₂ (fun method routine =>
        inRoutine (lowerConstructor context decl.name method.2 method.1) = .ok routine)
      (decl.methods.zipIdx.filter (·.1.isConstructorOf decl.name))
      ((members.filter (·.1)).map (·.2)) ∧
    List.Forall₂ (fun method routine =>
        inRoutine (lowerMethod context decl.name method.2 method.1) = .ok routine)
      (decl.methods.zipIdx.filter (!·.1.isConstructorOf decl.name))
      ((members.filter (!·.1)).map (·.2)) := by
  have ran := (ok_of_mapM each).imp fun _ _ => ok_of_lowerMember
  clear each
  generalize decl.methods.zipIdx = methods at ran ⊢
  induction ran with
  | nil => exact ⟨.nil, .nil⟩
  | @cons method result _ _ here _ step =>
    obtain ⟨kind, here⟩ := here
    rw [List.filter_cons, List.filter_cons, List.filter_cons, List.filter_cons, kind]
    cases isConstructor : method.1.isConstructorOf decl.name with
    | true =>
      rw [isConstructor, if_pos rfl] at here
      exact ⟨.cons here step.1, step.2⟩
    | false =>
      rw [isConstructor, if_neg Bool.false_ne_true] at here
      exact ⟨step.1, .cons here step.2⟩

/-- A method is lowered with a receiver unless it is static. -/
theorem modeOf_eq_instanceMethod {method : Source.MethodDecl} :
    modeOf context method = .instanceMethod ↔ method.modifiers.isStatic = false := by
  unfold modeOf
  cases method.modifiers.isStatic with
  | false => exact iff_of_true rfl rfl
  | true =>
    refine iff_of_false (fun same => ?_) Bool.noConfusion
    rw [if_neg (by decide)] at same
    split at same <;> cases same

/-- **What a class that was lowered is made of.** -/
theorem lays_of_lowerClass {layout : Lowered.ClassLayout Lowered.Expr Lowered.Stmt}
    (done : lowerClass context decl = .ok layout) : Lays context decl layout := by
  unfold lowerClass at done
  dsimp only at done
  cases chained : context.facts.chains.instance? decl.name with
  | none =>
    rw [chained] at done
    cases done
  | some chain =>
  rw [chained] at done
  obtain ⟨statics, stored, done⟩ := ok_of_bind done
  cases built : context.facts.vtables.get? decl.name with
  | none =>
    rw [built] at done
    cases done
  | some vtable =>
  rw [built] at done
  obtain ⟨members, each, done⟩ := ok_of_bind done
  obtain ⟨constructors, methods⟩ := members_of_mapM each
  have none : ((members.filter (·.1)).map (·.2)).isEmpty =
      (decl.methods.zipIdx.filter (·.1.isConstructorOf decl.name)).isEmpty := by
    rw [Bool.eq_iff_iff, List.isEmpty_iff_length_eq_zero, List.isEmpty_iff_length_eq_zero,
      constructors.length_eq]
  rw [none] at done
  split at done
  · rename_i undeclared
    obtain ⟨inits, made, done⟩ := ok_of_bind done
    obtain ⟨routine, ran, rfl⟩ := ok_of_map made
    cases done
    refine ⟨rfl, ⟨chain, chained, rfl, rfl⟩, stored, ⟨vtable, built, rfl, rfl⟩, ?_, methods⟩
    unfold constructions
    rw [if_pos undeclared]
    exact .cons ran .nil
  · rename_i declared
    cases done
    refine ⟨rfl, ⟨chain, chained, rfl, rfl⟩, stored, ⟨vtable, built, rfl, rfl⟩, ?_, methods⟩
    unfold constructions
    rw [if_neg declared]
    exact List.forall₂_map_left_iff.mpr constructors

end Lowering

/-! ### The classes of the table -/

namespace ClassTable

variable {units : List SourceUnit}

/-- The declarations that count, as entries. -/
theorem entries_placed (units : List SourceUnit) :
    (Program.placed units).map PlacedClass.entry =
      (entries units).filter fun info => info.unit.any ((ofUnits units).owns · info.name) := by
  unfold Program.placed entries
  rw [List.filter_flatMap, List.map_flatMap]
  refine congrArg (fun step => List.flatMap step _) (funext fun place => ?_)
  unfold Program.placedIn
  rw [List.filter_map, List.map_map]
  rfl

/-- The names of the declarations that count, read off their entries. -/
theorem names_placed (units : List SourceUnit) :
    (Program.placed units).map (·.decl.name) =
      ((entries units).filter fun info => info.unit.any ((ofUnits units).owns · info.name)).map
        (·.name) := by
  rw [← entries_placed, List.map_map]
  rfl

/-- Every class of source has its first declaration among those that count, in order. -/
theorem names_userClasses_sublist (units : List SourceUnit) :
    ((ofUnits units).userClasses.map (·.name)).Sublist
      ((Program.placed units).map (·.decl.name)) := by
  have counts : (counted units).filter
      (fun info => info.unit.any ((ofUnits units).owns · info.name)) = counted units := by
    refine List.filter_eq_self.mpr fun info member => ?_
    obtain ⟨index, unit, _, decl, _, rfl⟩ := declared_of_mem_counted member
    exact owns_of_mem_counted member rfl
  rw [names_placed, userClasses_ofUnits, List.map_map]
  have part := (firsts_sublist (names ⟨provided⟩) (entries units)).filter
    fun info => info.unit.any ((ofUnits units).owns · info.name)
  have kept := part.map (·.name)
  rw [show firsts _ _ = counted units from rfl, counts] at kept
  exact kept

theorem nodup_userClasses (units : List SourceUnit) :
    ((ofUnits units).userClasses.map (·.name)).Nodup :=
  (names_nodup_ofUnits units).sublist (List.filter_sublist.map _)

/-- What counts in some unit is a class of source. -/
theorem mem_userClasses_of_placed {place : PlacedClass} (member : place ∈ Program.placed units) :
    place.decl.name ∈ (ofUnits units).userClasses.map (·.name) := by
  obtain ⟨_, _, owned⟩ := Program.mem_placed.mp member
  obtain ⟨info, found, here⟩ := owns_iff.mp owned
  rw [← name_of_class? found]
  refine List.mem_map_of_mem (List.mem_filter.mpr ⟨List.mem_of_find?_eq_some found, ?_⟩)
  unfold ClassInfo.isProvided
  rw [here]
  rfl

/-- A class of source is found under its name. -/
theorem class?_of_user {name : Name} (user : name ∈ (ofUnits units).userClasses.map (·.name)) :
    ∃ info, (ofUnits units).class? name = some info ∧ info.isProvided = false := by
  obtain ⟨info, listed, rfl⟩ := List.mem_map.mp user
  obtain ⟨member, unprovided⟩ := List.mem_filter.mp listed
  exact ⟨info, class?_of_mem (names_nodup_ofUnits units) member,
    (Bool.not_eq_true' _).mp unprovided⟩

/-- Two units own no class together. -/
theorem unit_of_owns {name : Name} {first second : Nat}
    (here : (ofUnits units).owns first name = true)
    (there : (ofUnits units).owns second name = true) : first = second := by
  obtain ⟨info, found, unit⟩ := owns_iff.mp here
  obtain ⟨other, foundOther, unitOther⟩ := owns_iff.mp there
  cases found.symm.trans foundOther
  exact Option.some.inj (unit.symm.trans unitOther)

/-- Names repeat among the declarations that count only within one unit. -/
theorem nodup_placed_iff (units : List SourceUnit) :
    ((Program.placed units).map (·.decl.name)).Nodup ↔
      ∀ index unit, units[index]? = some unit →
        ((Program.placedIn units (unit, index)).map (·.decl.name)).Nodup := by
  unfold Program.placed
  rw [List.map_flatMap, List.nodup_flatMap]
  have apart : units.zipIdx.Pairwise
      (Function.onFun List.Disjoint fun place => (Program.placedIn units place).map
        (·.decl.name)) := by
    have indices : (units.zipIdx.map (·.2)).Nodup := by
      rw [List.zipIdx_map_snd]
      exact List.nodup_range'
    refine (List.pairwise_map.mp indices).imp ?_
    intro first second other name here there
    obtain ⟨_, inside, rfl⟩ := List.mem_map.mp here
    obtain ⟨_, insideOther, same⟩ := List.mem_map.mp there
    obtain ⟨_, kept, rfl⟩ := List.mem_map.mp inside
    obtain ⟨_, keptOther, rfl⟩ := List.mem_map.mp insideOther
    have owned := (List.mem_filter.mp kept).2
    have ownedOther := (List.mem_filter.mp keptOther).2
    dsimp only at same
    rw [same] at ownedOther
    exact other (unit_of_owns owned ownedOther)
  refine ⟨fun both index unit here => ?_, fun each => ⟨fun place member => ?_, apart⟩⟩
  · exact both.1 (unit, index) (List.mem_zipIdx_iff_getElem?.mpr here)
  · exact each place.2 place.1 (List.mem_zipIdx_iff_getElem?.mp member)

end ClassTable

/-- The layouts have the names of the declarations that count. -/
theorem Program.names_layouts {units : List SourceUnit} {facts : Facts} {options : LoweringOptions}
    {lowered : List Lowered.TreeUnit} (done : (ofUnits units).lower facts options = .ok lowered) :
    (lowered.flatMap (·.classes)).map (·.name) = (placed units).map (·.decl.name) := by
  have each := (ok_of_lower done).imp fun _ _ ran => (Lowering.lays_of_lowerClass ran).named
  generalize lowered.flatMap (·.classes) = layouts at each ⊢
  generalize placed units = places at each ⊢
  induction each with
  | nil => rfl
  | cons here _ step => rw [List.map_cons, List.map_cons, here, step]

/-- **Every class of the program is lowered once, in order, exactly if no unit declares a class of
its own twice.** What is lowered are the declarations that count in their units. -/
theorem layouts_eq_userClasses_iff {units : List SourceUnit} {facts : Facts}
    {options : LoweringOptions} {lowered : List Lowered.TreeUnit}
    (done : (Program.ofUnits units).lower facts options = .ok lowered) :
    (lowered.flatMap (·.classes)).map (·.name) = (Program.placed units).map (·.decl.name) ∧
    ((lowered.flatMap (·.classes)).map (·.name) =
        (ClassTable.ofUnits units).userClasses.map (·.name) ↔
      ∀ (index : Nat) (unit : SourceUnit), units[index]? = some unit →
        ((unit.classes.filter ((ClassTable.ofUnits units).owns index ·.name)).map
          (·.name)).Nodup) := by
  refine ⟨Program.names_layouts done, ?_⟩
  have condition := ClassTable.nodup_placed_iff units
  unfold Program.placedIn at condition
  simp only [List.map_map] at condition
  rw [Program.names_layouts done]
  refine Iff.trans ⟨fun same => ?_, fun distinct => ?_⟩ condition
  · rw [same]
    exact ClassTable.nodup_userClasses units
  · refine ((ClassTable.names_userClasses_sublist units).eq_of_length_le ?_).symm
    refine (List.subperm_of_subset distinct fun name member => ?_).length_le
    obtain ⟨place, placed, rfl⟩ := List.mem_map.mp member
    exact ClassTable.mem_userClasses_of_placed placed

/-- A program whose facts can be computed and whose units can be lowered. -/
theorem Program.exists_lowered (units : List SourceUnit) (names : NameTable)
    (options : LoweringOptions)
    (succeeds : (((ofUnits units).facts names options).toOption.any fun facts =>
      ((ofUnits units).lower facts options).isOk) = true) :
    ∃ facts lowered, (ofUnits units).facts names options = .ok facts ∧
      (ofUnits units).lower facts options = .ok lowered := by
  obtain ⟨facts, computed, succeeds⟩ := exists_of_any_toOption succeeds
  obtain ⟨lowered, done⟩ := exists_of_isOk succeeds
  exact ⟨facts, lowered, computed, done⟩

/-- Two classes that are declared once are lowered once. -/
theorem layouts_eq_userClasses_shapes :
    ∃ facts lowered,
      (Program.ofUnits [.shapes]).facts ⟨["Shape", "Square"]⟩ {} = .ok facts ∧
      (Program.ofUnits [.shapes]).lower facts {} = .ok lowered ∧
      (lowered.flatMap (·.classes)).map (·.name) =
        (ClassTable.ofUnits [.shapes]).userClasses.map (·.name) := by
  obtain ⟨facts, lowered, computed, done⟩ := Program.exists_lowered [.shapes]
    ⟨["Shape", "Square"]⟩ {} (by decide +kernel)
  refine ⟨facts, lowered, computed, done, (layouts_eq_userClasses_iff done).2.mpr ?_⟩
  intro index unit here
  cases index with
  | zero =>
    cases here
    decide +kernel
  | succ _ => cases here

/-- A unit that declares one class twice. -/
def Source.SourceUnit.twice : SourceUnit where
  path := "A"
  package := []
  imports := []
  classes := [
    { name := "A", parent := none, fields := [], methods := [], span := ⟨0, 1⟩ },
    { name := "A", parent := none, fields := [], methods := [], span := ⟨1, 2⟩ }]
  nodes := #[]
  stmtCount := 0

/-- A class that its unit declares twice is lowered twice. -/
theorem layouts_repeat_twice :
    ∃ facts lowered, (Program.ofUnits [.twice]).facts ⟨["A"]⟩ {} = .ok facts ∧
      (Program.ofUnits [.twice]).lower facts {} = .ok lowered ∧
      (lowered.flatMap (·.classes)).map (·.name) = ["A", "A"] ∧
      (ClassTable.ofUnits [.twice]).userClasses.map (·.name) = ["A"] := by
  obtain ⟨facts, lowered, computed, done⟩ := Program.exists_lowered [.twice]
    ⟨["A"]⟩ {} (by decide +kernel)
  refine ⟨facts, lowered, computed, done, ?_, by decide +kernel⟩
  rw [Program.names_layouts done]
  decide +kernel

end ObjectLowering
