/-
**What the call of a parent's construction routine finds.**

A construction routine that hands the receiver on nowhere starts with a call of its parent's routine
that passes nothing but the receiver. The call is made without a look at the parent, which has one
routine for each of its constructors, or one that was made without a source. So it finds a routine
exactly if the parent declares no constructor, or one without parameters.

* `Lowering.params_of_lowerConstruction`: a construction routine takes the receiver, then the
  parameters of its constructor.
* `Lowering.starts_of_lowerConstruction`: a routine that hands the receiver on nowhere starts with
  the call.
* `Lowering.exists_bare_iff`: when a class has a routine that takes the receiver alone.
* **`parent_calls_reach_iff`**: what the call finds, for every class and parent of a program.
-/

import ObjectLowering.Proofs.Construction.InitRuns

namespace ObjectLowering

open Source (SourceUnit ClassDecl MethodDecl Param)

namespace Lowering

variable {context : Context} {decl : ClassDecl} {source : Option (MethodDecl × Nat)}
  {routine : Lowered.Method Lowered.Stmt}

/-! ### One routine -/

theorem ensures_params : Ensures (lowerConstruction context decl source) fun result =>
    result.params = receiverParam context decl.name :: givenParams source := by
  rw [lowerConstruction_eq]
  exact .after fun _ => .after fun _ => .pure rfl

/-- **A construction routine takes the receiver**, then the parameters of its constructor. -/
theorem params_of_lowerConstruction
    (done : inRoutine (lowerConstruction context decl source) = .ok routine) :
    routine.params = receiverParam context decl.name :: givenParams source :=
  ensures_params.of_inRoutine done

/-- **A routine that hands the receiver on nowhere starts with that of the parent**, to which it
passes nothing else. -/
theorem starts_of_lowerConstruction
    (done : inRoutine (lowerConstruction context decl source) = .ok routine)
    (kept : (routineOf decl source).chained = false) :
    ∃ rest, routine.body = .block (.eval (.initCall (spanOf decl source)
      (parentOf context decl.name) [selfExpr context (spanOf decl source)]) :: rest) := by
  obtain ⟨_, start, user, final, begins, continues⟩ :=
    ensures_lowerConstruction.of_inRoutine done
  cases begins with
  | chained handedOn => exact absurd handedOn (Bool.eq_false_iff.mp kept)
  | @prologue _ _ assigns _ _ =>
    rw [className_routineOf] at continues
    exact ⟨assigns ++ user ++ final, continues.shape⟩

/-! ### The routines of a class -/

/-- **A class has a routine that takes the receiver alone** exactly if it declares no constructor,
or one without parameters. -/
theorem exists_bare_iff {inits : List (Lowered.Method Lowered.Stmt)}
    (made : List.Forall₂ (fun source routine =>
      inRoutine (lowerConstruction context decl source) = .ok routine) (constructions decl) inits) :
    (∃ routine ∈ inits, routine.params = [receiverParam context decl.name]) ↔
      decl.hasConstructor = false ∨
        ∃ method ∈ decl.methods, method.isConstructorOf decl.name = true ∧ method.params = [] := by
  constructor
  · rintro ⟨routine, member, bare⟩
    obtain ⟨source, inside, done⟩ := exists_of_mem_right made member
    rw [params_of_lowerConstruction done] at bare
    rcases mem_constructions.mp inside with ⟨_, undeclared⟩ | ⟨method, rfl, listed, isConstructor⟩
    · exact .inl undeclared
    · have declared := List.fst_mem_of_mem_zipIdx listed
      exact .inr ⟨method.1, declared, isConstructor, (List.cons.inj bare).2⟩
  · intro either
    have found : ∃ source ∈ constructions decl, givenParams source = [] := by
      rcases either with undeclared | ⟨method, declared, isConstructor, bare⟩
      · exact ⟨none, mem_constructions.mpr (.inl ⟨rfl, undeclared⟩), rfl⟩
      · obtain ⟨index, there⟩ := List.getElem?_of_mem declared
        exact ⟨some (method, index), mem_constructions.mpr (.inr ⟨_, rfl,
          List.mem_zipIdx_iff_getElem?.mpr there, isConstructor⟩), bare⟩
    obtain ⟨source, inside, bare⟩ := found
    obtain ⟨routine, member, done⟩ := exists_of_mem_right made.flip inside
    exact ⟨routine, member, by rw [params_of_lowerConstruction done, bare]⟩

end Lowering

open Lowering

/-- **The call of the parent's routine finds one exactly if the parent declares no constructor, or
one without parameters.** Every routine that hands the receiver on nowhere starts with the call, and
a parent that is a class of source is lowered. -/
theorem parent_calls_reach_iff {units : List SourceUnit} {facts : Facts}
    {options : LoweringOptions} {lowered : List Lowered.TreeUnit}
    (done : (Program.ofUnits units).lower facts options = .ok lowered)
    {place : PlacedClass} {layout : Lowered.ClassLayout Lowered.Expr Lowered.Stmt}
    (pair : (place, layout) ∈ (Program.placed units).zip (lowered.flatMap (·.classes))) :
    ∃ parent, parent = ((ClassTable.ofUnits units).supertype? layout.name).getD Reserved.object ∧
      List.Forall₂ (fun source routine => (routineOf place.decl source).chained = false →
          ∃ rest, routine.body = .block (.eval (.initCall (spanOf place.decl source) parent
            [.localVar (spanOf place.decl source) options.selfParam]) :: rest))
        (constructions place.decl) layout.inits ∧
      (parent ∈ (ClassTable.ofUnits units).userClasses.map (·.name) →
        ∃ target ∈ lowered.flatMap (·.classes), target.name = parent) ∧
      ∀ above target, (above, target) ∈ (Program.placed units).zip (lowered.flatMap (·.classes)) →
        target.name = parent →
        ((∃ routine ∈ target.inits, routine.params = [⟨.class parent, options.selfParam⟩]) ↔
          above.decl.hasConstructor = false ∨
            ∃ method ∈ above.decl.methods,
              method.isConstructorOf parent = true ∧ method.params = []) := by
  have each {place : PlacedClass} {layout : Lowered.ClassLayout Lowered.Expr Lowered.Stmt}
      (pair : (place, layout) ∈ (Program.placed units).zip (lowered.flatMap (·.classes))) :=
    lays_of_lowerClass ((List.forall₂_iff_zip.mp (Program.ok_of_lower done)).2 pair)
  have lays := each pair
  refine ⟨_, rfl, ?_, fun user => ?_, fun above target pairToo named => ?_⟩
  · refine lays.inits.imp fun source routine made kept => ?_
    rw [lays.named]
    exact starts_of_lowerConstruction made kept
  · rw [← List.mem_map, Program.names_layouts done]
    exact (ClassTable.names_userClasses_sublist units).subset user
  · rw [← named, (each pairToo).named]
    exact exists_bare_iff (each pairToo).inits

/-- A constructor with a parameter. -/
def Source.MethodDecl.box : MethodDecl where
  name := "Box"
  params := [⟨.int, "size"⟩]
  ret := .void
  modifiers := {}
  span := ⟨1, 2⟩
  body := .block ⟨2, 3⟩ []

/-- A class whose constructor takes a size. -/
def Source.ClassDecl.box : ClassDecl where
  name := "Box"
  parent := none
  fields := []
  methods := [.box]
  span := ⟨0, 1⟩

/-- A class without a constructor, below the one whose constructor takes a size. -/
def Source.ClassDecl.crate : ClassDecl where
  name := "Crate"
  parent := some "Box"
  fields := []
  methods := []
  span := ⟨3, 4⟩

/-- A class without a constructor, below another. -/
def Source.ClassDecl.lid : ClassDecl where
  name := "Lid"
  parent := some "Crate"
  fields := []
  methods := []
  span := ⟨4, 5⟩

def Source.SourceUnit.boxes : SourceUnit where
  path := "Lid"
  package := []
  imports := []
  classes := [.box, .crate, .lid]
  nodes := #[]
  stmtCount := 1

theorem Program.layouts_boxes {facts : Facts} {lowered : List Lowered.TreeUnit}
    (done : (ofUnits [.boxes]).lower facts {} = .ok lowered) :
    ∃ box crate lid, lowered.flatMap (·.classes) = [box, crate, lid] ∧
      Lays (contextAt [.boxes] facts {} 0 .boxes) .box box ∧
      Lays (contextAt [.boxes] facts {} 0 .boxes) .crate crate ∧
      Lays (contextAt [.boxes] facts {} 0 .boxes) .lid lid := by
  have each := Program.ok_of_lower done
  have placed : placed [.boxes] = [⟨0, .boxes, .box⟩, ⟨0, .boxes, .crate⟩, ⟨0, .boxes, .lid⟩] := rfl
  rw [placed] at each
  obtain ⟨box, _, builtBox, others, classes⟩ := List.forall₂_cons_left_iff.mp each
  obtain ⟨crate, _, builtCrate, last, rfl⟩ := List.forall₂_cons_left_iff.mp others
  obtain ⟨lid, _, builtLid, none, rfl⟩ := List.forall₂_cons_left_iff.mp last
  obtain rfl := List.forall₂_nil_left_iff.mp none
  exact ⟨box, crate, lid, classes, lays_of_lowerClass builtBox, lays_of_lowerClass builtCrate,
    lays_of_lowerClass builtLid⟩

/-- The call in the routine of the lowest class finds the routine of the class above it. -/
theorem parent_calls_reach_lid :
    ∃ facts lowered box crate lid,
      (Program.ofUnits [.boxes]).facts ⟨["Box", "Crate", "Lid"]⟩ {} = .ok facts ∧
      (Program.ofUnits [.boxes]).lower facts {} = .ok lowered ∧
      lowered.flatMap (·.classes) = [box, crate, lid] ∧ crate.name = "Crate" ∧
      (∃ routine rest, lid.inits = [routine] ∧ routine.body =
        .block (.eval (.initCall ⟨4, 5⟩ "Crate" [.localVar ⟨4, 5⟩ "__this"]) :: rest)) ∧
      ∃ routine ∈ crate.inits, routine.params = [⟨.class "Crate", "__this"⟩] := by
  obtain ⟨facts, lowered, computed, done⟩ :=
    Program.exists_lowered [.boxes] ⟨["Box", "Crate", "Lid"]⟩ {} (by decide +kernel)
  obtain ⟨box, crate, lid, classes, _, laysCrate, laysLid⟩ := Program.layouts_boxes done
  have pairs : (Program.placed [.boxes]).zip (lowered.flatMap (·.classes)) =
      [(⟨0, .boxes, .box⟩, box), (⟨0, .boxes, .crate⟩, crate), (⟨0, .boxes, .lid⟩, lid)] := by
    rw [classes]
    rfl
  have pair : (⟨0, .boxes, .lid⟩, lid) ∈
      (Program.placed [.boxes]).zip (lowered.flatMap (·.classes)) := by
    rw [pairs]
    simp
  obtain ⟨parent, isParent, starts, _, reaches⟩ := parent_calls_reach_iff done pair
  have isCrate : parent = "Crate" := by
    rw [isParent, laysLid.named]
    rfl
  subst isCrate
  have found := (reaches ⟨0, .boxes, .crate⟩ crate (by rw [pairs]; simp) laysCrate.named).mpr
    (.inl rfl)
  have single : constructions .lid = [none] := rfl
  dsimp only at starts
  rw [single] at starts
  obtain ⟨routine, _, begins, none, inits⟩ := List.forall₂_cons_left_iff.mp starts
  obtain rfl := List.forall₂_nil_left_iff.mp none
  obtain ⟨rest, body⟩ := begins rfl
  exact ⟨facts, lowered, box, crate, lid, computed, done, classes, laysCrate.named,
    ⟨routine, rest, inits, body⟩, found⟩

/-- The call in the routine of the class in the middle passes the receiver alone, and the one
routine of the class above it takes a size too. -/
theorem parent_call_dangles_crate :
    ∃ facts lowered box crate lid,
      (Program.ofUnits [.boxes]).facts ⟨["Box", "Crate", "Lid"]⟩ {} = .ok facts ∧
      (Program.ofUnits [.boxes]).lower facts {} = .ok lowered ∧
      lowered.flatMap (·.classes) = [box, crate, lid] ∧
      [box, crate, lid].map (·.name) = ["Box", "Crate", "Lid"] ∧
      "Box" ∈ (ClassTable.ofUnits [.boxes]).userClasses.map (·.name) ∧
      crate.inits.map (·.body) = [.block [
        .eval (.initCall ⟨3, 4⟩ "Box" [.localVar ⟨3, 4⟩ "__this"]),
        .ret (.localVar ⟨3, 4⟩ "__this")]] ∧
      box.inits.map (·.params) = [[⟨.class "Box", "__this"⟩, ⟨.int, "size"⟩]] := by
  obtain ⟨facts, lowered, computed, done⟩ :=
    Program.exists_lowered [.boxes] ⟨["Box", "Crate", "Lid"]⟩ {} (by decide +kernel)
  obtain ⟨box, crate, lid, classes, laysBox, laysCrate, laysLid⟩ := Program.layouts_boxes done
  have chains : ((Program.ofUnits [.boxes]).facts ⟨["Box", "Crate", "Lid"]⟩ {}).toOption.map
      (fun facts => (facts.chains.instance? "Crate").map List.length) = some (some 0) := rfl
  rw [computed] at chains
  obtain ⟨chain, resolved, none⟩ := Option.map_eq_some_iff.mp (Option.some.inj chains)
  obtain rfl := List.length_eq_zero_iff.mp none
  refine ⟨facts, lowered, box, crate, lid, computed, done, classes, ?_, by decide +kernel, ?_, ?_⟩
  · simp [laysBox.named, laysCrate.named, laysLid.named, Source.ClassDecl.box,
      Source.ClassDecl.crate, Source.ClassDecl.lid]
  · obtain ⟨routine, _, made, none, inits⟩ := List.forall₂_cons_left_iff.mp laysCrate.inits
    obtain rfl := List.forall₂_nil_left_iff.mp none
    rw [inits]
    have resolved : (Program.contextAt [.boxes] facts {} 0 .boxes).facts.chains.instance?
        Source.ClassDecl.crate.name = some [] := resolved
    unfold lowerConstruction synthesizedInit prologue at made
    dsimp only at made
    rw [resolved] at made
    cases made
    rfl
  · obtain ⟨routine, _, made, none, inits⟩ := List.forall₂_cons_left_iff.mp laysBox.inits
    obtain rfl := List.forall₂_nil_left_iff.mp none
    rw [inits, List.map_singleton, params_of_lowerConstruction made]
    rfl

end ObjectLowering
