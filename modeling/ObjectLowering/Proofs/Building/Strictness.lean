/-
**Refusing calls without a target only rejects programs.**

With strict resolution a program is built to what lenient building gives, or not at all. It is not
built where the lenient result holds a call without a target. What is refused is always a call of a
class that counts, and never console output.

* `sifts_buildMethod`, `sifts_buildConstructor`, …: the routines of a class in both runs.
* `narrows_buildClass`: classes.
* `buildUnits_strict_iff`: units.
* `Program.open_call_of_refusal`: which call a strict run refuses.
* **`strict_only_rejects`**: the two runs on a whole program.
-/

import ObjectLowering.Proofs.Building.SiftedTrees
import ObjectLowering.Proofs.Building.Units
import ObjectLowering.Proofs.Lowering.Total

namespace ObjectLowering

open Source (SourceUnit ClassDecl MethodDecl)
open Lowering (Context)

namespace Building

variable {context : Context} {routine : Routine}

/-! ### Routines -/

theorem sifts_assignField (span : Span) (field : Name × Source.Expr) :
    Sifts Eq (assignField (strictly context true) routine span field)
      (assignField (strictly context false) routine span field) :=
  field.2.sifts_build.seq fun _ => (Sifts.add (keeps_selfExpr context span)).seq fun _ =>
    (Sifts.add (keeps_addExpr span rfl)).seq fun _ =>
      (Sifts.add (keeps_addExpr span rfl)).seq fun _ => .add (keeps_addStmt _)

theorem keeps_parentInit (span : Span) (parent : Name) : Keeps (parentInit context span parent) :=
  (keeps_selfExpr context span).bind fun receiver => (keeps_addExprs [receiver]).bind fun _ =>
    (keeps_addExpr span rfl).bind fun _ => keeps_addStmt _

theorem sifts_prologue (span : Span) :
    Sifts Eq (prologue (strictly context true) routine span)
      (prologue (strictly context false) routine span) := by
  have each (values : List (Name × Source.Expr)) : EachSifts
      (values.map (assignField (strictly context true) routine span))
      (values.map (assignField (strictly context false) routine span)) := by
    unfold EachSifts
    rw [List.forall₂_map_left_iff, List.forall₂_map_right_iff, List.forall₂_same]
    exact fun field _ => sifts_assignField span field
  refine (Sifts.add (@keeps_parentInit context span _)).seq fun init => ?_
  rw [Lowering.facts_withOptions, Lowering.facts_withOptions]
  split
  · exact .fail
  · exact (Sifts.runEach (each _)).seq fun _ => .pure rfl

theorem sifts_buildMethod (owner : Name) (index : Nat) (method : MethodDecl) :
    Sifts Eq (buildMethod (strictly context true) owner index method)
      (buildMethod (strictly context false) owner index method) :=
  (sifts_buildBody method.span [] (some method.body)).seq fun _ => .pure rfl

theorem sifts_buildConstructor (owner : Name) (index : Nat) (method : MethodDecl) :
    Sifts Eq (buildConstructor (strictly context true) owner index method)
      (buildConstructor (strictly context false) owner index method) := by
  unfold buildConstructor
  dsimp only
  split
  · rw [pure_bind, pure_bind]
    exact (sifts_buildBody method.span [] (some method.body)).seq fun _ => .pure rfl
  · exact (sifts_prologue method.span).seq fun start =>
      (sifts_buildBody method.span start (some method.body)).seq fun _ => .pure rfl

theorem sifts_synthesizedInit (decl : ClassDecl) :
    Sifts Eq (synthesizedInit (strictly context true) decl)
      (synthesizedInit (strictly context false) decl) :=
  (sifts_prologue decl.span).seq fun start =>
    (sifts_buildBody decl.span start none).seq fun _ => .pure rfl

theorem sifts_buildStatic (className : Name) (span : Span) (init : Initializer Source.Expr) :
    Sifts Eq (buildStatic (strictly context true) className span init)
      (buildStatic (strictly context false) className span init) := by
  unfold buildStatic
  cases init.value with
  | none => exact (Sifts.add (keeps_defaultExpr span init.default)).seq fun _ => .pure rfl
  | some value => exact value.sifts_build.seq fun _ => .pure rfl

/-! ### Classes -/

theorem keeps_ctorMember (span : Span) (init : Initializer Source.Expr) :
    Keeps (ctorMember span init) :=
  (keeps_defaultExpr span init.default).bind fun _ => .pure _

theorem narrows_buildMember (owner : Name) (method : MethodDecl × Nat) :
    Narrows Eq (buildMember (strictly context true) owner method)
      (buildMember (strictly context false) owner method) := by
  unfold buildMember
  dsimp only
  split
  · exact (sifts_buildConstructor owner method.2 method.1).inRoutine.seq fun _ => .pure rfl
  · exact (sifts_buildMethod owner method.2 method.1).inRoutine.seq fun _ => .pure rfl

/-- **A class is built alike in both runs**, unless it leaves a call open. -/
theorem narrows_buildClass (decl : ClassDecl) :
    Narrows Eq (buildClass (strictly context true) decl)
      (buildClass (strictly context false) decl) := by
  have statics (inits : List (Initializer Source.Expr)) : Narrows Eq
      (inRoutine (Lowering.runEach
        (inits.map (buildStatic (strictly context true) decl.name decl.span))))
      (inRoutine (Lowering.runEach
        (inits.map (buildStatic (strictly context false) decl.name decl.span)))) := by
    refine (Sifts.runEach ?_).inRoutine
    rw [List.forall₂_map_left_iff, List.forall₂_map_right_iff, List.forall₂_same]
    exact fun init _ => sifts_buildStatic decl.name decl.span init
  have members (methods : List (MethodDecl × Nat)) : Narrows Eq
      (methods.mapM (buildMember (strictly context true) decl.name))
      (methods.mapM (buildMember (strictly context false) decl.name)) :=
    .mapM fun method _ => narrows_buildMember decl.name method
  unfold buildClass
  dsimp only
  rw [Lowering.facts_withOptions, Lowering.facts_withOptions]
  split
  · refine (Narrows.mapM fun init _ => .same (keeps_ctorMember decl.span init)).seq fun defaults =>
      (statics _).seq fun storages => ?_
    split
    · refine (members _).seq fun routines => ?_
      split
      · rw [map_eq_pure_bind, map_eq_pure_bind, bind_assoc, bind_assoc]
        exact (sifts_synthesizedInit decl).inRoutine.seq fun _ => .pure rfl
      · exact .pure rfl
    · exact .fail
  · exact .fail

/-! ### Units -/

theorem buildClasses_strict_iff {index : Nat} {unit : SourceUnit} {flat : Lowered.FlatUnit} :
    buildClasses (strictly context true) index unit = .ok flat ↔
      buildClasses (strictly context false) index unit = .ok flat ∧ flat.arena.Closed := by
  have narrows : Narrows Eq
      ((unit.classes.filter (context.facade.owns index ·.name)).mapM
        (buildClass (strictly context true)))
      ((unit.classes.filter (context.facade.owns index ·.name)).mapM
        (buildClass (strictly context false))) :=
    .mapM fun decl _ => narrows_buildClass decl
  constructor
  · intro done
    obtain ⟨⟨classes, arena⟩, reached, built⟩ := ok_of_bind done
    cases built
    obtain ⟨closed, _, ran, rfl⟩ := narrows.keeps Lowered.FlatArena.closed_empty reached
    refine ⟨?_, closed⟩
    unfold buildClasses
    dsimp only
    rw [Lowering.facade_withOptions, ran]
    rfl
  · rintro ⟨done, closed⟩
    obtain ⟨⟨classes, arena⟩, reached, built⟩ := ok_of_bind done
    cases built
    obtain ⟨_, ran, rfl⟩ := narrows.reaches reached closed
    unfold buildClasses
    dsimp only
    rw [Lowering.facade_withOptions, ran]
    rfl

section Units

variable {facts : Facts} {options : LoweringOptions}

theorem buildUnit_strict_iff {index : Nat} {unit : SourceUnit} {facade : Facade}
    {flat : Lowered.FlatUnit} :
    buildUnit index unit facade facts { options with strict := true } = .ok flat ↔
      buildUnit index unit facade facts { options with strict := false } = .ok flat ∧
        flat.arena.Closed := by
  let context : Context := ⟨facade, facts.mangle.sites index, facts, options⟩
  have valid {flat : Lowered.FlatUnit} {run : Except BuildFailure Lowered.FlatUnit} :
      run >>= validated = .ok flat ↔ run = .ok flat ∧ validated flat = .ok flat := by
    constructor
    · intro done
      obtain ⟨other, reached, passed⟩ := ok_of_bind done
      have same : other = flat := by
        unfold validated at passed
        split at passed <;> cases passed
        rfl
      exact ⟨same ▸ reached, same ▸ passed⟩
    · rintro ⟨rfl, passed⟩
      exact passed
  have both : buildClasses (strictly context true) index unit = .ok flat ↔
      buildClasses (strictly context false) index unit = .ok flat ∧ flat.arena.Closed :=
    buildClasses_strict_iff
  show buildClasses (strictly context true) index unit >>= validated = .ok flat ↔
    buildClasses (strictly context false) index unit >>= validated = .ok flat ∧ flat.arena.Closed
  rw [valid, valid, both, and_right_comm]

/-- Units are built one after the other. -/
theorem buildUnits_cons_eq_ok {part : SourceUnit × Facade} {rest : List (SourceUnit × Facade)}
    {start : Nat} {built : List Lowered.FlatUnit} :
    buildUnits facts options start (part :: rest) = .ok built ↔
      ∃ first others, built = first :: others ∧
        buildUnit start part.1 part.2 facts options = .ok first ∧
        buildUnits facts options (start + 1) rest = .ok others := by
  constructor
  · intro done
    obtain ⟨first, here, done⟩ := ok_of_bind done
    obtain ⟨others, there, done⟩ := ok_of_bind done
    cases done
    exact ⟨first, others, rfl, mapError_eq_ok.mp here, there⟩
  · rintro ⟨first, others, rfl, here, there⟩
    unfold buildUnits
    rw [here, there]
    rfl

/-- **Units are built strictly exactly if none of them holds a call without a target.** -/
theorem buildUnits_strict_iff {start : Nat} {parts : List (SourceUnit × Facade)}
    {built : List Lowered.FlatUnit} :
    buildUnits facts { options with strict := true } start parts = .ok built ↔
      buildUnits facts { options with strict := false } start parts = .ok built ∧
        ∀ flat ∈ built, flat.arena.Closed := by
  induction parts generalizing start built with
  | nil =>
    refine ⟨fun done => ⟨done, ?_⟩, And.left⟩
    cases done
    exact List.forall_mem_nil _
  | cons part rest step =>
    rw [buildUnits_cons_eq_ok, buildUnits_cons_eq_ok]
    constructor
    · rintro ⟨first, others, rfl, here, there⟩
      obtain ⟨here, closed⟩ := buildUnit_strict_iff.mp here
      obtain ⟨there, all⟩ := step.mp there
      exact ⟨⟨first, others, rfl, here, there⟩, List.forall_mem_cons.mpr ⟨closed, all⟩⟩
    · rintro ⟨⟨first, others, rfl, here, there⟩, all⟩
      obtain ⟨closed, all⟩ := List.forall_mem_cons.mp all
      exact ⟨first, others, rfl, buildUnit_strict_iff.mpr ⟨here, closed⟩, step.mpr ⟨there, all⟩⟩

end Units

end Building

/-! ### What is refused -/

/-- A call is refused if it has no target and is not console output. -/
theorem Lowering.call_of_unresolved {context : Context} {tag : Source.Tag}
    {receiver : Option Source.Expr} {method name : Name} {span : Span}
    (ends : callError? context tag receiver method = some (.unresolvedCall name span)) :
    name = method ∧ span = tag.span ∧ isConsoleOutput context receiver method = false ∧
      context.sites.get? tag.id = none := by
  have written (site : CallSite) :
      receiverError? tag receiver site ≠ some (.unresolvedCall name span) := by
    unfold receiverError?
    split <;> exact fun other => nomatch other
  have listed (site : CallSite) :
      slotError? context tag.span site ≠ some (.unresolvedCall name span) := by
    unfold slotError?
    split
    · exact fun other => nomatch other
    · split <;> exact fun other => nomatch other
  unfold callError? at ends
  split at ends
  · cases ends
  rename_i silent
  split at ends
  · rename_i absent
    split at ends <;> cases ends
    exact ⟨rfl, rfl, Bool.eq_false_iff.mpr silent, absent⟩
  rename_i site _
  split at ends
  · cases ends
  · cases ends
  · exact absurd ends (written site)
  · rcases Option.or_eq_some_iff.mp ends with ends | ⟨_, ends⟩
    · exact absurd ends (listed site)
    · exact absurd ends (written site)

/-- The call for which a program was refused, if it was for a call without a target. -/
def BuildError.refusal? : BuildError → Option (Name × Span)
  | .program (.unresolvedCall method span) => some (method, span)
  | .unit ⟨_, .error (.unresolvedCall method span)⟩ => some (method, span)
  | _ => none

theorem UnitStop.eq_of_refusal {stop : UnitStop} {method : Name} {span : Span}
    (refused : (BuildError.unit stop).refusal? = some (method, span)) :
    stop = ⟨stop.path, .error (.unresolvedCall method span)⟩ := by
  unfold BuildError.refusal? at refused
  split at refused
  · rename_i same
    cases same
  · rename_i same
    cases same
    cases refused
    rfl
  · cases refused

open Lowering

namespace Program

variable {units : List SourceUnit} {names : NameTable} {options : LoweringOptions} {facts : Facts}

/-- Computing facts refuses no call. -/
theorem error_of_facts {error : LoweringError}
    (failed : (ofUnits units).facts names options = .error error) :
    (∃ className, error = .inheritanceCycle className) ∨
      ∃ className parent, error = .unknownParent className parent := by
  rcases error_of_bind failed with failed | ⟨_, _, failed⟩
  · obtain ⟨className, _, failed⟩ := error_of_mapM (error_of_map failed)
    unfold InitializerChains.resolveClass at failed
    split at failed <;> cases failed
    · exact .inl ⟨_, rfl⟩
    · exact .inr ⟨_, _, rfl⟩
  rcases error_of_bind failed with failed | ⟨_, _, failed⟩
  · obtain ⟨className, _, failed⟩ := error_of_mapM (error_of_map failed)
    unfold VtableSet.ofClass at failed
    split at failed <;> cases failed
    · exact .inl ⟨_, rfl⟩
    · exact .inr ⟨_, _, rfl⟩
  · cases failed

/-- The errors of a unit: a call is refused if a declaration that counts there holds it, it has no
target and it is not console output. -/
def Refuses (units : List SourceUnit) (facts : Facts) (options : LoweringOptions) (index : Nat)
    (unit : SourceUnit) (error : LoweringError) : Prop :=
  ∀ method span, error = .unresolvedCall method span →
    ∃ decl, ⟨index, unit, decl⟩ ∈ placed units ∧
      ∃ tag receiver args, .call tag receiver method args ∈ decl.nodes ∧ tag.span = span ∧
        (facts.mangle.sites index).get? tag.id = none ∧
        isConsoleOutput (contextAt units facts options index unit) receiver method = false

variable {place : PlacedClass}

/-- A node of a declaration that counts ends in such an error, if in any. -/
theorem admits_refuses (counts : place ∈ placed units) {node : Source.Expr}
    (member : node ∈ place.decl.nodes) :
    node.Admits (contextAt units facts options place.index place.unit)
      (Refuses units facts options place.index place.unit) true := by
  refine ⟨fun error ends method span refused => ?_, fun _ => rfl⟩
  subst refused
  cases node with
  | call tag receiver name args =>
    have ends : callError? _ tag receiver name = some _ := ends
    obtain ⟨rfl, rfl, silent, absent⟩ := call_of_unresolved ends
    exact ⟨place.decl, counts, tag, receiver, args, member, rfl, absent, silent⟩
  | newArray tag element dims extra => cases dims <;> cases ends
  | _ => cases ends

/-- Lowering a class that counts refuses only such calls. -/
theorem ends_refuses (computed : (ofUnits units).facts names options = .ok facts)
    (counts : place ∈ placed units) :
    Ends (Refuses units facts options place.index place.unit)
      (lowerClass (contextAt units facts options place.index place.unit) place.decl)
      Lowered.ClassLayout.Formed := by
  have values {value : Source.Expr} (hosted : Hosts units place value) :
      AdmitsAll (contextAt units facts options place.index place.unit)
        (Refuses units facts options place.index place.unit) true value.nodes := by
    obtain ⟨decl, countsToo, among⟩ := hosted
    exact fun node member => admits_refuses countsToo (among node member)
  refine ends_lowerClass_of_errors ?_ ?_ ?_ ?_ ?_
  · exact fun _ _ other => nomatch other
  · exact fun _ _ other => nomatch other
  · exact fun node member => admits_refuses counts member
  · exact fun chain resolved field member =>
      values (hosts_of_ownValues computed counts resolved member)
  · exact fun init member value given => values (hosts_of_statics computed counts member given)

end Program

theorem error_of_lowerUnits {facts : Facts} {options : LoweringOptions} {failure : UnitFailure}
    {parts : List (SourceUnit × Facade)} {start : Nat}
    (failed : lowerUnits facts options start parts = .error failure) :
    ∃ part ∈ parts.zipIdx start, failure.path = part.1.1.path ∧
      lowerUnit part.2 part.1.1 part.1.2 facts options = .error failure.failure := by
  induction parts generalizing start with
  | nil => cases failed
  | cons part rest step =>
    rw [List.zipIdx_cons]
    rcases error_of_bind failed with failed | ⟨_, _, failed⟩
    · refine ⟨_, List.mem_cons_self, ?_⟩
      dsimp only at failed ⊢
      cases here : lowerUnit start part.1 part.2 facts options with
      | error reason =>
        rw [here] at failed
        cases failed
        exact ⟨rfl, rfl⟩
      | ok _ =>
        rw [here] at failed
        cases failed
    · rcases error_of_bind failed with failed | ⟨_, _, failed⟩
      · obtain ⟨other, inside, known⟩ := step failed
        exact ⟨other, List.mem_cons_of_mem _ inside, known⟩
      · cases failed

/-- **A unit is refused only for a call that has no target and is no console output.** -/
theorem Program.refuses_of_lower {units : List SourceUnit} {names : NameTable}
    {options : LoweringOptions} {facts : Facts} {failure : UnitFailure}
    (computed : (ofUnits units).facts names options = .ok facts)
    (failed : (ofUnits units).lower facts options = .error failure) :
    ∃ index unit, failure.path = unit.path ∧
      FailsWith (Refuses units facts options index unit) failure.failure := by
  obtain ⟨part, inside, path, failed⟩ := error_of_lowerUnits failed
  rw [zipIdx_parts] at inside
  obtain ⟨⟨unit, index⟩, listed, rfl⟩ := List.mem_map.mp inside
  dsimp only at path failed
  have here := List.mem_zipIdx_iff_getElem?.mp listed
  have ends : Ends (Refuses units facts options index unit)
      (lowerUnit index unit (facadeAt units index unit) facts options)
      fun lowered => ∀ layout ∈ lowered.classes, layout.Formed := by
    refine ends_lowerUnit_of_classes fun decl kept => ?_
    obtain ⟨declared, owned⟩ := List.mem_filter.mp kept
    have counts : ⟨index, unit, decl⟩ ∈ placed units := mem_placed.mpr ⟨here, declared, owned⟩
    have ends := ends_refuses computed counts
    exact ends
  rw [failed] at ends
  exact ⟨index, unit, path, ends⟩

/-- **A refused call has no target and is no console output**, and a class that counts holds it. -/
theorem Program.open_call_of_refusal {units : List SourceUnit} {names : NameTable}
    {options : LoweringOptions} {facts : Facts} {strict : Bool} {path : String} {method : Name}
    {span : Span} (computed : (ofUnits units).facts names options = .ok facts)
    (refused : (ofUnits units).lower facts { options with strict } =
      .error ⟨path, .error (.unresolvedCall method span)⟩) :
    ∃ place ∈ placed units, ∃ tag receiver args,
      .call tag receiver method args ∈ place.decl.nodes ∧ tag.span = span ∧
      (facts.mangle.sites place.index).get? tag.id = none ∧
      isConsoleOutput (contextAt units facts options place.index place.unit) receiver method =
        false := by
  have strictly : (ofUnits units).facts names { options with strict } = .ok facts := computed
  obtain ⟨index, unit, _, known⟩ := refuses_of_lower strictly refused
  obtain ⟨decl, counts, tag, receiver, args, member, here, absent, silent⟩ := known method span rfl
  exact ⟨_, counts, tag, receiver, args, member, here, absent, silent⟩

/-! ### Programs -/

/-- **Strict resolution only rejects.** A program that is built strictly comes out as it does
leniently, and it is built strictly exactly if no node of the arenas that come out leniently is a
call without a target. Where a strict run is refused for such a call, a class that counts holds the
call, and it is not console output. -/
theorem strict_only_rejects (units : List SourceUnit) (names : NameTable)
    (options : LoweringOptions) :
    (∀ built, buildProgram names { options with strict := true } (.ofUnits units) = .ok built ↔
      buildProgram names { options with strict := false } (.ofUnits units) = .ok built ∧
        ∀ flat ∈ built, ∀ node ∈ flat.arena.exprs, node.2.isOpenCall = false) ∧
    ∀ failure method span,
      buildProgram names { options with strict := true } (.ofUnits units) = .error failure →
      failure.refusal? = some (method, span) →
      ∃ facts, (Program.ofUnits units).facts names options = .ok facts ∧
        ∃ place ∈ Program.placed units, ∃ tag receiver args,
          .call tag receiver method args ∈ place.decl.nodes ∧ tag.span = span ∧
          (facts.mangle.sites place.index).get? tag.id = none ∧
          isConsoleOutput (Program.contextAt units facts options place.index place.unit) receiver
            method = false := by
  -- Computing the facts does not ask whether calls are refused.
  cases computed : (Program.ofUnits units).facts names options with
  | error error =>
    have failed (strict : Bool) :
        buildProgram names { options with strict } (.ofUnits units) = .error (.program error) :=
      buildProgram_of_error computed
    rw [failed, failed]
    refine ⟨fun built => ⟨fun done => (nomatch done), fun done => (nomatch done.1)⟩, ?_⟩
    intro failure method span same refused
    cases same
    rcases Program.error_of_facts computed with ⟨_, rfl⟩ | ⟨_, _, rfl⟩ <;> cases refused
  | ok facts =>
    have builds (strict : Bool) : buildProgram names { options with strict } (.ofUnits units) =
        ((Program.ofUnits units).build facts { options with strict }).mapError .unit :=
      buildProgram_of_ok computed
    rw [builds, builds]
    constructor
    · intro built
      rw [mapError_eq_ok, mapError_eq_ok]
      exact Building.buildUnits_strict_iff
    · intro failure method span failed refused
      have answers := @Building.agrees_build facts { options with strict := true }
        (VtableSet.aligned (Program.vtables_of_facts computed)) (.ofUnits units)
      cases reached : (Program.ofUnits units).build facts { options with strict := true } with
      | ok _ =>
        rw [reached] at failed
        cases failed
      | error stop =>
        rw [reached] at failed answers
        cases failed
        rw [UnitStop.eq_of_refusal refused] at answers
        exact ⟨facts, rfl, Program.open_call_of_refusal computed answers⟩

/-- A class that prints a number and then calls a method that nobody declares. -/
def Source.SourceUnit.lost : SourceUnit where
  path := "Lost"
  package := []
  imports := []
  classes := [
    { name := "Lost", parent := none, fields := [], span := ⟨0, 40⟩
      methods := [
        { name := "run", params := [], ret := .void, modifiers := {}, span := ⟨0, 40⟩
          body := .block ⟨0, 40⟩ [
            .eval ⟨0, 20⟩ (.call ⟨3, 0, 20⟩
              (some (.field ⟨2, 0, 10⟩ (.ident ⟨1, 0, 6⟩ "System") "out")) "println"
              [.int ⟨0, 18, 19⟩ 1]),
            .eval ⟨21, 40⟩ (.call ⟨4, 21, 30⟩ none "missing" [])] }] }]
  nodes := #[.int ⟨0, 18, 19⟩ 1, .ident ⟨1, 0, 6⟩ "System",
    .field ⟨2, 0, 10⟩ (.ident ⟨1, 0, 6⟩ "System") "out",
    .call ⟨3, 0, 20⟩ (some (.field ⟨2, 0, 10⟩ (.ident ⟨1, 0, 6⟩ "System") "out")) "println"
      [.int ⟨0, 18, 19⟩ 1],
    .call ⟨4, 21, 30⟩ none "missing" []]
  stmtCount := 3

/-- The lenient run keeps the call without a target, and the strict run is refused for it. -/
theorem strict_only_rejects_lost :
    (∃ built, buildProgram ⟨["Lost"]⟩ {} (.ofUnits [.lost]) = .ok built ∧
      ¬∀ flat ∈ built, ∀ node ∈ flat.arena.exprs, node.2.isOpenCall = false) ∧
    ∃ failure, buildProgram ⟨["Lost"]⟩ { strict := true } (.ofUnits [.lost]) = .error failure ∧
      failure.refusal? = some ("missing", ⟨21, 30⟩) := by
  have strict : (match buildProgram ⟨["Lost"]⟩ { strict := true } (.ofUnits [.lost]) with
      | .ok _ => none
      | .error failure => failure.refusal?) = some ("missing", ⟨21, 30⟩) := by decide +kernel
  have lenient : (buildProgram ⟨["Lost"]⟩ {} (.ofUnits [.lost])).isOk = true := by decide +kernel
  obtain ⟨built, done⟩ := exists_of_isOk lenient
  cases refused : buildProgram ⟨["Lost"]⟩ { strict := true } (.ofUnits [.lost]) with
  | ok _ =>
    rw [refused] at strict
    cases strict
  | error failure =>
    rw [refused] at strict
    refine ⟨⟨built, done, fun closed => ?_⟩, failure, rfl, strict⟩
    have passes := ((strict_only_rejects [.lost] ⟨["Lost"]⟩ {}).1 built).mpr ⟨done, closed⟩
    cases refused.symm.trans passes

end ObjectLowering
