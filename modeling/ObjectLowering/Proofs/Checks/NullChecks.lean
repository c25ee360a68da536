/-
**Turning null checks off removes the null checks and nothing else.**

A program that is lowered without null checks comes out as it does with them, erased: the same
classes, the same routines with the same temporaries, and the same error if there is one. Along
the way every list of a result is seen to be short.

* `Lowering.Follows`: one step beside the other, where no temporaries are counted.
* `erases_lowerBody`, `erases_prologue`, `erases_lowerMethod`, …: routines.
* `follows_lowerClass`, `lowerUnit_withoutNullChecks`: classes and units.
* **`null_checks_off_erases`**: the two runs on a whole program.
-/

import ObjectLowering.Compile
import ObjectLowering.Proofs.Checks.ErasedTrees

namespace ObjectLowering

open Source (SourceUnit ClassDecl MethodDecl)

namespace Lowering

open Lowered (Expr Stmt Method ClassLayout StaticStorage)

/-- The second outcome is the first with its result changed; the result of the first has the
property. -/
structure Follows {ε α β : Type} (change : α → β) (known : α → Prop) (checked : Except ε α)
    (unchecked : Except ε β) : Prop where
  follows : unchecked = change <$> checked
  known : ∀ value, checked = .ok value → known value

namespace Follows

variable {ε α β γ δ : Type} {change : α → β} {after : γ → δ} {known : α → Prop} {result : γ → Prop}
  {checked : Except ε α} {unchecked : Except ε β} {next : α → Except ε γ} {other : β → Except ε δ}

theorem pure {value : α} {erased : β} (holds : known value) (same : erased = change value) :
    Follows (ε := ε) change known (pure value) (pure erased) :=
  ⟨by rw [same, map_pure], fun _ done => Except.ok.inj done ▸ holds⟩

theorem fail {failure : ε} : Follows change known (.error failure) (.error failure) :=
  ⟨rfl, fun _ done => nomatch done⟩

theorem bind (first : Follows change known checked unchecked)
    (second : ∀ value, known value → Follows after result (next value) (other (change value))) :
    Follows after result (checked >>= next) (unchecked >>= other) := by
  obtain ⟨follows, holds⟩ := first
  rw [follows]
  cases checked with
  | error failure => exact fail
  | ok value => exact second value (holds value rfl)

theorem mapM {ι : Type} {items : List ι} {checked : ι → Except ε α} {unchecked : ι → Except ε β}
    (each : ∀ item ∈ items, Follows change known (checked item) (unchecked item)) :
    Follows (List.map change) (fun values => ∀ value ∈ values, known value)
      (items.mapM checked) (items.mapM unchecked) := by
  induction items with
  | nil => exact pure (fun _ member => nomatch member) rfl
  | cons item rest step =>
    rw [List.forall_mem_cons] at each
    rw [List.mapM_cons, List.mapM_cons]
    refine each.1.bind fun first here => (step each.2).bind fun others there => .pure ?_ rfl
    exact List.forall_mem_cons.mpr ⟨here, there⟩

theorem inRoutine {checked : LowerM α} {unchecked : LowerM β}
    (erases : Erases change known checked unchecked) :
    Follows change known (inRoutine checked) (inRoutine unchecked) :=
  ⟨erases.inRoutine.1, erases.inRoutine.2⟩

end Follows

variable {context : Context} {routine : Routine}

/-! ### Routines -/

theorem isReturn_unchecked (stmt : Stmt) : stmt.unchecked.isReturn = stmt.isReturn := by
  cases stmt <;> rfl

/-- A body ends in the same return. -/
theorem finalReturn_unchecked (context : Context) (routine : Routine) (span : Span)
    (stmts : List Stmt) :
    (∀ stmt ∈ finalReturn context routine span stmts, stmt.Short) ∧
      finalReturn context routine span (stmts.map (·.unchecked)) =
        (finalReturn context routine span stmts).map (·.unchecked) := by
  have last : (stmts.map (·.unchecked)).getLast?.any (·.isReturn) =
      stmts.getLast?.any (·.isReturn) := by
    rw [List.getLast?_map, Option.any_map]
    simp only [isReturn_unchecked]
  obtain ⟨short, fixed⟩ := unchecked_implicitResult context span routine.mode
  unfold finalReturn
  rw [last]
  split
  · refine ⟨List.forall_mem_singleton.mpr short, ?_⟩
    rw [List.map_singleton, Stmt.unchecked, fixed]
  · exact ⟨fun _ member => (nomatch member), rfl⟩

theorem erases_lowerBody (span : Span) {start : List Stmt} (body : Option Source.Stmt)
    (before : ∀ stmt ∈ start, stmt.Short) :
    Erases Stmt.unchecked Stmt.Short
      (lowerBody (context.withNullChecks true) routine span start body)
      (lowerBody (context.withNullChecks false) routine span (start.map (·.unchecked)) body) := by
  have returns (nullChecks : Bool) (stmts : List Stmt) :
      finalReturn (context.withNullChecks nullChecks) routine span stmts =
        finalReturn context routine span stmts := rfl
  unfold lowerBody
  rw [← Source.Stmt.lowerEach_eq_map, ← Source.Stmt.lowerEach_eq_map]
  refine (Erases.runEach (Source.Stmt.erases_lowerEach _)).bind fun stmts short => ?_
  dsimp only
  rw [returns, returns, ← List.map_append]
  obtain ⟨shortToo, same⟩ := finalReturn_unchecked context routine span (start ++ stmts)
  rw [same, ← List.map_append]
  refine erases_blockStmt ?_
  rw [List.forall_mem_append, List.forall_mem_append]
  exact ⟨⟨before, short⟩, shortToo⟩

theorem erases_assignField (span : Span) (field : Name × Source.Expr) :
    Erases Stmt.unchecked Stmt.Short
      (assignField (context.withNullChecks true) routine span field)
      (assignField (context.withNullChecks false) routine span field) :=
  field.2.erases_lower.bind fun _ tidy => .pure ⟨trivial, tidy.short⟩ rfl

theorem erases_prologue (span : Span) :
    Erases (List.map Stmt.unchecked) (fun stmts => ∀ stmt ∈ stmts, stmt.Short)
      (prologue (context.withNullChecks true) routine span)
      (prologue (context.withNullChecks false) routine span) := by
  unfold prologue
  dsimp only
  rw [facts_withOptions, facts_withOptions]
  split
  · exact .fail
  · rename_i chain _
    have each : List.Forall₂ (Erases Stmt.unchecked Stmt.Short)
        ((ownValues routine.className chain).map
          (assignField (context.withNullChecks true) routine span))
        ((ownValues routine.className chain).map
          (assignField (context.withNullChecks false) routine span)) := by
      rw [List.forall₂_map_left_iff, List.forall₂_map_right_iff, List.forall₂_same]
      exact fun field _ => erases_assignField span field
    have one : 1 ≤ maxListLength := by decide
    refine (Erases.runEach each).bind fun assigns short => .pure ?_ rfl
    exact List.forall_mem_cons.mpr ⟨⟨one, trivial, trivial⟩, short⟩

theorem erases_lowerMethod (owner : Name) (index : Nat) (method : MethodDecl) :
    Erases (Method.map Stmt.unchecked) (·.body.Short)
      (lowerMethod (context.withNullChecks true) owner index method)
      (lowerMethod (context.withNullChecks false) owner index method) :=
  (erases_lowerBody method.span (some method.body) (List.forall_mem_nil _)).bind
    fun _ short => .pure short rfl

theorem erases_lowerConstructor (owner : Name) (index : Nat) (method : MethodDecl) :
    Erases (Method.map Stmt.unchecked) (·.body.Short)
      (lowerConstructor (context.withNullChecks true) owner index method)
      (lowerConstructor (context.withNullChecks false) owner index method) := by
  unfold lowerConstructor
  dsimp only
  split
  · rw [pure_bind, pure_bind]
    exact (erases_lowerBody method.span (some method.body) (List.forall_mem_nil _)).bind
      fun _ short => .pure short rfl
  · exact (erases_prologue method.span).bind fun start before =>
      (erases_lowerBody method.span (some method.body) before).bind fun _ short =>
        .pure short rfl

theorem erases_synthesizedInit (decl : ClassDecl) :
    Erases (Method.map Stmt.unchecked) (·.body.Short)
      (synthesizedInit (context.withNullChecks true) decl)
      (synthesizedInit (context.withNullChecks false) decl) :=
  (erases_prologue decl.span).bind fun _ before =>
    (erases_lowerBody decl.span none before).bind fun _ short => .pure short rfl

/-- The storage of a static field with the erased value. -/
def uncheckedStorage (storage : StaticStorage Expr) : StaticStorage Expr :=
  { storage with init := storage.init.unchecked }

theorem erases_lowerStatic (className : Name) (span : Span) (init : Initializer Source.Expr) :
    Erases uncheckedStorage (·.init.Short)
      (lowerStatic (context.withNullChecks true) className span init)
      (lowerStatic (context.withNullChecks false) className span init) := by
  unfold lowerStatic
  cases init.value with
  | none =>
    have default : (defaultExpr span init.default).Short ∧
        (defaultExpr span init.default).unchecked = defaultExpr span init.default := by
      cases init.default <;> exact ⟨trivial, rfl⟩
    refine .pure default.1 ?_
    rw [uncheckedStorage, default.2]
  | some value => exact value.erases_lower.bind fun _ tidy => .pure tidy.short rfl

/-! ### Classes -/

/-- A routine with its mark, without null checks. -/
def uncheckedMember (member : Bool × Method Stmt) : Bool × Method Stmt :=
  (member.1, member.2.map Stmt.unchecked)

theorem follows_lowerMember (owner : Name) (method : MethodDecl × Nat) :
    Follows uncheckedMember (·.2.body.Short)
      (lowerMember (context.withNullChecks true) owner method)
      (lowerMember (context.withNullChecks false) owner method) := by
  have either : Erases (Method.map Stmt.unchecked) (·.body.Short)
      (if method.1.isConstructorOf owner then
        lowerConstructor (context.withNullChecks true) owner method.2 method.1
        else lowerMethod (context.withNullChecks true) owner method.2 method.1)
      (if method.1.isConstructorOf owner then
        lowerConstructor (context.withNullChecks false) owner method.2 method.1
        else lowerMethod (context.withNullChecks false) owner method.2 method.1) := by
    split
    · exact erases_lowerConstructor owner method.2 method.1
    · exact erases_lowerMethod owner method.2 method.1
  exact (Follows.inRoutine either).bind fun _ short => .pure short rfl

theorem constructors_unchecked (members : List (Bool × Method Stmt)) :
    ((members.map uncheckedMember).filter (·.1)).map (·.2) =
      ((members.filter (·.1)).map (·.2)).map (Method.map Stmt.unchecked) := by
  rw [List.filter_map, List.map_map, List.map_map]
  rfl

theorem methods_unchecked (members : List (Bool × Method Stmt)) :
    ((members.map uncheckedMember).filter (!·.1)).map (·.2) =
      ((members.filter (!·.1)).map (·.2)).map (Method.map Stmt.unchecked) := by
  rw [List.filter_map, List.map_map, List.map_map]
  rfl

theorem short_ctorMembers (span : Span) (chain : List (Initializer Source.Expr)) :
    ∀ member ∈ ctorMembers span chain, ∀ value, member.value? = some value → value.Short := by
  unfold ctorMembers
  rw [List.forall_mem_append, List.forall_mem_map, List.forall_mem_singleton]
  refine ⟨fun init _ value held => ?_, fun value held => nomatch held⟩
  cases held
  cases init.default <;> exact trivial

/-- **A class loses the null checks of its routines and static fields**, and nothing else. -/
theorem follows_lowerClass (decl : ClassDecl) :
    Follows ClassLayout.unchecked ClassLayout.Short
      (lowerClass (context.withNullChecks true) decl)
      (lowerClass (context.withNullChecks false) decl) := by
  have statics : Follows (List.map uncheckedStorage)
      (fun storages => ∀ storage ∈ storages, storage.init.Short)
      (inRoutine (runEach ((context.facts.chains.statics decl.name).map
        (lowerStatic (context.withNullChecks true) decl.name decl.span))))
      (inRoutine (runEach ((context.facts.chains.statics decl.name).map
        (lowerStatic (context.withNullChecks false) decl.name decl.span)))) := by
    refine .inRoutine (Erases.runEach ?_)
    rw [List.forall₂_map_left_iff, List.forall₂_map_right_iff, List.forall₂_same]
    exact fun init _ => erases_lowerStatic decl.name decl.span init
  have members : Follows (List.map uncheckedMember)
      (fun members => ∀ member ∈ members, member.2.body.Short)
      (decl.methods.zipIdx.mapM (lowerMember (context.withNullChecks true) decl.name))
      (decl.methods.zipIdx.mapM (lowerMember (context.withNullChecks false) decl.name)) :=
    Follows.mapM fun method _ => follows_lowerMember decl.name method
  have kept {members : List (Bool × Method Stmt)} {keep : Bool × Method Stmt → Bool}
      (each : ∀ member ∈ members, member.2.body.Short) :
      ∀ routine ∈ (members.filter keep).map (·.2), routine.body.Short :=
    List.forall_mem_map.mpr fun member inside => each member (List.mem_filter.mp inside).1
  unfold lowerClass
  dsimp only
  rw [facts_withOptions, facts_withOptions]
  split
  · rename_i chain _
    refine statics.bind fun storages stored => ?_
    have ctor := short_ctorMembers decl.span chain
    split
    · rename_i vtable _
      refine members.bind fun routines short => ?_
      rw [constructors_unchecked, methods_unchecked]
      have none : (((routines.filter (·.1)).map (·.2)).map (Method.map Stmt.unchecked)).isEmpty =
          ((routines.filter (·.1)).map (·.2)).isEmpty := List.isEmpty_map
      rw [none]
      split
      · rw [map_eq_pure_bind, map_eq_pure_bind, bind_assoc, bind_assoc]
        refine (Follows.inRoutine (erases_synthesizedInit decl)).bind fun routine made => ?_
        exact .pure ⟨ctor, stored, List.forall_mem_singleton.mpr made, kept short⟩ rfl
      · exact .pure ⟨ctor, stored, kept short, kept short⟩ rfl
    · exact .fail
  · exact .fail

/-! ### Units -/

theorem follows_lowerClasses (index : Nat) (unit : SourceUnit) :
    Follows Lowered.CodeUnit.unchecked (fun tree => ∀ layout ∈ tree.classes, layout.Short)
      (lowerClasses (context.withNullChecks true) index unit)
      (lowerClasses (context.withNullChecks false) index unit) := by
  have classes : Follows (List.map ClassLayout.unchecked)
      (fun layouts => ∀ layout ∈ layouts, layout.Short)
      ((unit.classes.filter (context.facade.owns index ·.name)).mapM
        (lowerClass (context.withNullChecks true)))
      ((unit.classes.filter (context.facade.owns index ·.name)).mapM
        (lowerClass (context.withNullChecks false))) :=
    Follows.mapM fun decl _ => follows_lowerClass decl
  exact classes.bind fun _ short => .pure short rfl

end Lowering

open Lowering

variable {options : LoweringOptions} {facts : Facts}

/-- **A unit loses its null checks**, and nothing else. -/
theorem lowerUnit_withoutNullChecks (index : Nat) (unit : SourceUnit) (facade : Facade) :
    lowerUnit index unit facade facts { options with nullChecks := false } =
      Lowered.CodeUnit.unchecked <$>
        lowerUnit index unit facade facts { options with nullChecks := true } :=
  (@follows_lowerClasses ⟨facade, facts.mangle.sites index, facts, options⟩ index unit).follows

theorem lowerUnits_withoutNullChecks (start : Nat)
    (parts : List (SourceUnit × Facade)) :
    lowerUnits facts { options with nullChecks := false } start parts =
      List.map Lowered.CodeUnit.unchecked <$>
        lowerUnits facts { options with nullChecks := true } start parts := by
  induction parts generalizing start with
  | nil => rfl
  | cons part rest step =>
    unfold lowerUnits
    rw [lowerUnit_withoutNullChecks, step]
    cases lowerUnit start part.1 part.2 facts { options with nullChecks := true } with
    | error failure => rfl
    | ok first =>
      cases lowerUnits facts { options with nullChecks := true } (start + 1) rest with
      | error failure => rfl
      | ok others => rfl

/-- **Turning null checks off removes exactly the null checks.** Lowering a program without them
gives what lowering it with them gives, each block with a value without the null checks among its
statements, and each block that is left without statements replaced by its value. Temporaries keep
their names, nothing but bodies and initial values differs, and an error is the same error. -/
theorem null_checks_off_erases (units : List SourceUnit) (names : NameTable)
    (options : LoweringOptions) :
    lowerProgram names { options with nullChecks := false } (.ofUnits units) =
      List.map Lowered.CodeUnit.unchecked <$>
        lowerProgram names { options with nullChecks := true } (.ofUnits units) := by
  -- Computing the facts does not ask for checks.
  cases computed : (Program.ofUnits units).facts names options with
  | error error =>
    have failed (nullChecks : Bool) :
        lowerProgram names { options with nullChecks } (.ofUnits units) = .error (.program error) :=
      lowerProgram_of_error computed
    rw [failed, failed]
    rfl
  | ok facts =>
    have lowers (nullChecks : Bool) :
        lowerProgram names { options with nullChecks } (.ofUnits units) =
          ((Program.ofUnits units).lower facts { options with nullChecks }).mapError .unit :=
      lowerProgram_of_ok computed
    have follows : (Program.ofUnits units).lower facts { options with nullChecks := false } =
        List.map Lowered.CodeUnit.unchecked <$>
          (Program.ofUnits units).lower facts { options with nullChecks := true } :=
      lowerUnits_withoutNullChecks 0 _
    rw [lowers, lowers, follows]
    cases (Program.ofUnits units).lower facts { options with nullChecks := true } <;> rfl

end ObjectLowering
