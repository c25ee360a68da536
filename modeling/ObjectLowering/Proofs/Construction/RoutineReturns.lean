/-
**Construction routines and the entry point always return their value.**

A bare `return` in a construction routine hands the receiver back, and one in the entry point the
exit status zero. Both end in a return: where the last statement of the source is none, one is
appended that hands back the same. The other routines return as they are written.

* `Source.Stmt.returns` are the returns that are written in a statement.
* `Lowering.Returned` relates a written return to the value of the lowered one.
* `Source.Stmt.returns_lower`: a statement is lowered to one with its returns and no other.
* `Lowering.BodyReturns`: a body has the written returns, and behind them the appended one.
* **`returns_routines`**: so it is in every routine of a program, for each kind of routine.
-/

import ObjectLowering.Proofs.Construction.InitRuns
import ObjectLowering.Proofs.Construction.Returns

namespace ObjectLowering

open Source (SourceUnit)

namespace Source

mutual

/-- The returns that are written in a statement, with their places and their values. -/
def Stmt.returns : Stmt → List (Span × Option Expr)
  | .eval .. | .localVar .. => []
  | .block _ body => Stmt.returnsOfList body
  | .branch _ _ yes none => yes.returns
  | .branch _ _ yes (some no) => yes.returns ++ no.returns
  | .whileLoop _ _ body => body.returns
  | .forLoop _ init _ _ body => Stmt.returnsOfList init ++ body.returns
  | .ret span value => [(span, value)]

/-- The returns that are written in several statements. -/
def Stmt.returnsOfList : List Stmt → List (Span × Option Expr)
  | [] => []
  | stmt :: rest => stmt.returns ++ Stmt.returnsOfList rest

end

def Stmt.isReturn : Stmt → Bool
  | .ret .. => true
  | _ => false

/-- Whether the last of the statements is a return. -/
def Stmt.endInReturn (stmts : List Stmt) : Bool := stmts.getLast?.any (·.isReturn)

end Source

namespace Lowering

open Lowered (Expr Stmt)

variable {context : Context} {routine : Routine} {span : Span}

/-! ### Statements -/

/-- The value of the return that a written one is lowered to. A bare one hands back what is implicit
at its place; the value of another one is lowered. -/
inductive Returned (context : Context) (routine : Routine) (implicit : Span → Expr) :
    Span × Option Source.Expr → Expr → Prop
  | bare (span : Span) : Returned context routine implicit (span, none) (implicit span)
  | value {span : Span} {expr : Source.Expr} {lowered : Expr}
      (given : Gives (expr.lower context routine) lowered) (whole : lowered.Formed true) :
      Returned context routine implicit (span, some expr) lowered

/-- What a bare return hands back in a routine of this mode. -/
abbrev implicitAt (context : Context) (mode : Mode) (span : Span) : Expr :=
  implicitResult context span mode

/-- The values are those of the lowered returns, one by one. -/
abbrev ReturnedEach (context : Context) (routine : Routine)
    (returns : List (Span × Option Source.Expr)) (values : List Expr) : Prop :=
  List.Forall₂ (Returned context routine (implicitAt context routine.mode)) returns values

theorem returns_implicitResult (mode : Mode) : (implicitResult context span mode).returns = [] := by
  cases mode <;> rfl

theorem formed_of_gives {expr : Source.Expr} {lowered : Expr}
    (given : Gives (expr.lower context routine) lowered) : lowered.Formed true := by
  obtain ⟨start, stop, done⟩ := given
  have forms : Forms (fun _ => True) true (expr.lower context routine) :=
    expr.forms_lower routine fun _ _ => ⟨fun _ _ => trivial, fun _ => rfl⟩
  exact forms.ensures start lowered stop done

theorem returns_of_gives {expr : Source.Expr} {lowered : Expr}
    (given : Gives (expr.lower context routine) lowered) : lowered.returns = [] := by
  obtain ⟨start, stop, done⟩ := given
  exact expr.stays_lower context routine start lowered stop done

end Lowering

open Lowering

mutual

/-- **Lowering a statement keeps its returns and adds none.** -/
theorem Source.Stmt.returns_lower (context : Context) (routine : Routine) :
    ∀ stmt : Source.Stmt, Ensures (stmt.lower context routine) fun lowered =>
      ReturnedEach context routine stmt.returns lowered.returns
  | .eval _ expr => (expr.stays_lower context routine).bind fun value known => .pure <| by
    show ReturnedEach context routine [] value.returns
    rw [known]
    exact .nil
  | .localVar _ _ _ init =>
    (Source.Expr.stays_lowerOption context routine init).bind fun value known => .pure <| by
      show ReturnedEach context routine [] value.returns
      rw [known]
      exact .nil
  | .block _ body =>
    (Source.Stmt.returns_lowerEach context routine body).bind fun _ each =>
      .ignoreLength (.pure each)
  | .branch _ cond yes none =>
    (cond.stays_lower context routine).bind fun _ first =>
      (yes.returns_lower context routine).bind fun _ second => .pure <| by
        rw [returns, Lowered.Stmt.returns, first, List.nil_append, Lowered.Stmt.returns,
          List.append_nil]
        exact second
  | .branch _ cond yes (some no) =>
    (cond.stays_lower context routine).bind fun _ first =>
      (yes.returns_lower context routine).bind fun _ second =>
        (no.returns_lower context routine).bind fun _ third => .pure <| by
          rw [returns, Lowered.Stmt.returns, first, List.nil_append]
          exact List.rel_append second third
  | .whileLoop _ cond body =>
    (cond.stays_lower context routine).bind fun _ first =>
      (body.returns_lower context routine).bind fun _ second => .pure <| by
        rw [returns, Lowered.Stmt.returns, first, List.nil_append]
        exact second
  | .forLoop _ init cond update body => by
    refine (Source.Stmt.returns_lowerEach context routine init).bind fun _ first => ?_
    refine .ignoreLength ?_
    refine (Source.Expr.stays_lowerOption context routine cond).bind fun _ second => ?_
    refine (returns_argList (Source.Expr.stays_lowerEach context routine update)).bind ?_
    intro _ third
    refine (body.returns_lower context routine).bind fun _ fourth => .pure ?_
    rw [returns, Lowered.Stmt.returns, second, third, List.append_nil, List.append_nil]
    exact List.rel_append first fourth
  | .ret span none => .pure <| by
    rw [returns, Lowered.Stmt.returns, returns_implicitResult]
    exact .cons (.bare span) .nil
  | .ret _ (some value) => (ensures_gives _).bind fun lowered given => .pure <| by
    rw [returns, Lowered.Stmt.returns, returns_of_gives given]
    exact .cons (.value given (formed_of_gives given)) .nil

theorem Source.Stmt.returns_lowerEach (context : Context) (routine : Routine) :
    ∀ stmts : List Source.Stmt,
      Ensures (runEach (Source.Stmt.lowerEach context routine stmts)) fun lowered =>
        ReturnedEach context routine (Source.Stmt.returnsOfList stmts)
          (Lowered.Stmt.returnsOfList lowered)
  | [] => .pure .nil
  | stmt :: rest =>
    (stmt.returns_lower context routine).bind fun _ first =>
      (Source.Stmt.returns_lowerEach context routine rest).bind fun _ others =>
        .pure (List.rel_append first others)

end

/-- A statement is lowered to a return exactly if it is one. -/
theorem Source.Stmt.isReturn_lower (context : Context) (routine : Routine) (stmt : Source.Stmt) :
    Ensures (stmt.lower context routine) fun lowered => lowered.isReturn = stmt.isReturn := by
  cases stmt with
  | eval _ expr => exact .after fun _ => .pure rfl
  | localVar _ _ _ init => exact .after fun _ => .pure rfl
  | block _ body => exact .after fun _ => .ignoreLength (.pure rfl)
  | branch _ cond yes no =>
    cases no with
    | none => exact .after fun _ => .after fun _ => .pure rfl
    | some no => exact .after fun _ => .after fun _ => .after fun _ => .pure rfl
  | whileLoop _ cond body => exact .after fun _ => .after fun _ => .pure rfl
  | forLoop _ init cond update body =>
    refine .after fun _ => .ignoreLength ?_
    exact .after fun _ => .after fun _ => .after fun _ => .pure rfl
  | ret _ value =>
    cases value with
    | none => exact .pure rfl
    | some value => exact .after fun _ => .pure rfl

namespace Lowering

open Lowered (Expr Stmt)

variable {context : Context} {routine : Routine} {span : Span}

/-! ### Bodies -/

/-- What is lowered last is a return exactly if what is written last is one. -/
theorem getLast?_isReturn {stmts : List Source.Stmt} {lowered : List Stmt}
    (each : List.Forall₂ (fun stmt result => Stmt.isReturn result = stmt.isReturn) stmts lowered) :
    lowered.getLast?.any (·.isReturn) = Source.Stmt.endInReturn stmts := by
  unfold Source.Stmt.endInReturn
  induction each with
  | nil => rfl
  | @cons stmt result rest others here there step =>
    cases there with
    | nil => exact here
    | cons _ _ =>
      rw [List.getLast?_cons_cons, List.getLast?_cons_cons]
      exact step

/-- The statements neither return nor contain a return. -/
def Continue (stmts : List Stmt) : Prop := ∀ stmt ∈ stmts, stmt.returns = [] ∧ stmt.isReturn = false

theorem getLast?_behind {start user : List Stmt} (continues : Continue start) :
    (start ++ user).getLast?.any (·.isReturn) = user.getLast?.any (·.isReturn) := by
  rw [List.getLast?_append]
  cases last : user.getLast? with
  | some stmt => rfl
  | none =>
    rw [Option.none_or]
    cases inFront : start.getLast? with
    | none => rfl
    | some stmt => exact (continues stmt (List.mem_of_getLast? inFront)).2

/-- The value of the return that is appended to a body, if one is. -/
def appended (context : Context) (routine : Routine) (span : Span) (stmts : List Source.Stmt) :
    List Expr :=
  if (routine.inConstructor || routine.inEntry) && !Source.Stmt.endInReturn stmts then
    [implicitResult context span routine.mode]
  else []

/-- The returns of a body: those that are written, then the one that is appended, which is its last
statement. -/
structure BodyReturns (context : Context) (routine : Routine) (span : Span)
    (stmts : List Source.Stmt) (body : Stmt) : Prop where
  returns : ∃ values, body.returns = values ++ appended context routine span stmts ∧
    ReturnedEach context routine (Source.Stmt.returnsOfList stmts) values
  last : (routine.inConstructor || routine.inEntry) = true →
    ∃ front value, body = .block (front ++ [.ret value])

/-- What is appended depends on the last written statement alone. -/
theorem finalReturn_eq {start user : List Stmt} {stmts : List Source.Stmt}
    (continues : Continue start)
    (each : List.Forall₂ (fun stmt result => Stmt.isReturn result = stmt.isReturn) stmts user) :
    finalReturn context routine span (start ++ user) =
      (appended context routine span stmts).map .ret := by
  unfold finalReturn appended
  rw [getLast?_behind continues, getLast?_isReturn each]
  split <;> rfl

theorem returns_appended (stmts : List Source.Stmt) :
    Stmt.returnsOfList ((appended context routine span stmts).map .ret) =
      appended context routine span stmts := by
  unfold appended
  split
  · rw [List.map_singleton, Stmt.returnsOfList_singleton, Stmt.returns, returns_implicitResult]
    rfl
  · rfl

/-- A body in which a return is appended where none is last ends in one. -/
theorem endsInReturn_of_appended {start user : List Stmt} {stmts : List Source.Stmt}
    (continues : Continue start)
    (each : List.Forall₂ (fun stmt result => Stmt.isReturn result = stmt.isReturn) stmts user)
    (needed : (routine.inConstructor || routine.inEntry) = true) :
    ∃ front value, start ++ user ++ (appended context routine span stmts).map .ret =
      front ++ [Stmt.ret value] := by
  unfold appended
  rw [needed, Bool.true_and]
  cases ends : Source.Stmt.endInReturn stmts with
  | false => exact ⟨start ++ user, _, rfl⟩
  | true =>
    have known : (start ++ user).getLast?.any (·.isReturn) = true := by
      rw [getLast?_behind continues, getLast?_isReturn each, ends]
    obtain ⟨stmt, last, isReturn⟩ := (Option.any_eq_true _ _).mp known
    obtain ⟨front, shape⟩ := List.getLast?_eq_some_iff.mp last
    cases stmt with
    | ret value => exact ⟨front, value, by rw [shape]; exact List.append_nil _⟩
    | _ => cases isReturn

/-- **A body has the written returns, and the appended one behind them.** -/
theorem returns_lowerBody {start : List Stmt} (continues : Continue start)
    (source : Option Source.Stmt) :
    Ensures (lowerBody context routine span start source)
      (BodyReturns context routine span (bodyStmts source)) := by
  have lowered : Ensures (runEach ((bodyStmts source).map (·.lower context routine)))
      fun user => List.Forall₂ (fun stmt result => Stmt.isReturn result = stmt.isReturn)
        (bodyStmts source) user ∧ ReturnedEach context routine
          (Source.Stmt.returnsOfList (bodyStmts source)) (Stmt.returnsOfList user) := by
    intro first user stop done
    refine ⟨ensures_runMap (Source.Stmt.isReturn_lower context routine) first user stop done, ?_⟩
    rw [← Source.Stmt.lowerEach_eq_map] at done
    exact Source.Stmt.returns_lowerEach context routine _ first user stop done
  refine lowered.bind fun user ⟨each, values⟩ => .ignoreLength (.pure ?_)
  rw [finalReturn_eq continues each]
  have before : Stmt.returnsOfList start = [] :=
    Stmt.returnsOfList_of_forall fun stmt inside => (continues stmt inside).1
  refine ⟨⟨Stmt.returnsOfList user, ?_, values⟩, fun needed => ?_⟩
  · rw [Stmt.returns, Stmt.returnsOfList_append, Stmt.returnsOfList_append, before,
      returns_appended, List.nil_append]
  · obtain ⟨front, value, shape⟩ := endsInReturn_of_appended continues each needed
    exact ⟨front, value, congrArg Stmt.block shape⟩

/-- The start of a construction routine constructs and assigns. -/
theorem continue_of_begins {start : List Stmt} (begins : Begins context routine span start) :
    Continue start := by
  cases begins with
  | chained _ => exact List.forall_mem_nil _
  | prologue _ _ assigned =>
    refine List.forall_mem_cons.mpr ⟨⟨rfl, rfl⟩, ?_⟩
    refine forall_of_forall₂ assigned ?_
    rintro field _ ⟨value, given, rfl⟩
    refine ⟨?_, rfl⟩
    show ([] ++ value.returns) = []
    rw [returns_of_gives given]
    rfl

/-! ### Routines -/

/-- The body ends in a return, every return in it has a value, and that of a bare or appended one is
implicit. One is appended unless the last statement that is written is a return. -/
structure AlwaysReturns (context : Context) (routine : Routine) (span : Span)
    (implicit : Span → Expr) (stmts : List Source.Stmt) (body : Stmt) : Prop where
  last : ∃ front value, body = .block (front ++ [.ret value])
  returns : ∃ values, body.returns =
      values ++ (if Source.Stmt.endInReturn stmts then [] else [implicit span]) ∧
    List.Forall₂ (Returned context routine implicit) (Source.Stmt.returnsOfList stmts) values
  valid : ∀ value ∈ body.returns, value.Formed true

/-- The body returns where it is written so, and a return lacks its value exactly if it is bare. -/
def ReturnsAsWritten (context : Context) (routine : Routine) (stmts : List Source.Stmt)
    (body : Stmt) : Prop :=
  List.Forall₂
    (fun written value => Returned context routine (fun _ => .absent) written value ∧
      (value = .absent ↔ written.2 = none))
    (Source.Stmt.returnsOfList stmts) body.returns

theorem BodyReturns.always {stmts : List Source.Stmt} {body : Stmt}
    (known : BodyReturns context routine span stmts body) {implicit : Span → Expr}
    (needed : (routine.inConstructor || routine.inEntry) = true)
    (same : ∀ span, implicitResult context span routine.mode = implicit span)
    (whole : ∀ span, (implicit span).Formed true) :
    AlwaysReturns context routine span implicit stmts body := by
  obtain ⟨⟨values, shape, each⟩, last⟩ := known
  unfold ReturnedEach implicitAt at each
  have implied : appended context routine span stmts =
      if Source.Stmt.endInReturn stmts then [] else [implicit span] := by
    unfold appended
    rw [needed, same]
    cases Source.Stmt.endInReturn stmts <;> rfl
  simp only [same] at each
  refine ⟨last needed, ⟨values, implied ▸ shape, each⟩, ?_⟩
  rw [shape, implied, List.forall_mem_append]
  constructor
  · refine forall_of_forall₂ each fun written value returned => ?_
    cases returned with
    | bare span => exact whole span
    | value _ formed => exact formed
  · intro value inside
    split at inside
    · cases inside
    · cases List.mem_singleton.mp inside
      exact whole span

theorem BodyReturns.asWritten {stmts : List Source.Stmt} {body : Stmt}
    (known : BodyReturns context routine span stmts body)
    (unneeded : (routine.inConstructor || routine.inEntry) = false)
    (same : ∀ span, implicitResult context span routine.mode = .absent) :
    ReturnsAsWritten context routine stmts body := by
  obtain ⟨⟨values, shape, each⟩, _⟩ := known
  have none : appended context routine span stmts = [] := by
    unfold appended
    rw [unneeded]
    rfl
  unfold ReturnedEach implicitAt at each
  simp only [same] at each
  unfold ReturnsAsWritten
  rw [shape, none, List.append_nil]
  refine each.imp fun written value returned => ⟨returned, ?_⟩
  cases returned with
  | bare span => exact ⟨fun _ => rfl, fun _ => rfl⟩
  | value _ formed =>
    refine ⟨fun missing => ?_, fun bare => nomatch bare⟩
    rw [missing] at formed
    exact formed.elim

variable {decl : Source.ClassDecl}

/-- The receiver parameter, where a bare return stands. -/
def receiverAt (options : LoweringOptions) (span : Span) : Expr := .localVar span options.selfParam

/-- The exit status zero, where a bare return stands. -/
def zeroAt (span : Span) : Expr := .int span 0

/-- A construction routine hands the receiver back, its first parameter. -/
structure ReturnsReceiverAlways (context : Context) (decl : Source.ClassDecl)
    (source : Option (Source.MethodDecl × Nat)) (result : Lowered.Method Stmt) : Prop where
  isInit : result.kind = .init
  receives : result.params.head? = some (receiverParam context decl.name)
  returns : AlwaysReturns context (routineOf decl source) (spanOf decl source)
    (receiverAt context.options) (stmtsOf source) result.body

theorem always_of_construction (context : Context) (decl : Source.ClassDecl)
    (source : Option (Source.MethodDecl × Nat)) {start : List Stmt} (continues : Continue start) :
    Ensures (lowerBody context (routineOf decl source) (spanOf decl source) start
      (source.map (·.1.body)))
      (AlwaysReturns context (routineOf decl source) (spanOf decl source)
        (receiverAt context.options) (stmtsOf source)) := by
  refine (returns_lowerBody continues _).mono fun _ known => ?_
  refine known.always ?_ ?_ fun _ => trivial
  · unfold Routine.inConstructor
    rw [mode_routineOf]
    rfl
  · intro span
    rw [mode_routineOf]
    rfl

theorem returns_lowerConstruction (source : Option (Source.MethodDecl × Nat)) :
    Ensures (lowerConstruction context decl source)
      (ReturnsReceiverAlways context decl source) := by
  rw [lowerConstruction_eq]
  refine ensures_startOf.bind fun start begins => ?_
  have body := always_of_construction context decl source (continue_of_begins begins)
  exact body.bind fun _ returns => .pure ⟨rfl, rfl, returns⟩

/-- What a method is lowered as. -/
def methodRoutine (context : Context) (owner : Name) (method : Source.MethodDecl × Nat) : Routine :=
  ⟨owner, some ⟨owner, method.2⟩, modeOf context method.1, false⟩

/-- The entry point hands an exit status back, and any other method returns as it is written. -/
structure MethodReturns (context : Context) (owner : Name) (method : Source.MethodDecl × Nat)
    (result : Lowered.Method Stmt) : Prop where
  kind : result.kind = kindOf (modeOf context method.1)
  isMethod : result.kind ≠ .init
  entry : result.kind = .entry → AlwaysReturns context (methodRoutine context owner method)
    method.1.span zeroAt (bodyStmts (some method.1.body)) result.body
  plain : result.kind = .instanceMethod ∨ result.kind = .static →
    ReturnsAsWritten context (methodRoutine context owner method)
      (bodyStmts (some method.1.body)) result.body

theorem returns_lowerMethod (owner : Name) (method : Source.MethodDecl × Nat) :
    Ensures (lowerMethod context owner method.2 method.1) (MethodReturns context owner method) := by
  have body : Ensures (lowerBody context (methodRoutine context owner method) method.1.span []
      (some method.1.body)) (BodyReturns context (methodRoutine context owner method) method.1.span
        (bodyStmts (some method.1.body))) := returns_lowerBody (List.forall_mem_nil _) _
  refine body.bind fun lowered known => .pure ?_
  cases mode : modeOf context method.1 with
  | constructor =>
    unfold modeOf at mode
    split at mode
    · cases mode
    · split at mode <;> cases mode
  | entry =>
    refine ⟨congrArg kindOf mode.symm, fun never => ?_, fun _ => ?_, fun other => ?_⟩
    · cases never
    · refine known.always ?_ (fun _ => ?_) fun _ => trivial
      · unfold methodRoutine Routine.inEntry
        rw [mode, Bool.or_eq_true]
        exact .inr rfl
      · unfold methodRoutine
        rw [mode]
        rfl
    · rcases other with never | never <;> cases never
  | _ =>
    refine ⟨congrArg kindOf mode.symm, fun never => ?_, fun never => ?_, fun _ => ?_⟩
    · cases never
    · cases never
    · refine known.asWritten ?_ fun _ => ?_
      · unfold methodRoutine Routine.inConstructor Routine.inEntry
        rw [mode]
        rfl
      · unfold methodRoutine
        rw [mode]
        rfl

end Lowering

open Lowering

/-- **Construction routines and the entry point always return their value.** Each construction
routine ends in a return and hands the receiver back where a return is bare or appended; so does the
entry point with the integer zero. Any other routine returns where its source does, and without a
value exactly where the source has none. -/
theorem returns_routines {units : List SourceUnit} {facts : Facts} {options : LoweringOptions}
    {lowered : List Lowered.TreeUnit}
    (done : (Program.ofUnits units).lower facts options = .ok lowered) :
    List.Forall₂ (fun (place : PlacedClass) layout =>
        List.Forall₂
          (ReturnsReceiverAlways
            (Program.contextAt units facts options place.index place.unit) place.decl)
          (constructions place.decl) layout.inits ∧
        List.Forall₂
          (MethodReturns
            (Program.contextAt units facts options place.index place.unit) place.decl.name)
          (place.decl.methods.zipIdx.filter (!·.1.isConstructorOf place.decl.name))
          layout.methods)
      (Program.placed units) (lowered.flatMap (·.classes)) := by
  refine (Program.ok_of_lower done).imp fun place layout built => ?_
  obtain ⟨_, _, _, _, inits, methods⟩ := lays_of_lowerClass built
  constructor
  · exact inits.imp fun source _ made => (returns_lowerConstruction source).of_inRoutine made
  · exact methods.imp fun method _ made =>
      (returns_lowerMethod place.decl.name method).of_inRoutine made

/-- A class whose constructor, entry point and method all have a bare return within a statement. -/
def Source.ClassDecl.leaver : ClassDecl where
  name := "Leaver"
  parent := none
  fields := []
  span := ⟨0, 1⟩
  methods := [
    { name := "Leaver", params := [], ret := .void, modifiers := {}, span := ⟨6, 7⟩
      body := .block ⟨5, 6⟩ [.branch ⟨4, 5⟩ (.bool ⟨0, 2, 3⟩ true) (.ret ⟨3, 4⟩ none) none] },
    { name := "main", params := [], ret := .void, modifiers := { isStatic := true }
      span := ⟨12, 13⟩
      body := .block ⟨11, 12⟩ [.whileLoop ⟨10, 11⟩ (.bool ⟨1, 8, 9⟩ true) (.ret ⟨9, 10⟩ none)] },
    { name := "leave", params := [], ret := .void, modifiers := {}, span := ⟨15, 16⟩
      body := .block ⟨14, 15⟩ [.ret ⟨13, 14⟩ none] }]

def Source.SourceUnit.leaver : SourceUnit where
  path := "Leaver"
  package := []
  imports := []
  classes := [.leaver]
  nodes := #[.bool ⟨0, 2, 3⟩ true, .bool ⟨1, 8, 9⟩ true]
  stmtCount := 8

/-- Its constructor returns the receiver twice, its entry point zero, and its method nothing. -/
theorem returns_routines_leaver :
    ∃ facts lowered layout, (Program.ofUnits [.leaver]).facts ⟨["Leaver"]⟩ {} = .ok facts ∧
      (Program.ofUnits [.leaver]).lower facts {} = .ok lowered ∧
      lowered.flatMap (·.classes) = [layout] ∧
      layout.inits.map (·.body.returns) =
        [[.localVar ⟨3, 4⟩ "__this", .localVar ⟨6, 7⟩ "__this"]] ∧
      layout.methods.map (·.body.returns) =
        [[.int ⟨9, 10⟩ 0, .int ⟨12, 13⟩ 0], [.absent]] := by
  obtain ⟨facts, lowered, computed, done⟩ :=
    Program.exists_lowered [.leaver] ⟨["Leaver"]⟩ {} (by decide +kernel)
  have each := returns_routines done
  rw [show Program.placed [.leaver] = [⟨0, .leaver, .leaver⟩] from rfl] at each
  obtain ⟨layout, _, ⟨inits, methods⟩, none, classes⟩ := List.forall₂_cons_left_iff.mp each
  obtain rfl := List.forall₂_nil_left_iff.mp none
  refine ⟨facts, lowered, layout, computed, done, classes, ?_, ?_⟩
  · obtain ⟨made, _, known, none, shape⟩ := List.forall₂_cons_left_iff.mp inits
    obtain rfl := List.forall₂_nil_left_iff.mp none
    obtain ⟨values, returns, each⟩ := known.returns.returns
    obtain ⟨_, _, ⟨⟩, behind, rfl⟩ := List.forall₂_cons_left_iff.mp each
    obtain rfl := List.forall₂_nil_left_iff.mp behind
    rw [shape, List.map_singleton, returns]
    rfl
  · obtain ⟨main, _, known, others, shape⟩ := List.forall₂_cons_left_iff.mp methods
    obtain ⟨leave, _, knownToo, none, rfl⟩ := List.forall₂_cons_left_iff.mp others
    obtain rfl := List.forall₂_nil_left_iff.mp none
    obtain ⟨values, returns, each⟩ := (known.entry known.kind).returns
    obtain ⟨_, _, ⟨⟩, behind, rfl⟩ := List.forall₂_cons_left_iff.mp each
    obtain rfl := List.forall₂_nil_left_iff.mp behind
    obtain ⟨_, _, ⟨⟨⟩, _⟩, behind, written⟩ :=
      List.forall₂_cons_left_iff.mp (knownToo.plain (.inl knownToo.kind))
    obtain rfl := List.forall₂_nil_left_iff.mp behind
    rw [shape, List.map_cons, List.map_singleton, returns, written]
    rfl

end ObjectLowering
