/-
**Where checks are asked for, a lowered unit makes no access without its check.**

A walk takes `this` and `super` for objects of a class, so nothing asks for their length as if they
were arrays. That is all that the facade has to be right about: whatever else it hides or forces,
every form that lowering makes is behind its checks, and so are the values and bodies of every class
of the unit.

* `Lowering.Context.Receives`: a receiver is not taken for an array.
* `Source.Expr.guards_lower`, `Source.Stmt.counts_lower`: trees are lowered behind their checks.
* `Lowering.counts_lowerMethod`, `Lowering.counts_lowerConstruction`, …: what makes up a class.
* `Program.receives_nodes`: no receiver of a class that counts is taken for an array.
* **`accesses_checked`**: every access in a lowered unit is behind its check.
-/

import ObjectLowering.Proofs.Arrays.FilledArrays
import ObjectLowering.Proofs.Lowering.Total

namespace ObjectLowering

open Source (SourceUnit ClassDecl MethodDecl)
open Lowering

/-! ### Trees -/

/-- The receiver of a routine is not taken for an array. -/
def Lowering.Context.Receives (context : Context) (node : Source.Expr) : Prop :=
  node.isReceiver = true → (context.facade.exprType node.id).any (·.isArray) = false

section Trees

variable {context : Context} {routine : Routine}

/-- A part of an expression lowers alike again if it is pure. -/
theorem Lowering.guards_part {expr : Source.Expr}
    (guards : Guards context (expr.lower context routine)) :
    Part.Guards context ⟨expr, expr.lower context routine⟩ :=
  ⟨guards, expr.steady_lower context routine⟩

mutual

/-- **An expression is lowered behind its checks.** -/
theorem Source.Expr.guards_lower (checks : context.Checks) : ∀ expr : Source.Expr,
    (∀ node ∈ expr.nodes, context.Receives node) → Guards context (expr.lower context routine)
  | .int .., _ | .float .., _ | .bool .., _ | .char .., _ | .str .., _ | .null _, _ =>
    .pure fun _ => trivial
  | .this _, _ | .super _, _ => .pure fun _ => trivial
  | .ident tag name, _ => .pure (isGuarded_identifier tag name)
  | .field tag receiver name, receives => by
    rw [nodes, List.forall_mem_cons] at receives
    -- The one place where a type decides: the length of a receiver would go unchecked.
    have guards := guards_part (receiver.guards_lower checks receives.2)
    exact guards_memberAccess checks tag name guards (receives.2 receiver receiver.mem_nodes)
  | .call tag none method args, receives => by
    rw [nodes, List.forall_mem_cons] at receives
    exact guards_lowerCall checks routine
      ⟨fun _ written => (nomatch written), Source.Expr.guards_lowerEach checks args receives.2⟩
  | .call tag (some receiver) method args, receives => by
    rw [nodes, List.forall_mem_cons, List.forall_mem_append] at receives
    refine guards_lowerCall checks routine ⟨?_, ?_⟩
    · rintro _ ⟨⟩
      exact guards_part (receiver.guards_lower checks receives.2.1)
    · exact Source.Expr.guards_lowerEach checks args receives.2.2
  | .chain tag target args, receives => by
    rw [nodes, List.forall_mem_cons] at receives
    exact guards_chainCall routine tag.span target
      (Source.Expr.guards_lowerEach checks args receives.2)
  | .newObject tag className args, receives => by
    rw [nodes, List.forall_mem_cons] at receives
    exact guards_lowerNewObject tag.span className
      (Source.Expr.guards_lowerEach checks args receives.2)
  | .newArray tag element dims extra, receives => by
    rw [nodes, List.forall_mem_cons] at receives
    exact guards_lowerNewArray checks tag.span element extra
      (Source.Expr.guards_lowerEach checks dims receives.2)
  | .index tag array position, receives => by
    rw [nodes, List.forall_mem_cons, List.forall_mem_append] at receives
    exact guards_readElement checks tag.span (guards_part (array.guards_lower checks receives.2.1))
      (guards_part (position.guards_lower checks receives.2.2))
  | .assign tag target value, receives => by
    rw [nodes, List.forall_mem_cons, List.forall_mem_append] at receives
    obtain ⟨first, second⟩ := receives.2
    rw [lower.eq_def]
    dsimp only
    split
    · rename_i array position
      rw [nodes, List.forall_mem_cons, List.forall_mem_append] at first
      exact guards_store checks tag.span (guards_part (array.guards_lower checks first.2.1))
        (guards_part (position.guards_lower checks first.2.2))
        (guards_part (value.guards_lower checks second))
    · exact (target.guards_lower checks first).bind fun _ here =>
        (value.guards_lower checks second).bind fun _ there =>
          .pure fun scope => ⟨there scope, .inl (here scope)⟩
  | .binary tag op left right, receives => by
    rw [nodes, List.forall_mem_cons, List.forall_mem_append] at receives
    exact (left.guards_lower checks receives.2.1).bind fun _ here =>
      (right.guards_lower checks receives.2.2).bind fun _ there =>
        .pure fun scope => ⟨here scope, there scope⟩
  | .unary tag op operand, receives => by
    rw [nodes, List.forall_mem_cons] at receives
    have below := receives.2
    rw [lower.eq_def]
    dsimp only
    split
    · rename_i array position _
      rw [nodes, List.forall_mem_cons, List.forall_mem_append] at below
      exact guards_updateElement checks tag.span op
        (guards_part (array.guards_lower checks below.2.1))
        (guards_part (position.guards_lower checks below.2.2))
    · rename_i inner _ _ _
      exact (inner.guards_lower checks below).bind fun _ guarded => .pure guarded
  | .cast _ _ operand, receives | .instanceOf _ operand _, receives => by
    rw [nodes, List.forall_mem_cons] at receives
    exact (operand.guards_lower checks receives.2).bind fun _ guarded => .pure guarded

theorem Source.Expr.guards_lowerEach (checks : context.Checks) : ∀ exprs : List Source.Expr,
    (∀ node ∈ Source.Expr.nodesOfList exprs, context.Receives node) →
      ∀ step ∈ Source.Expr.lowerEach context routine exprs, Guards context step
  | [], _ => fun _ member => nomatch member
  | expr :: rest, receives => by
    rw [nodesOfList, List.forall_mem_append] at receives
    rw [lowerEach, List.forall_mem_cons]
    exact ⟨expr.guards_lower checks receives.1,
      Source.Expr.guards_lowerEach checks rest receives.2⟩

end

theorem Source.Expr.guards_lowerOption (checks : context.Checks) (expr : Option Source.Expr)
    (receives : ∀ node ∈ Source.Expr.nodesOfOption expr, context.Receives node) :
    Guards context (Source.Expr.lowerOption context routine expr) := by
  cases expr with
  | none => exact .pure fun _ => trivial
  | some expr => exact expr.guards_lower checks receives

theorem Lowering.isGuarded_implicitResult (span : Span) (mode : Mode) :
    IsGuarded context (implicitResult context span mode) := by
  cases mode <;> exact fun _ => trivial

mutual

/-- **A statement is lowered behind its checks.** -/
theorem Source.Stmt.counts_lower (checks : context.Checks) : ∀ stmt : Source.Stmt,
    (∀ node ∈ stmt.nodes, context.Receives node) →
      Counts (stmt.lower context routine) (IsGuardedStmt context)
  | .eval _ expr, receives =>
    (expr.guards_lower checks receives).bind fun _ guarded => .pure guarded
  | .localVar _ _ _ init, receives =>
    (Source.Expr.guards_lowerOption checks init receives).bind fun _ guarded =>
      .pure guarded
  | .block _ body, receives =>
    (Counts.runAll (Source.Stmt.counts_lowerEach checks body receives)).bind fun _ guarded =>
      (Counts.checkLength _ _).bind fun _ _ => .pure (areGuarded_of_forall guarded)
  | .branch _ cond yes none, receives => by
    rw [nodes, List.forall_mem_append] at receives
    exact (cond.guards_lower checks receives.1).bind fun _ first =>
      (yes.counts_lower checks receives.2).bind fun _ second =>
        .pure fun scope => ⟨first scope, second scope, trivial⟩
  | .branch _ cond yes (some no), receives => by
    rw [nodes, List.forall_mem_append, List.forall_mem_append] at receives
    exact (cond.guards_lower checks receives.1.1).bind fun _ first =>
      (yes.counts_lower checks receives.1.2).bind fun _ second =>
        (no.counts_lower checks receives.2).bind fun _ third =>
          .pure fun scope => ⟨first scope, second scope, third scope⟩
  | .whileLoop _ cond body, receives => by
    rw [nodes, List.forall_mem_append] at receives
    exact (cond.guards_lower checks receives.1).bind fun _ first =>
      (body.counts_lower checks receives.2).bind fun _ second =>
        .pure fun scope => ⟨first scope, second scope⟩
  | .forLoop _ init cond update body, receives => by
    rw [nodes, List.forall_mem_append, List.forall_mem_append, List.forall_mem_append] at receives
    obtain ⟨⟨⟨inits, condition⟩, updates⟩, below⟩ := receives
    refine (Counts.runAll (Source.Stmt.counts_lowerEach checks init inits)).bind fun _ first => ?_
    refine (Counts.checkLength _ _).bind fun _ _ => ?_
    refine (Source.Expr.guards_lowerOption checks cond condition).bind fun _ second => ?_
    refine (counts_argList (Source.Expr.guards_lowerEach checks update updates)).bind ?_
    intro _ third
    refine (body.counts_lower checks below).bind fun _ fourth => .pure fun scope => ?_
    -- A body from the source needs nothing of what the head of its loop may vouch for.
    exact ⟨areGuarded_of_forall first scope, second _, allGuarded_of_forall third _,
      (fourth _).mono _⟩
  | .ret span none, _ => .pure (isGuarded_implicitResult span routine.mode)
  | .ret _ (some value), receives =>
    (value.guards_lower checks receives).bind fun _ guarded => .pure guarded

theorem Source.Stmt.counts_lowerEach (checks : context.Checks) : ∀ stmts : List Source.Stmt,
    (∀ node ∈ Source.Stmt.nodesOfList stmts, context.Receives node) →
      ∀ step ∈ Source.Stmt.lowerEach context routine stmts, Counts step (IsGuardedStmt context)
  | [], _ => fun _ member => nomatch member
  | stmt :: rest, receives => by
    rw [nodesOfList, List.forall_mem_append] at receives
    rw [lowerEach, List.forall_mem_cons]
    exact ⟨stmt.counts_lower checks receives.1,
      Source.Stmt.counts_lowerEach checks rest receives.2⟩

end

end Trees

/-! ### Classes -/

namespace Lowered

/-- The values and bodies of a class are behind their checks. -/
structure ClassLayout.Guarded (self : Name) (layout : ClassLayout Expr Stmt) : Prop where
  values : ∀ member ∈ layout.ctor, ∀ value, member.value? = some value →
    value.Guarded self [] .none
  statics : ∀ storage ∈ layout.statics, storage.init.Guarded self [] .none
  routines : ∀ routine ∈ layout.routines, routine.body.Guarded self [] .none

end Lowered

namespace Lowering

open Lowered (Expr Stmt Method ClassLayout)

section Routines

variable {context : Context} (checks : context.Checks) {routine : Routine}

theorem isGuarded_defaultExpr (span : Span) (default : DefaultLiteral) :
    IsGuarded context (defaultExpr span default) := by
  cases default <;> exact fun _ => trivial

include checks

theorem counts_lowerBody (span : Span) {start : List Stmt} {body : Option Source.Stmt}
    (before : AreGuarded context start)
    (receives : ∀ stmt ∈ bodyStmts body, ∀ node ∈ stmt.nodes, context.Receives node) :
    Counts (lowerBody context routine span start body) (IsGuardedStmt context) := by
  have each : ∀ step ∈ (bodyStmts body).map (·.lower context routine),
      Counts step (IsGuardedStmt context) :=
    List.forall_mem_map.mpr fun stmt inside => stmt.counts_lower checks (receives stmt inside)
  have final (stmts : List Stmt) :
      AreGuarded context (finalReturn context routine span stmts) := by
    unfold finalReturn
    split
    · exact isGuarded_implicitResult span routine.mode
    · exact fun _ => trivial
  refine (Counts.runAll each).bind fun stmts guarded => ?_
  have all := before.append (areGuarded_of_forall guarded)
  exact (Counts.checkLength _ _).bind fun _ _ => .pure (all.append (final _))

/-- The body of a declaration, behind statements that come first. -/
theorem counts_declaredBody (span : Span) {start : List Stmt} {body : Source.Stmt}
    (before : AreGuarded context start)
    (receives : ∀ node ∈ body.nodes, context.Receives node) :
    Counts (lowerBody context routine span start (some body)) (IsGuardedStmt context) :=
  counts_lowerBody checks span before fun _ inside node member =>
    receives node (mem_nodes_of_mem_bodyStmts inside member)

theorem counts_assignField (span : Span) {field : Name × Source.Expr}
    (receives : ∀ node ∈ field.2.nodes, context.Receives node) :
    Counts (assignField context routine span field) (IsGuardedStmt context) :=
  (field.2.guards_lower checks receives).bind fun _ guarded =>
    .pure fun scope => ⟨guarded scope, .inl trivial⟩

theorem counts_prologue (span : Span)
    (receives : ∀ chain, context.facts.chains.instance? routine.className = some chain →
      ∀ field ∈ ownValues routine.className chain, ∀ node ∈ field.2.nodes,
        context.Receives node) :
    Counts (prologue context routine span) (AreGuarded context) := by
  unfold prologue
  dsimp only
  split
  · exact .fail
  · rename_i chain resolved
    have each : ∀ step ∈ (ownValues routine.className chain).map (assignField context routine span),
        Counts step (IsGuardedStmt context) := List.forall_mem_map.mpr fun field inside =>
      counts_assignField checks span (receives chain resolved field inside)
    exact (Counts.runAll each).bind fun _ guarded =>
      .pure (areGuarded_cons (fun _ => ⟨trivial, trivial⟩) (areGuarded_of_forall guarded))

end Routines

/-- What lowering a class reads takes no receiver for an array: its own expressions and the values
of its fields. -/
structure ClassReceives (context : Context) (decl : ClassDecl) : Prop where
  nodes : ∀ node ∈ decl.nodes, context.Receives node
  values : ∀ chain, context.facts.chains.instance? decl.name = some chain →
    ∀ field ∈ ownValues decl.name chain, ∀ node ∈ field.2.nodes, context.Receives node
  statics : ∀ init ∈ context.facts.chains.statics decl.name, ∀ value, init.value = some value →
    ∀ node ∈ value.nodes, context.Receives node

section Classes

variable {context : Context} {decl : ClassDecl} (checks : context.Checks)
  (receives : ClassReceives context decl)

theorem ClassReceives.body (receives : ClassReceives context decl) {method : MethodDecl}
    (declared : method ∈ decl.methods) : ∀ node ∈ method.body.nodes, context.Receives node :=
  fun node member => receives.nodes node (ClassDecl.mem_nodes_of_body declared member)

include checks receives

theorem counts_lowerMethod (index : Nat) {method : MethodDecl} (declared : method ∈ decl.methods) :
    Counts (lowerMethod context decl.name index method) fun result =>
      IsGuardedStmt context result.body :=
  (counts_declaredBody checks _ areGuarded_nil (receives.body declared)).bind
    fun _ guarded => .pure guarded

theorem counts_lowerConstruction {source : Option (MethodDecl × Nat)}
    (made : source ∈ constructions decl) :
    Counts (lowerConstruction context decl source) fun result =>
      IsGuardedStmt context result.body := by
  rcases mem_constructions.mp made with ⟨rfl, _⟩ | ⟨method, rfl, listed, _⟩
  · refine (counts_prologue checks _ receives.values).bind fun start before => ?_
    have body : Counts (lowerBody context ⟨decl.name, none, .constructor, false⟩ decl.span start
        none) (IsGuardedStmt context) :=
      counts_lowerBody checks _ before fun _ inside => (nomatch inside)
    exact body.bind fun _ guarded => .pure guarded
  · have body := receives.body (List.fst_mem_of_mem_zipIdx listed)
    unfold lowerConstruction lowerConstructor
    dsimp only
    split
    · rw [pure_bind]
      exact (counts_declaredBody checks _ areGuarded_nil body).bind fun _ guarded =>
        .pure guarded
    · exact (counts_prologue checks _ receives.values).bind fun _ before =>
        (counts_declaredBody checks _ before body).bind fun _ guarded => .pure guarded

theorem counts_statics : Counts (runEach ((context.facts.chains.statics decl.name).map
      (lowerStatic context decl.name decl.span)))
    fun storages => ∀ storage ∈ storages, IsGuarded context storage.init := by
  refine Counts.runAll (List.forall_mem_map.mpr fun init inside => ?_)
  unfold lowerStatic
  cases given : init.value with
  | none => exact .pure (isGuarded_defaultExpr _ _)
  | some value =>
    exact (value.guards_lower checks (receives.statics init inside value given)).bind
      fun _ guarded => .pure guarded

/-- **The values and bodies of a class that was lowered are behind their checks.** -/
theorem guarded_of_lowerClass {layout : ClassLayout Expr Stmt}
    (done : lowerClass context decl = .ok layout) :
    layout.Guarded context.options.selfParam := by
  have lays := lays_of_lowerClass done
  obtain ⟨chain, _, _, ctor⟩ := lays.members
  refine ⟨fun member inside value held => ?_, fun storage inside => ?_, fun routine inside => ?_⟩
  · rw [ctor] at inside
    rcases List.mem_append.mp inside with field | pointer
    · obtain ⟨init, _, rfl⟩ := List.mem_map.mp field
      cases held
      exact isGuarded_defaultExpr _ _ []
    · rw [List.mem_singleton.mp pointer] at held
      cases held
  · exact (counts_statics checks receives).ensures.of_inRoutine lays.statics storage inside []
  · rcases List.mem_append.mp inside with constructs | other
    · obtain ⟨source, made, done⟩ := exists_of_mem_right lays.inits constructs
      exact (counts_lowerConstruction checks receives made).ensures.of_inRoutine done []
    · obtain ⟨method, listed, done⟩ := exists_of_mem_right lays.methods other
      have declared := List.fst_mem_of_mem_zipIdx (List.mem_filter.mp listed).1
      exact (counts_lowerMethod checks receives method.2 declared).ensures.of_inRoutine done []

end Classes

end Lowering

/-! ### Units -/

namespace Alteration

variable (alteration : Alteration) (facade : Facade)

/-- An altered facade answers the question for a type truly, if at all. -/
theorem exprType_apply (id : NodeId) :
    (alteration.apply facade).exprType id = none ∨
      (alteration.apply facade).exprType id = facade.exprType id := by
  have shape : (alteration.apply facade).exprType =
      Facade.withhold (alteration.hidden.contains .exprType) facade.exprType := by
    unfold apply
    cases alteration.forced <;> rfl
  rw [shape]
  unfold Facade.withhold
  split
  · exact .inl rfl
  · exact .inr rfl

/-- An altered facade gives a unit no more classes than the true one. -/
theorem owns_of_apply {index : Nat} {name : Name}
    (owned : (alteration.apply facade).owns index name = true) : facade.owns index name = true := by
  have shape : (alteration.apply facade).class? =
      Facade.withhold (alteration.hidden.contains .classInfo) facade.class? := by
    unfold apply
    cases alteration.forced <;> rfl
  unfold Facade.owns at owned ⊢
  rw [shape] at owned
  unfold Facade.withhold at owned
  split at owned
  · cases owned
  · exact owned

end Alteration

namespace Program

variable {units : List SourceUnit} {place : PlacedClass} {context : Context}
  {alteration : Alteration}

/-- **No receiver of a class that counts is taken for an array.** -/
theorem receives_nodes (counts : place ∈ placed units) (forest : place.unit.IsForest)
    (altered : context.facade = alteration.apply (facadeAt units place.index place.unit)) :
    ∀ node ∈ place.decl.nodes, context.Receives node := by
  intro node member own
  obtain ⟨_, declared, owned⟩ := mem_placed.mp counts
  obtain ⟨described, _⟩ :=
    Annotations.accounts_ofUnit (.ofUnits units) forest declared owned node member
  have known : ((facadeAt units place.index place.unit).exprType node.id).any (·.isArray) =
      false := by
    show ((Annotations.ofUnit _ _ _).type? node.id).any _ = false
    cases node with
    | this tag =>
      rw [show (Annotations.ofUnit _ _ _).type? (Source.Expr.this tag).id = _ from described.1]
      rfl
    | super tag =>
      rw [show (Annotations.ofUnit _ _ _).type? (Source.Expr.super tag).id = _ from described.1]
      cases (ClassTable.ofUnits units).supertype? place.decl.name <;> rfl
    | _ => cases own
  rw [altered]
  rcases alteration.exprType_apply (facadeAt units place.index place.unit) node.id with none | same
  · rw [none]
    rfl
  · rw [same]
    exact known

/-- Nor is one in the values that a class that counts reads. -/
theorem classReceives_of_facts {names : NameTable} {options : LoweringOptions} {facts : Facts}
    (computed : (ofUnits units).facts names options = .ok facts) (counts : place ∈ placed units)
    (forest : place.unit.IsForest)
    (altered : context.facade = alteration.apply (facadeAt units place.index place.unit))
    (read : context.facts = facts) : ClassReceives context place.decl := by
  have values {value : Source.Expr} (hosted : Hosts units place value) :
      ∀ node ∈ value.nodes, context.Receives node := by
    obtain ⟨decl, countsToo, among⟩ := hosted
    exact fun node member => receives_nodes countsToo forest altered node (among node member)
  refine ⟨receives_nodes counts forest altered, ?_, ?_⟩
  · exact fun chain resolved field member =>
      values (hosts_of_ownValues computed counts (read ▸ resolved) member)
  · exact fun init member value given =>
      values (hosts_of_statics computed counts (read ▸ member) given)

end Program

/-- **Every access in a lowered unit is behind its check.** Let both kinds of checks be asked for,
and the facade of a unit be altered in any way. In the values and bodies of each class that the unit
is lowered to, a call through the vtable is on the receiver parameter or right behind a check of its
receiver; a length is read right behind a check of its array; an element is read, updated or stored
right behind a check of its array and position, for a store also of the temporary that is stored,
unless a loop fills a new array with it; and arrays are made with checked lengths. -/
theorem accesses_checked {units : List SourceUnit} {names : NameTable} {options : LoweringOptions}
    {facts : Facts} (computed : (Program.ofUnits units).facts names options = .ok facts)
    (nulls : options.nullChecks = true) (arrays : options.arrayChecks = true) {index : Nat}
    {unit : SourceUnit} (here : units[index]? = some unit) (forest : unit.IsForest)
    (alteration : Alteration) {tree : Lowered.TreeUnit}
    (done : lowerUnit index unit (alteration.apply (Program.facadeAt units index unit)) facts
      options = .ok tree) :
    ∀ layout ∈ tree.classes, layout.Guarded options.selfParam := by
  intro layout member
  obtain ⟨decl, kept, lowered⟩ := exists_of_mem_right (ok_of_lowerUnit done) member
  obtain ⟨declared, owned⟩ := List.mem_filter.mp kept
  have counts : ⟨index, unit, decl⟩ ∈ Program.placed units :=
    Program.mem_placed.mpr ⟨here, declared, alteration.owns_of_apply _ owned⟩
  exact guarded_of_lowerClass ⟨nulls, arrays⟩
    (Program.classReceives_of_facts computed counts forest rfl rfl) lowered

/-- The length of an array in a field of the receiver. -/
def Source.Expr.rowCount : Source.Expr :=
  .field ⟨1, 4, 10⟩ (.ident ⟨0, 0, 4⟩ "rows") "length"

/-- An array with two sized dimensions. -/
def Source.Expr.newRows : Source.Expr :=
  .newArray ⟨5, 22, 34⟩ .int [.ident ⟨3, 29, 30⟩ "n", .ident ⟨4, 32, 33⟩ "n"] 0

/-- An element that is an array. -/
def Source.Expr.firstRow : Source.Expr :=
  .index ⟨9, 36, 43⟩ (.ident ⟨7, 36, 40⟩ "rows") (.int ⟨8, 41, 42⟩ 0)

/-- A call on an object that may be absent. -/
def Source.Expr.otherSize : Source.Expr :=
  .call ⟨13, 49, 61⟩ (some (.ident ⟨12, 49, 54⟩ "other")) "size" []

/-- A class that makes an array of arrays and stores a size in it. -/
def Source.SourceUnit.grids : SourceUnit where
  path := "Grid"
  package := []
  imports := []
  classes := [
    { name := "Grid", parent := none, span := ⟨0, 70⟩
      fields := [
        { name := "rows", type := .arrayOf .int 2, init := none, modifiers := {}, span := ⟨0, 1⟩ }]
      methods := [
        { name := "size", params := [], ret := .int, modifiers := {}, span := ⟨0, 12⟩
          body := .block ⟨0, 12⟩ [.ret ⟨0, 11⟩ (some .rowCount)] },
        { name := "reset", params := [⟨.class "Grid", "other"⟩, ⟨.int, "n"⟩], ret := .void
          modifiers := {}, span := ⟨12, 64⟩
          body := .block ⟨14, 64⟩ [
            .eval ⟨15, 35⟩ (.assign ⟨6, 15, 34⟩ (.ident ⟨2, 15, 19⟩ "rows") .newRows),
            .eval ⟨36, 62⟩ (.assign ⟨14, 36, 61⟩
              (.index ⟨11, 36, 46⟩ .firstRow (.int ⟨10, 44, 45⟩ 0)) .otherSize)] }] }]
  nodes := #[.ident ⟨0, 0, 4⟩ "rows", .rowCount, .ident ⟨2, 15, 19⟩ "rows", .ident ⟨3, 29, 30⟩ "n",
    .ident ⟨4, 32, 33⟩ "n", .newRows, .assign ⟨6, 15, 34⟩ (.ident ⟨2, 15, 19⟩ "rows") .newRows,
    .ident ⟨7, 36, 40⟩ "rows", .int ⟨8, 41, 42⟩ 0, .firstRow, .int ⟨10, 44, 45⟩ 0,
    .index ⟨11, 36, 46⟩ .firstRow (.int ⟨10, 44, 45⟩ 0), .ident ⟨12, 49, 54⟩ "other", .otherSize,
    .assign ⟨14, 36, 61⟩ (.index ⟨11, 36, 46⟩ .firstRow (.int ⟨10, 44, 45⟩ 0)) .otherSize]
  stmtCount := 5

/-- The class is lowered behind its checks. -/
theorem accesses_checked_grids :
    ∃ facts tree, (Program.ofUnits [.grids]).facts ⟨["Grid"]⟩ {} = .ok facts ∧
      lowerUnit 0 .grids (Alteration.unchanged.apply (Program.facadeAt [.grids] 0 .grids)) facts
        {} = .ok tree ∧
      tree.classes.map (·.name) = ["Grid"] ∧
      ∀ layout ∈ tree.classes, layout.Guarded Reserved.self := by
  have succeeds : (((Program.ofUnits [.grids]).facts ⟨["Grid"]⟩ {}).toOption.any fun facts =>
      (lowerUnit 0 .grids (Alteration.unchanged.apply (Program.facadeAt [.grids] 0 .grids)) facts
        {}).toOption.any fun tree => tree.classes.map (·.name) = ["Grid"]) = true := by
    decide +kernel
  obtain ⟨facts, computed, succeeds⟩ := exists_of_any_toOption succeeds
  obtain ⟨tree, done, named⟩ := exists_of_any_toOption succeeds
  have forest : Source.SourceUnit.grids.IsForest := ⟨by decide, by decide⟩
  exact ⟨facts, tree, computed, done, of_decide_eq_true named,
    accesses_checked computed rfl rfl rfl forest .unchanged done⟩

end ObjectLowering
