/-
**Building values and operands mirrors lowering them.**

Each helper of building is compared with the one of lowering that has its name. What a helper takes,
it takes from the assertion before it; what it makes is in the assertion after it.

* `mirrors_blockExpr`, `mirrors_blockStmt`: statements go into a block.
* `Part.Matches`, `Operand.Matches`: a part or operand builds what the other one lowers.
* `mirrors_operand`, `mirrors_operandBefore`, `mirrors_use`: operands are prepared and used alike.
* `mirrors_nullCheck`: a value is checked, unless it is the receiver.
-/

import ObjectLowering.Proofs.Building.Nodes

namespace ObjectLowering.Building

open Lowered
open Lowered.Assertion (Entails known)
open Lowering (Context)

variable {context : Context} {span : Span} {id : NodeId} {ids : List NodeId}
  {tree : Lowered.Expr} {trees : List Lowered.Expr} {stmts : List Lowered.Stmt}

/-! ### Blocks and checks -/

theorem mirrors_blockExpr :
    Mirrors (stmtsAt ids stmts + exprAt id tree) (liftM (blockExpr span ids id))
      (Lowering.blockExpr span stmts tree) exprAt := by
  refine .of_fact (fun _ fact => length_eq_of_each fact.1) fun same => ?_
  unfold blockExpr Lowering.blockExpr
  cases ids with
  | nil =>
    cases stmts with
    | cons _ _ => cases same
    | nil => exact .last (Agrees.pure (.refl _)) (.of_eq (zero_add _)) fun _ => .refl _
  | cons first others =>
    cases stmts with
    | nil => cases same
    | cons stmt more =>
      rw [if_neg (by simp), if_neg (by simp), liftM_bind]
      refine mirrors_addStmts.step (exprAt id tree) (.refl _) fun window _ => ?_
      exact .last makes_block (.refl _) fun _ => .refl _

theorem mirrors_blockStmt :
    Mirrors (stmtsAt ids stmts) (liftM (blockStmt ids)) (Lowering.blockStmt stmts) stmtAt := by
  unfold blockStmt Lowering.blockStmt
  rw [liftM_bind]
  refine mirrors_addStmts.step 0 (.of_eq (add_zero _).symm) fun window _ => ?_
  exact .last makes_body (.of_eq (add_zero _)) fun _ => .refl _

theorem makes_check {kind : CheckKind} (count : trees.length = kind.arity) :
    Makes (exprsAt ids trees) (check span kind ids) (exprAt · (.check span kind trees)) := by
  have few : trees.length ≤ maxListLength := by
    rw [count]
    cases kind <;> decide
  refine .make 0 (makes_addExprs few) (.of_eq (add_zero _).symm) fun window => ?_
  exact (makes_checkCall count).entails (.of_eq (add_zero _))

theorem makes_checkStmt {kind : CheckKind} (count : trees.length = kind.arity) :
    Makes (exprsAt ids trees) (checkStmt span kind ids)
      (stmtAt · (Lowering.checkStmt span kind trees)) :=
  .make 0 (makes_check count) (.of_eq (add_zero _).symm) fun _ =>
    makes_eval.entails (.of_eq (add_zero _))

theorem makes_selfExpr (context : Context) (span : Span) :
    Makes 0 (selfExpr context span) (exprAt · (Lowering.selfExpr context span)) :=
  makes_localVar span _

theorem makes_defaultExpr (span : Span) (literal : DefaultLiteral) :
    Makes 0 (defaultExpr span literal) (exprAt · (Lowering.defaultExpr span literal)) := by
  cases literal <;> exact makes_leaf rfl trivial fun _ _ _ => rfl

/-! ### Temporaries and operands -/

theorem mirrors_freshTemp :
    Mirrors 0 freshTemp Lowering.freshTemp fun name other => known (name = other) := fun _ =>
  .pure ((Entails.known_of rfl).trans (.add_known rfl _))

/-- A temporary and its declaration. -/
def tempAt (made : NodeId × Name) (tree : Lowered.Stmt × Name) : Assertion :=
  stmtAt made.1 tree.1 + known (made.2 = tree.2)

theorem mirrors_bindTemp (type : Ty) :
    Mirrors (exprAt id tree) (bindTemp type id) (Lowering.bindTemp type tree) tempAt := by
  refine mirrors_freshTemp.seq fun name other => ?_
  rw [← zero_add (known _)]
  refine .known fun same => ?_
  cases same
  refine .make 0 makes_declaration (.trans (.of_eq (zero_add _)) (.trans
    (exprAt_entails_optionAt id tree) (.of_eq (add_zero _).symm))) fun decl => ?_
  exact .pure (.trans (.of_eq (add_zero _)) (.add_known rfl _))

/-- A part builds the tree that the other one lowers its expression to. -/
structure Part.Matches (part : Part) (other : Lowering.Part) : Prop where
  expr : part.expr = other.expr
  mirrors : Mirrors 0 part.build other.lower exprAt

/-- An operand is used like the other one. -/
inductive Operand.Matches : Operand → Lowering.Operand → Prop
  | reread {build : BuildM NodeId} {lower : LowerM Lowered.Expr}
      (mirrors : Mirrors 0 build lower exprAt) : Matches (.reread build) (.reread lower)
  | temp (name : Name) : Matches (.temp name) (.temp name)
  | self : Matches .self .self

/-- The declarations of an operand, and the operand. -/
def operandAt (made : List NodeId × Operand) (tree : List Lowered.Stmt × Lowering.Operand) :
    Assertion :=
  stmtsAt made.1 tree.1 + known (made.2.Matches tree.2)

theorem entails_operandAt {operand : Operand} {other : Lowering.Operand}
    (same : operand.Matches other) :
    (0 : Assertion).Entails (operandAt ([], operand) ([], other)) :=
  .add_known same 0

theorem mirrors_use {operand : Operand} {other : Lowering.Operand}
    (same : operand.Matches other) :
    Mirrors 0 (operand.use context span) (other.use context span) exprAt := by
  cases same with
  | reread mirrors => exact mirrors
  | temp name => exact .last (makes_localVar span name) (.refl 0) fun _ => .refl _
  | self => exact .last (makes_selfExpr context span) (.refl 0) fun _ => .refl _

variable {part : Part} {other : Lowering.Part}

theorem mirrors_readOnce (same : part.Matches other) (fallback : Ty) :
    Mirrors 0 (readOnce context part fallback) (Lowering.readOnce context other fallback)
      operandAt := by
  unfold readOnce Lowering.readOnce
  rw [same.expr]
  split
  · exact .pure (entails_operandAt .self)
  · refine same.mirrors.seq fun value tree => ?_
    refine (mirrors_bindTemp _).step 0 (.refl _) ?_
    rintro ⟨decl, name⟩ ⟨stmt, other⟩
    refine .known fun named => ?_
    cases named
    rw [add_zero, ← stmtsAt_singleton decl stmt]
    exact .pure (.add_known (Operand.Matches.temp name) _)

/-- **Operands are prepared alike.** -/
theorem mirrors_operand (same : part.Matches other) (fallback : Ty) :
    Mirrors 0 (operand context part fallback) (Lowering.operand context other fallback)
      operandAt := by
  unfold operand Lowering.operand
  rw [same.expr]
  split
  · exact .pure (entails_operandAt (.reread same.mirrors))
  · exact mirrors_readOnce same fallback

theorem mirrors_operandBefore (same : part.Matches other) (fallback : Ty) (later : Source.Expr) :
    Mirrors 0 (operandBefore context part fallback later)
      (Lowering.operandBefore context other fallback later) operandAt := by
  unfold operandBefore Lowering.operandBefore
  rw [same.expr]
  split
  · exact mirrors_operand same fallback
  · exact mirrors_readOnce same fallback

theorem Operand.Matches.isSelf_eq {operand : Operand} {other : Lowering.Operand}
    (same : operand.Matches other) : operand.isSelf = other.isSelf := by
  cases same <;> rfl

theorem mirrors_nullCheck {operand : Operand} {other : Lowering.Operand}
    (same : operand.Matches other) :
    Mirrors 0 (nullCheck context span operand) (Lowering.nullCheck context span other) stmtsAt := by
  unfold nullCheck Lowering.nullCheck
  rw [same.isSelf_eq]
  split
  · exact .pure (.refl 0)
  · refine (mirrors_use same).seq fun value tree => ?_
    rw [add_zero, ← exprsAt_singleton value tree]
    refine .make 0 (makes_checkStmt rfl) (.of_eq (add_zero _).symm) fun check => ?_
    rw [add_zero, ← stmtsAt_singleton check]
    exact .pure (.refl _)

end ObjectLowering.Building
