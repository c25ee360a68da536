/-
**An arena that grows keeps what it has.**

Building only adds to an arena: a node, a statement, or a list that goes behind the lists before it.
Whatever was there is read under the same number or in the same window ever after.

* `FlatArena.Extends`: everything of the first arena is in the second, under the same numbers.
* `FlatArena.extends_addExpr`, …: what an arena is asked for extends it.
-/

import ObjectLowering.Lowered.Flat

namespace ObjectLowering.Lowered.FlatArena

/-- Everything of an arena is in a later one, under the same numbers. -/
structure Extends (arena later : FlatArena) : Prop where
  exprs : arena.exprs.size ≤ later.exprs.size
  stmts : arena.stmts.size ≤ later.stmts.size
  expr : ∀ id node, arena.expr? id = some node → later.expr? id = some node
  stmt : ∀ id stmt, arena.stmt? id = some stmt → later.stmt? id = some stmt
  exprLists : ∀ window ids, arena.exprList? window = some ids →
    later.exprList? window = some ids
  stmtLists : ∀ window ids, arena.stmtList? window = some ids →
    later.stmtList? window = some ids

theorem Extends.refl (arena : FlatArena) : arena.Extends arena :=
  ⟨Nat.le_refl _, Nat.le_refl _, fun _ _ found => found, fun _ _ found => found,
    fun _ _ found => found, fun _ _ found => found⟩

variable {arena middle later : FlatArena}

theorem Extends.trans (first : arena.Extends middle) (second : middle.Extends later) :
    arena.Extends later where
  exprs := Nat.le_trans first.exprs second.exprs
  stmts := Nat.le_trans first.stmts second.stmts
  expr id node found := second.expr id node (first.expr id node found)
  stmt id stmt found := second.stmt id stmt (first.stmt id stmt found)
  exprLists window ids found := second.exprLists window ids (first.exprLists window ids found)
  stmtLists window ids found := second.stmtLists window ids (first.stmtLists window ids found)

theorem extends_addExpr (arena : FlatArena) (expr : Span × Node) :
    arena.Extends (arena.addExpr expr).2 where
  exprs := (Array.size_push expr ▸ Nat.le_succ _ : _ ≤ (arena.exprs.push expr).size)
  stmts := Nat.le_refl _
  expr _ _ found := arena.expr?_addExpr_of_some expr found
  stmt _ _ found := found
  exprLists _ _ found := found
  stmtLists _ _ found := found

theorem extends_addStmt (arena : FlatArena) (stmt : FlatStmt) :
    arena.Extends (arena.addStmt stmt).2 where
  exprs := Nat.le_refl _
  stmts := (Array.size_push stmt ▸ Nat.le_succ _ : _ ≤ (arena.stmts.push stmt).size)
  expr _ _ found := found
  stmt _ _ found := arena.stmt?_addStmt_of_some stmt found
  exprLists _ _ found := found
  stmtLists _ _ found := found

theorem extends_addExprList (kind : NodeKind) (arena : FlatArena) (ids : List NodeId) :
    arena.Extends (arena.addExprList kind ids).2 where
  exprs := Nat.le_of_eq (by rw [Arena.addExprList_parts])
  stmts := Nat.le_of_eq (by rw [Arena.addExprList_parts])
  expr _ _ found := by rw [Arena.addExprList_parts]; exact found
  stmt _ _ found := by rw [Arena.addExprList_parts]; exact found
  exprLists _ _ found := arena.exprList?_addExprList_of_some kind ids found
  stmtLists _ _ found := by rw [Arena.addExprList_parts]; exact found

theorem extends_addStmtList (kind : NodeKind) (arena : FlatArena) (ids : List NodeId) :
    arena.Extends (arena.addStmtList kind ids).2 where
  exprs := Nat.le_of_eq (by rw [Arena.addStmtList_parts])
  stmts := Nat.le_of_eq (by rw [Arena.addStmtList_parts])
  expr _ _ found := by rw [Arena.addStmtList_parts]; exact found
  stmt _ _ found := by rw [Arena.addStmtList_parts]; exact found
  exprLists _ _ found := by rw [Arena.addStmtList_parts]; exact found
  stmtLists _ _ found := arena.stmtList?_addStmtList_of_some kind ids found

end ObjectLowering.Lowered.FlatArena
