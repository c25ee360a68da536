/-
**Reading trees while an arena is built.**

A number leads to the same tree in every later arena. Each node is added behind those that it refers
to, so the count of nodes bounds the depth of any tree, and following numbers comes to an end.

* `FlatArena.Sees`: a later arena, with a depth that suffices for all trees of an earlier one.
* `FlatArena.ReadsExpr`, `FlatArena.ReadsStmt`: every later arena reads this tree.
* `FlatArena.readsExpr_addExpr`, …: a new node reads as the tree of what it refers to.
-/

import Mathlib.Data.List.Forall2
import ObjectLowering.Proofs.Building.Growth

namespace ObjectLowering.Lowered.FlatArena

/-- How many nodes and statements there are. -/
def nodeCount (arena : FlatArena) : Nat := arena.exprs.size + arena.stmts.size

/-- All numbers are below the one that stands for absent nodes. -/
structure Fits (arena : FlatArena) : Prop where
  exprs : arena.exprs.size ≤ NodeId.invalid
  stmts : arena.stmts.size ≤ NodeId.invalid

/-- A later arena and a depth at which all trees of the earlier one are read. -/
structure Sees (arena later : FlatArena) (depth : Nat) : Prop where
  grown : arena.Extends later
  fits : later.Fits
  enough : 2 * arena.nodeCount < depth

/-- Later arenas read this item from its numbers. -/
def Reads {α β : Type} (arena : FlatArena) (read : FlatArena → Nat → β → α) (numbers : β)
    (item : α) : Prop :=
  ∀ later depth, arena.Sees later depth → read later depth numbers = item

abbrev ReadsExpr (arena : FlatArena) : NodeId → Expr → Prop := arena.Reads readExpr

abbrev ReadsStmt (arena : FlatArena) : NodeId → Stmt → Prop := arena.Reads readStmt

/-- Later arenas read these trees in the window, which takes one level of its own. -/
def ReadsExprs (arena : FlatArena) (window : Window) (exprs : List Expr) : Prop :=
  ∀ later depth, arena.Sees later (depth - 1) → later.readExprs depth window = exprs

def ReadsStmts (arena : FlatArena) (window : Window) (stmts : List Stmt) : Prop :=
  ∀ later depth, arena.Sees later (depth - 1) → later.readStmts depth window = stmts

variable {arena middle later : FlatArena} {depth : Nat} {id : NodeId} {ids : List NodeId}
  {window : Window} {expr : Expr} {exprs : List Expr} {stmt : Stmt} {stmts : List Stmt}

theorem Extends.nodeCount (grown : arena.Extends later) : arena.nodeCount ≤ later.nodeCount :=
  Nat.add_le_add grown.exprs grown.stmts

theorem nodeCount_addExpr (arena : FlatArena) (expr : Span × Node) :
    nodeCount (arena.addExpr expr).2 = arena.nodeCount + 1 := by
  unfold nodeCount
  rw [show (arena.addExpr expr).2.exprs.size = arena.exprs.size + 1 from Array.size_push _,
    Nat.add_right_comm]
  rfl

theorem nodeCount_addStmt (arena : FlatArena) (stmt : FlatStmt) :
    nodeCount (arena.addStmt stmt).2 = arena.nodeCount + 1 := by
  unfold nodeCount
  rw [show (arena.addStmt stmt).2.stmts.size = arena.stmts.size + 1 from Array.size_push _,
    ← Nat.add_assoc]
  rfl

/-- A node that is added leaves room for one level of nodes and one of lists. -/
theorem Sees.below {final : FlatArena} (sees : later.Sees final depth)
    (grown : arena.Extends later) (more : later.nodeCount = arena.nodeCount + 1) :
    ∃ below, depth = below + 1 ∧ arena.Sees final (below - 1) := by
  have enough := sees.enough
  exact ⟨depth - 1, by omega, grown.trans sees.grown, sees.fits, by omega⟩

theorem Sees.deeper (sees : arena.Sees later (depth - 1)) : arena.Sees later depth :=
  ⟨sees.grown, sees.fits, Nat.lt_of_lt_of_le sees.enough (Nat.sub_le ..)⟩

theorem Sees.exists_succ (sees : arena.Sees later (depth - 1)) : ∃ below, depth = below + 1 :=
  ⟨depth - 1, by have enough := sees.enough; omega⟩

theorem Sees.before (sees : middle.Sees later depth) (grown : arena.Extends middle) :
    arena.Sees later depth where
  grown := grown.trans sees.grown
  fits := sees.fits
  enough := by
    have fewer := grown.nodeCount
    have enough := sees.enough
    omega

theorem Reads.mono {α β : Type} {read : FlatArena → Nat → β → α} {numbers : β} {item : α}
    (reads : arena.Reads read numbers item) (grown : arena.Extends later) :
    later.Reads read numbers item := fun final depth sees => reads final depth (sees.before grown)

theorem ReadsExprs.mono (reads : arena.ReadsExprs window exprs) (grown : arena.Extends later) :
    later.ReadsExprs window exprs := fun final depth sees => reads final depth (sees.before grown)

theorem ReadsStmts.mono (reads : arena.ReadsStmts window stmts) (grown : arena.Extends later) :
    later.ReadsStmts window stmts := fun final depth sees => reads final depth (sees.before grown)

/-- What is read item by item is read as a list. -/
theorem map_reads {α β : Type} {read : FlatArena → Nat → β → α} {numbers : List β}
    {items : List α} (each : List.Forall₂ (arena.Reads read) numbers items)
    (sees : arena.Sees later depth) : numbers.map (read later depth) = items :=
  List.forall₂_eq_eq_eq ▸ List.forall₂_map_left_iff.mpr
    (each.imp fun _ _ reads => reads later depth sees)

/-- The number of absent nodes is read as an absent node. -/
theorem readsExpr_absent : arena.ReadsExpr NodeId.invalid .absent := by
  intro final depth sees
  obtain ⟨depth, rfl⟩ := Nat.exists_eq_add_one_of_ne_zero (Nat.ne_zero_of_lt sees.enough)
  simp only [readExpr, if_true]

theorem readsStmt_absent : arena.ReadsStmt NodeId.invalid .absent := by
  intro final depth sees
  obtain ⟨depth, rfl⟩ := Nat.exists_eq_add_one_of_ne_zero (Nat.ne_zero_of_lt sees.enough)
  simp only [readStmt, if_true]

/-- **A new expression reads as the tree of what it refers to.** -/
theorem readsExpr_addExpr {span : Span} {node : Node}
    (tree : ∀ final depth, arena.Sees final (depth - 1) →
      node.tree span (final.readExpr depth) (final.readExprs depth) (final.readStmts depth) =
        expr) :
    ReadsExpr (arena.addExpr (span, node)).2 arena.exprs.size expr := by
  intro final depth sees
  have grown := extends_addExpr arena (span, node)
  have more : (arena.exprs.push (span, node)).size = arena.exprs.size + 1 := Array.size_push _
  have numbered : arena.exprs.size ≠ NodeId.invalid :=
    Nat.ne_of_lt (Nat.lt_of_lt_of_le (more ▸ Nat.lt_succ_self _)
      (Nat.le_trans sees.grown.exprs sees.fits.exprs))
  have found : final.expr? arena.exprs.size = some (span, node) :=
    sees.grown.expr _ _ (arena.expr?_addExpr (span, node))
  obtain ⟨depth, rfl, seen⟩ := sees.below grown (nodeCount_addExpr ..)
  rw [← tree final depth seen]
  unfold readExpr
  rw [if_neg numbered, found]

/-- **A new statement reads as the tree of what it refers to.** -/
theorem readsStmt_addStmt {flat : FlatStmt}
    (tree : ∀ final depth, arena.Sees final (depth - 1) →
      flat.tree (final.readExpr depth) (final.readExprs depth) (final.readStmt depth)
        (final.readStmts depth) = stmt) :
    ReadsStmt (arena.addStmt flat).2 arena.stmts.size stmt := by
  intro final depth sees
  have grown := extends_addStmt arena flat
  have more : (arena.stmts.push flat).size = arena.stmts.size + 1 := Array.size_push _
  have numbered : arena.stmts.size ≠ NodeId.invalid :=
    Nat.ne_of_lt (Nat.lt_of_lt_of_le (more ▸ Nat.lt_succ_self _)
      (Nat.le_trans sees.grown.stmts sees.fits.stmts))
  have found : final.stmt? arena.stmts.size = some flat :=
    sees.grown.stmt _ _ (arena.stmt?_addStmt flat)
  obtain ⟨depth, rfl, seen⟩ := sees.below grown (nodeCount_addStmt ..)
  rw [← tree final depth seen]
  unfold readStmt
  rw [if_neg numbered, found]

/-- A window reads as the trees of its entries. -/
theorem readsExprs_of_list (each : List.Forall₂ arena.ReadsExpr ids exprs)
    (found : arena.exprList? window = some ids) : arena.ReadsExprs window exprs := by
  intro final depth sees
  obtain ⟨depth, rfl⟩ := sees.exists_succ
  simp only [readExprs, sees.grown.exprLists _ _ found]
  exact map_reads each sees

theorem readsStmts_of_list (each : List.Forall₂ arena.ReadsStmt ids stmts)
    (found : arena.stmtList? window = some ids) : arena.ReadsStmts window stmts := by
  intro final depth sees
  obtain ⟨depth, rfl⟩ := sees.exists_succ
  simp only [readStmts, sees.grown.stmtLists _ _ found]
  exact map_reads each sees

end ObjectLowering.Lowered.FlatArena
