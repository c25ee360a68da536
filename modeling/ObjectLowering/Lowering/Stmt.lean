/-
**Lowering statements and bodies.**

A bare `return` hands back the receiver from a construction routine and the exit status zero from
the entry point. Their bodies end in a return in any case.

* `Source.Stmt.lower` lowers a statement.
* `lowerBody` lowers the body of a routine behind statements that come first.
-/

import ObjectLowering.Lowering.Expr

namespace ObjectLowering

namespace Lowering

/-- What a bare `return` hands back. -/
def implicitResult (context : Context) (span : Span) : Mode → Lowered.Expr
  | .constructor => selfExpr context span
  | .entry => .int span 0
  | .instanceMethod | .static => .absent

def blockStmt (stmts : List Lowered.Stmt) : LowerM Lowered.Stmt := do
  checkLength .loweredStmt stmts
  return .block stmts

end Lowering

open Lowering

mutual

/-- Lowers a statement within a routine. -/
def Source.Stmt.lower (context : Context) (routine : Routine) :
    Source.Stmt → LowerM Lowered.Stmt
  | .eval _ expr => do
    let expr ← expr.lower context routine
    return .eval expr
  | .localVar _ type name init => do
    let init ← Source.Expr.lowerOption context routine init
    return .localVar type name init
  | .block _ body => do
    let body ← runEach (Source.Stmt.lowerEach context routine body)
    blockStmt body
  | .branch _ cond yes none => do
    let cond ← cond.lower context routine
    let yes ← yes.lower context routine
    return .branch cond yes .absent
  | .branch _ cond yes (some no) => do
    let cond ← cond.lower context routine
    let yes ← yes.lower context routine
    let no ← no.lower context routine
    return .branch cond yes no
  | .whileLoop _ cond body => do
    let cond ← cond.lower context routine
    let body ← body.lower context routine
    return .whileLoop cond body
  | .forLoop _ init cond update body => do
    let init ← runEach (Source.Stmt.lowerEach context routine init)
    checkLength .loweredStmt init
    let cond ← Source.Expr.lowerOption context routine cond
    let update ← argList (Source.Expr.lowerEach context routine update)
    let body ← body.lower context routine
    return .forLoop init cond update body
  | .ret span none => return .ret (implicitResult context span routine.mode)
  | .ret _ (some value) => do
    let value ← value.lower context routine
    return .ret value

/-- The lowerings of a list of statements. -/
def Source.Stmt.lowerEach (context : Context) (routine : Routine) :
    List Source.Stmt → List (LowerM Lowered.Stmt)
  | [] => []
  | stmt :: rest => stmt.lower context routine :: Source.Stmt.lowerEach context routine rest

end

theorem Source.Stmt.lowerEach_eq_map (context : Context) (routine : Routine)
    (stmts : List Source.Stmt) :
    Source.Stmt.lowerEach context routine stmts = stmts.map (·.lower context routine) := by
  induction stmts with
  | nil => rfl
  | cons stmt rest step => simp [Source.Stmt.lowerEach, step]

namespace Lowering

/-- The statements of a body: those of a block, or the one that stands in its place. -/
def bodyStmts : Option Source.Stmt → List Source.Stmt
  | none => []
  | some (.block _ body) => body
  | some stmt => [stmt]

/-- The return that ends a body, unless it ends in one or needs none. -/
def finalReturn (context : Context) (routine : Routine) (span : Span)
    (stmts : List Lowered.Stmt) : List Lowered.Stmt :=
  if (routine.inConstructor || routine.inEntry) && !stmts.getLast?.any (·.isReturn) then
    [.ret (implicitResult context span routine.mode)]
  else
    []

/-- Lowers the body of a routine behind statements that come first. -/
def lowerBody (context : Context) (routine : Routine) (span : Span) (prologue : List Lowered.Stmt)
    (body : Option Source.Stmt) : LowerM Lowered.Stmt := do
  let stmts ← runEach ((bodyStmts body).map (·.lower context routine))
  let stmts := prologue ++ stmts
  blockStmt (stmts ++ finalReturn context routine span stmts)

end Lowering

end ObjectLowering
