/-
**Building statements and bodies.**

A loop is built in the order of its source parts: its initial statements, its condition, its updates
and its body. Whether a body ends in a return is read off the last statement that was built.

* `Source.Stmt.build` builds a statement and gives its number.
* `buildBody` builds the body of a routine behind statements that come first.
-/

import ObjectLowering.Building.Expr
import ObjectLowering.Lowering.Stmt

namespace ObjectLowering

namespace Lowered

/-- Whether a statement hands something back. -/
def FlatStmt.isReturn : FlatStmt → Bool
  | .ret _ => true
  | _ => false

end Lowered

namespace Building

open Lowering (Context)

/-- What a bare `return` hands back. -/
def implicitResult (context : Context) (span : Span) : Mode → ArenaM NodeId
  | .constructor => selfExpr context span
  | .entry => addExpr span (.int 0)
  | .instanceMethod | .static => return NodeId.invalid

end Building

open Building
open Lowering (Context bodyStmts runEach)

mutual

/-- Builds a statement within a routine. -/
def Source.Stmt.build (context : Context) (routine : Routine) : Source.Stmt → BuildM NodeId
  | .eval _ expr => do
    let expr ← expr.build context routine
    addStmt (.eval expr)
  | .localVar _ type name init => do
    let init ← Source.Expr.buildOption context routine init
    addStmt (.localVar type name init)
  | .block _ body => do
    let body ← runEach (Source.Stmt.buildEach context routine body)
    blockStmt body
  | .branch _ cond yes none => do
    let cond ← cond.build context routine
    let yes ← yes.build context routine
    addStmt (.branch cond yes NodeId.invalid)
  | .branch _ cond yes (some no) => do
    let cond ← cond.build context routine
    let yes ← yes.build context routine
    let no ← no.build context routine
    addStmt (.branch cond yes no)
  | .whileLoop _ cond body => do
    let cond ← cond.build context routine
    let body ← body.build context routine
    addStmt (.whileLoop cond body)
  | .forLoop _ init cond update body => do
    let init ← runEach (Source.Stmt.buildEach context routine init)
    let init ← addStmts init
    let cond ← Source.Expr.buildOption context routine cond
    let update ← argList (Source.Expr.buildEach context routine update)
    let body ← body.build context routine
    addStmt (.forLoop init cond update body)
  | .ret span none => do
    let value ← implicitResult context span routine.mode
    addStmt (.ret value)
  | .ret _ (some value) => do
    let value ← value.build context routine
    addStmt (.ret value)

/-- The steps that build a list of statements. -/
def Source.Stmt.buildEach (context : Context) (routine : Routine) :
    List Source.Stmt → List (BuildM NodeId)
  | [] => []
  | stmt :: rest => stmt.build context routine :: Source.Stmt.buildEach context routine rest

end

namespace Building

/-- Whether the last of the statements is a return. -/
def endsInReturn (stmts : List NodeId) : ArenaM Bool := do
  let arena ← get
  return stmts.getLast?.any fun last => (arena.stmt? last).any (·.isReturn)

/-- The return that ends a body, unless it ends in one or needs none. -/
def finalReturn (context : Context) (routine : Routine) (span : Span) (stmts : List NodeId) :
    ArenaM (List NodeId) := do
  let ends ← endsInReturn stmts
  if (routine.inConstructor || routine.inEntry) && !ends then
    let value ← implicitResult context span routine.mode
    let stmt ← addStmt (.ret value)
    return [stmt]
  else
    return []

/-- Builds the body of a routine behind statements that come first. -/
def buildBody (context : Context) (routine : Routine) (span : Span) (prologue : List NodeId)
    (body : Option Source.Stmt) : BuildM NodeId := do
  let stmts ← runEach ((bodyStmts body).map (·.build context routine))
  let stmts := prologue ++ stmts
  let final ← finalReturn context routine span stmts
  blockStmt (stmts ++ final)

end Building

end ObjectLowering
