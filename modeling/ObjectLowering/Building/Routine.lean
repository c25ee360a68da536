/-
**What building a routine rests on, and its temporaries.**

The lowered form of a unit is built in an arena. Each node is added as soon as it is made, behind
the nodes that it refers to, and a value that a form uses twice is built twice. The trees of the
same steps are made by `Lowering`; there a value is a tree, here it is a number.

* `ArenaM` adds to the arena of a unit, `BuildM` counts temporaries as well.
* `addExpr`, `addStmt`, `addExprs`, `addStmts` are what an arena is asked for.
* `operand` prepares a value for repeated use; `Operand.use` gives a fresh node for one use.
-/

import ObjectLowering.ArenaRequest
import ObjectLowering.Lowered.Validate
import ObjectLowering.Lowering.Routine

namespace ObjectLowering

/-- Why building a unit stopped. -/
inductive BuildFailure where
  | error (error : LoweringError)
  | refused (refusal : ArenaRefusal)
  | violation (violation : Lowered.Violation)
  deriving DecidableEq, Repr

/-- Building a unit: it adds to an arena and stops at the first failure. -/
abbrev ArenaM := StateT Lowered.FlatArena (Except BuildFailure)

/-- Building within a routine: it counts temporaries as well. -/
abbrev BuildM := StateT Nat ArenaM

namespace Building

open Lowered (CheckKind FlatArena FlatStmt Node)
open Lowering (Context tempName typeOr)

/-- Stops with an error of the program. -/
def fail {α : Type} (error : LoweringError) : BuildM α := throw (.error error)

/-- Hands a request on to the arena. -/
def ask {α : Type} (request : FlatArena → Except ArenaRefusal α × FlatArena) : ArenaM α :=
  fun arena =>
    match request arena with
    | (.ok answer, later) => .ok (answer, later)
    | (.error refusal, _) => .error (.refused refusal)

def addExpr (span : Span) (node : Node) : ArenaM NodeId :=
  ask fun arena => arena.storeNode .loweredExpr (arena.addExpr (span, node))

def addStmt (stmt : FlatStmt) : ArenaM NodeId :=
  ask fun arena => arena.storeNode .loweredStmt (arena.addStmt stmt)

def addExprs (ids : List NodeId) : ArenaM Window := ask (·.storeList .loweredExpr ids)

def addStmts (ids : List NodeId) : ArenaM Window := ask (·.storeList .loweredStmt ids)

def freshTemp : BuildM Name := do
  let number ← get
  set (number + 1)
  return tempName number

/-- A fresh temporary that holds a value, with its declaration. -/
def bindTemp (type : Ty) (value : NodeId) : BuildM (NodeId × Name) := do
  let name ← freshTemp
  let decl ← addStmt (.localVar type name value)
  return (decl, name)

def selfExpr (context : Context) (span : Span) : ArenaM NodeId :=
  addExpr span (.localVar context.options.selfParam)

/-- A value behind statements; the value alone if there are none. -/
def blockExpr (span : Span) (stmts : List NodeId) (result : NodeId) : ArenaM NodeId :=
  if stmts.isEmpty then
    return result
  else do
    let body ← addStmts stmts
    addExpr span (.block body result)

def blockStmt (stmts : List NodeId) : ArenaM NodeId := do
  let body ← addStmts stmts
  addStmt (.block body)

def check (span : Span) (kind : CheckKind) (args : List NodeId) : ArenaM NodeId := do
  let args ← addExprs args
  addExpr span (.check kind args)

def checkStmt (span : Span) (kind : CheckKind) (args : List NodeId) : ArenaM NodeId := do
  let check ← check span kind args
  addStmt (.eval check)

def defaultNode : DefaultLiteral → Node
  | .int => .int 0
  | .float => .float 0
  | .bool => .bool false
  | .char => .char (Char.ofNat 0)
  | .null => .null

def defaultExpr (span : Span) (literal : DefaultLiteral) : ArenaM NodeId :=
  addExpr span (defaultNode literal)

/-! ### Operands -/

/-- A source expression with the step that builds it. -/
structure Part where
  expr : Source.Expr
  build : BuildM NodeId

/-- A value that is used more than once. -/
inductive Operand where
  /-- Built again for each use. -/
  | reread (build : BuildM NodeId)
  /-- Read once into a temporary. -/
  | temp (name : Name)
  /-- The current receiver. -/
  | self

namespace Operand

/-- Whether the operand is the current receiver. -/
def isSelf : Operand → Bool
  | self => true
  | _ => false

def use (context : Context) (span : Span) : Operand → BuildM NodeId
  | reread build => build
  | temp name => addExpr span (.localVar name)
  | self => selfExpr context span

end Operand

/-- Reads a value into a temporary, unless it is the receiver. -/
def readOnce (context : Context) (part : Part) (fallback : Ty) : BuildM (List NodeId × Operand) :=
  if part.expr.isReceiver then
    return ([], .self)
  else do
    let value ← part.build
    let (decl, name) ← bindTemp (typeOr context part.expr fallback) value
    return ([decl], .temp name)

/-- Prepares a value for repeated use. -/
def operand (context : Context) (part : Part) (fallback : Ty) : BuildM (List NodeId × Operand) :=
  if part.expr.isPure && !part.expr.isReceiver then return ([], .reread part.build)
  else readOnce context part fallback

/-- Prepares a value for repeated use after something else is evaluated. Unless that is pure, only a
literal may be evaluated again. -/
def operandBefore (context : Context) (part : Part) (fallback : Ty) (later : Source.Expr) :
    BuildM (List NodeId × Operand) :=
  if later.isPure || part.expr.isConstant then operand context part fallback
  else readOnce context part fallback

/-- Checks a value against `null`, unless it is the receiver. -/
def nullCheck (context : Context) (span : Span) (value : Operand) : BuildM (List NodeId) :=
  if !context.options.nullChecks || value.isSelf then
    return []
  else do
    let value ← value.use context span
    let check ← checkStmt span .notNull [value]
    return [check]

end Building

end ObjectLowering
