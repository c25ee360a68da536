/-
**Lowering arrays.**

An array is made one level at a time, with checked lengths. An element is read, updated or stored
behind a check of its position. The array and the position are fixed before anything later in source
order is evaluated.

* `lowerNewArray` makes an array; several sized dimensions fill the outer levels in loops.
* `slot` is an element behind its check.
* `store` evaluates the stored value once, checks it against the array and stores it.
-/

import ObjectLowering.Lowering.Routine

namespace ObjectLowering.Lowering

open Lowered (CheckKind)

/-- A length that is checked where lengths are. -/
def checkedLength (context : Context) (span : Span) (size : Lowered.Expr) : Lowered.Expr :=
  if context.options.arrayChecks then .check span .negativeLength [size] else size

/-- The loop that stores a value in every element of a new array. The value is made anew for each
element, by the statements in front of it. -/
def fillLoop (span : Span) (array counter size : Name) (counterDecl : Lowered.Stmt)
    (stmts : List Lowered.Stmt) (value : Lowered.Expr) : Lowered.Stmt :=
  let element := .index span (.localVar span array) (.localVar span counter)
  .forLoop [counterDecl]
    (.binary span .less (.localVar span counter) (.localVar span size))
    [.unary span .postIncrement (.localVar span counter)]
    (.block (stmts ++ [.eval (.assign span element value)]))

/-- The level whose length is the first name, each of its elements filled with the next level: the
statements that make it and the array itself. -/
def fillLevels (span : Span) (leaf : Ty) (size : Name) :
    List Name → LowerM (List Lowered.Stmt × Lowered.Expr)
  | [] => return ([], .arrayAlloc span leaf (.localVar span size))
  | next :: rest => do
    let element := leaf.arrayOf (rest.length + 1)
    let (arrayDecl, array) ←
      bindTemp (.array element) (.arrayAlloc span element (.localVar span size))
    let (counterDecl, counter) ← bindTemp .int (.int span 0)
    let (stmts, value) ← fillLevels span leaf next rest
    return ([arrayDecl, fillLoop span array counter size counterDecl stmts value],
      .localVar span array)

/-- The checked length of a dimension in a temporary. -/
def bindDimension (context : Context) (span : Span) (dim : LowerM Lowered.Expr) :
    LowerM (Lowered.Stmt × Name) := do
  let size ← dim
  bindTemp .int (checkedLength context span size)

/-- A new array with sized dimensions and unsized ones behind them. -/
def lowerNewArray (context : Context) (span : Span) (element : Ty)
    (dims : List (LowerM Lowered.Expr)) (extra : Nat) : LowerM Lowered.Expr := do
  let leaf := element.arrayOf extra
  match dims with
  | [] => fail (.unmet Reserved.empty .arrayDimension span)
  | [dim] =>
    let size ← dim
    return .arrayAlloc span leaf (checkedLength context span size)
  | dim :: next :: rest =>
    let (decl, size) ← bindDimension context span dim
    let bound ← runEach ((next :: rest).map (bindDimension context span))
    let (stmts, array) ← fillLevels span leaf size (bound.map (·.2))
    blockExpr span (decl :: bound.map (·.1) ++ stmts) array

/-- An element, with the statements in front of it. -/
def slot (context : Context) (span : Span) (array position : Part) :
    LowerM (List Lowered.Stmt × Lowered.Expr) := do
  let (arrayDecl, arrayUse) ← operandBefore context array .object position.expr
  if !context.options.arrayChecks then
    let arrayExpr ← arrayUse.use context span
    let positionExpr ← position.lower
    return (arrayDecl, .index span arrayExpr positionExpr)
  let (positionDecl, positionUse) ← operand context position .int
  let checkedArray ← arrayUse.use context span
  let checkedPosition ← positionUse.use context span
  let check := checkStmt span .arrayAccess [checkedArray, checkedPosition]
  let arrayExpr ← arrayUse.use context span
  let positionExpr ← positionUse.use context span
  return (arrayDecl ++ positionDecl ++ [check], .index span arrayExpr positionExpr)

def readElement (context : Context) (span : Span) (array position : Part) :
    LowerM Lowered.Expr := do
  let (stmts, element) ← slot context span array position
  blockExpr span stmts element

/-- An element that is written in place. -/
def updateElement (context : Context) (span : Span) (op : UnaryOp) (array position : Part) :
    LowerM Lowered.Expr := do
  let (stmts, element) ← slot context span array position
  blockExpr span stmts (.unary span op element)

/-- The type of a value that is stored in an array of the given type. -/
def storedType (context : Context) (arrayType : Ty) (value : Source.Expr) : Ty :=
  (arrayType.element?).getD (typeOr context value .object)

def store (context : Context) (span : Span) (array position value : Part) :
    LowerM Lowered.Expr := do
  let arrayType := typeOr context array.expr .object
  let (arrayDecl, arrayUse) ← operandBefore context array arrayType value.expr
  let (positionDecl, positionUse) ← operandBefore context position .int value.expr
  if !context.options.arrayChecks then
    let arrayExpr ← arrayUse.use context span
    let positionExpr ← positionUse.use context span
    let stored ← value.lower
    return ← blockExpr span (arrayDecl ++ positionDecl)
      (.assign span (.index span arrayExpr positionExpr) stored)
  let stored ← value.lower
  let (decl, temp) ← bindTemp (storedType context arrayType value.expr) stored
  let checkedArray ← arrayUse.use context span
  let checkedPosition ← positionUse.use context span
  let check := checkStmt span .arrayStore [checkedArray, checkedPosition, .localVar span temp]
  let arrayExpr ← arrayUse.use context span
  let positionExpr ← positionUse.use context span
  blockExpr span (arrayDecl ++ positionDecl ++ [decl, check])
    (.assign span (.index span arrayExpr positionExpr) (.localVar span temp))

/-- The length of an array behind its check. -/
def arrayLength (context : Context) (span : Span) (array : Part) : LowerM Lowered.Expr := do
  let (decl, arrayUse) ← operand context array .object
  let check ← nullCheck context span arrayUse
  let arrayExpr ← arrayUse.use context span
  blockExpr span (decl ++ check) (.length span arrayExpr)

end ObjectLowering.Lowering
