/-
**Building arrays.**

An array is made one level at a time, with checked lengths. The head of the loop that fills a level
is built before the next level, its body and the loop after it. An element is built anew behind the
check of its position, from the same operands.

* `buildNewArray` makes an array; several sized dimensions fill the outer levels in loops.
* `slot` is an element behind its check.
* `store` evaluates the stored value once, checks it against the array and stores it.
-/

import ObjectLowering.Building.Routine
import ObjectLowering.Lowering.Array

namespace ObjectLowering.Building

open Lowering (Context runEach storedType typeOr)

/-- A length that is checked where lengths are. -/
def checkedLength (context : Context) (span : Span) (size : NodeId) : ArenaM NodeId :=
  if context.options.arrayChecks then check span .negativeLength [size] else return size

/-- The comparison that ends the loop over a level. -/
def levelTest (span : Span) (counter size : Name) : ArenaM NodeId := do
  let left ← addExpr span (.localVar counter)
  let right ← addExpr span (.localVar size)
  addExpr span (.binary .less left right)

def levelStep (span : Span) (counter : Name) : ArenaM NodeId := do
  let count ← addExpr span (.localVar counter)
  addExpr span (.unary .postIncrement count)

/-- The body of the loop over a level: it stores a value, behind the statements that make it. -/
def fillBody (span : Span) (array counter : Name) (stmts : List NodeId) (value : NodeId) :
    ArenaM NodeId := do
  let arrayExpr ← addExpr span (.localVar array)
  let position ← addExpr span (.localVar counter)
  let element ← addExpr span (.index arrayExpr position)
  let assign ← addExpr span (.assign element value)
  let store ← addStmt (.eval assign)
  blockStmt (stmts ++ [store])

/-- The loop that stores a value in every element of a level. The value is made anew for each
element, by the statements in front of it. -/
def fillLoop (span : Span) (array counter : Name) (counterDecl test step : NodeId)
    (stmts : List NodeId) (value : NodeId) : ArenaM NodeId := do
  let body ← fillBody span array counter stmts value
  let init ← addStmts [counterDecl]
  let update ← addExprs [step]
  addStmt (.forLoop init test update body)

/-- An array of one level whose length is in a temporary. -/
def level (span : Span) (element : Ty) (size : Name) : ArenaM NodeId := do
  let length ← addExpr span (.localVar size)
  addExpr span (.arrayAlloc element length)

/-- The level whose length is the first name, each of its elements filled with the next level: the
statements that make it and the array itself. -/
def fillLevels (span : Span) (leaf : Ty) (size : Name) :
    List Name → BuildM (List NodeId × NodeId)
  | [] => do
    let array ← level span leaf size
    return ([], array)
  | next :: rest => do
    let element := leaf.arrayOf (rest.length + 1)
    let made ← level span element size
    let (arrayDecl, array) ← bindTemp (.array element) made
    let start ← addExpr span (.int 0)
    let (counterDecl, counter) ← bindTemp .int start
    let test ← levelTest span counter size
    let step ← levelStep span counter
    let (stmts, value) ← fillLevels span leaf next rest
    let loop ← fillLoop span array counter counterDecl test step stmts value
    let result ← addExpr span (.localVar array)
    return ([arrayDecl, loop], result)

/-- The checked length of a dimension in a temporary. -/
def bindDimension (context : Context) (span : Span) (dim : BuildM NodeId) :
    BuildM (NodeId × Name) := do
  let size ← dim
  let size ← checkedLength context span size
  bindTemp .int size

/-- A new array with sized dimensions and unsized ones behind them. -/
def buildNewArray (context : Context) (span : Span) (element : Ty) (dims : List (BuildM NodeId))
    (extra : Nat) : BuildM NodeId := do
  let leaf := element.arrayOf extra
  match dims with
  | [] => fail (.unmet Reserved.empty .arrayDimension span)
  | [dim] =>
    let size ← dim
    let size ← checkedLength context span size
    addExpr span (.arrayAlloc leaf size)
  | dim :: next :: rest =>
    let (decl, size) ← bindDimension context span dim
    let bound ← runEach ((next :: rest).map (bindDimension context span))
    let (stmts, array) ← fillLevels span leaf size (bound.map (·.2))
    blockExpr span (decl :: bound.map (·.1) ++ stmts) array

/-- The element of an array at a position, both used once more. -/
def element (context : Context) (span : Span) (array position : Operand) : BuildM NodeId := do
  let arrayExpr ← array.use context span
  let positionExpr ← position.use context span
  addExpr span (.index arrayExpr positionExpr)

/-- An element, with the statements in front of it. -/
def slot (context : Context) (span : Span) (array position : Part) :
    BuildM (List NodeId × NodeId) := do
  let (arrayDecl, arrayUse) ← operandBefore context array .object position.expr
  if !context.options.arrayChecks then
    let arrayExpr ← arrayUse.use context span
    let positionExpr ← position.build
    let slot ← addExpr span (.index arrayExpr positionExpr)
    return (arrayDecl, slot)
  let (positionDecl, positionUse) ← operand context position .int
  let checkedArray ← arrayUse.use context span
  let checkedPosition ← positionUse.use context span
  let check ← checkStmt span .arrayAccess [checkedArray, checkedPosition]
  let slot ← element context span arrayUse positionUse
  return (arrayDecl ++ positionDecl ++ [check], slot)

def readElement (context : Context) (span : Span) (array position : Part) : BuildM NodeId := do
  let (stmts, element) ← slot context span array position
  blockExpr span stmts element

/-- An element that is written in place. -/
def updateElement (context : Context) (span : Span) (op : UnaryOp) (array position : Part) :
    BuildM NodeId := do
  let (stmts, element) ← slot context span array position
  let update ← addExpr span (.unary op element)
  blockExpr span stmts update

def store (context : Context) (span : Span) (array position value : Part) : BuildM NodeId := do
  let arrayType := typeOr context array.expr .object
  let (arrayDecl, arrayUse) ← operandBefore context array arrayType value.expr
  let (positionDecl, positionUse) ← operandBefore context position .int value.expr
  if !context.options.arrayChecks then
    let slot ← element context span arrayUse positionUse
    let stored ← value.build
    let assign ← addExpr span (.assign slot stored)
    return ← blockExpr span (arrayDecl ++ positionDecl) assign
  let stored ← value.build
  let (decl, temp) ← bindTemp (storedType context arrayType value.expr) stored
  let checkedArray ← arrayUse.use context span
  let checkedPosition ← positionUse.use context span
  let checkedValue ← addExpr span (.localVar temp)
  let check ← checkStmt span .arrayStore [checkedArray, checkedPosition, checkedValue]
  let slot ← element context span arrayUse positionUse
  let again ← addExpr span (.localVar temp)
  let assign ← addExpr span (.assign slot again)
  blockExpr span (arrayDecl ++ positionDecl ++ [decl, check]) assign

/-- The length of an array behind its check. -/
def arrayLength (context : Context) (span : Span) (array : Part) : BuildM NodeId := do
  let (decl, arrayUse) ← operand context array .object
  let check ← nullCheck context span arrayUse
  let arrayExpr ← arrayUse.use context span
  let length ← addExpr span (.length arrayExpr)
  blockExpr span (decl ++ check) length

end ObjectLowering.Building
