/-
**Building expressions.**

Building follows the source tree. Each case hands the steps of its children on, so that a form
decides how often and in which order they run: a child that is used three times is built three
times, under three numbers.

* `Source.Expr.build` builds an expression and gives its number.
* `Source.Expr.buildEach` are the steps of a list.
-/

import ObjectLowering.Building.Array
import ObjectLowering.Building.Call
import ObjectLowering.Lowering.Expr

namespace ObjectLowering

namespace Building

open Lowering (Context staticOwner?)

/-- A field of the current receiver, or a static field of the class that declares it. -/
def fieldRef (context : Context) (span : Span) (field : FieldRef) (name : Name) : ArenaM NodeId :=
  if (context.facade.field field).any (·.isStatic) then
    addExpr span (.staticField field.className name)
  else do
    let object ← selfExpr context span
    addExpr span (.field object name)

/-- A bare identifier. One without a known meaning stays a local. -/
def identifier (context : Context) (tag : Source.Tag) (name : Name) : ArenaM NodeId :=
  match context.facade.meaning tag.id with
  | some (.field field) => fieldRef context tag.span field name
  | _ => addExpr tag.span (.localVar name)

/-- A member access: a static field, the length of an array, or a field of an object. -/
def memberAccess (context : Context) (tag : Source.Tag) (receiver : Part) (name : Name) :
    BuildM NodeId :=
  match staticOwner? context tag.id receiver.expr.id with
  | some className => addExpr tag.span (.staticField className name)
  | none =>
    if name == Reserved.length && (context.facade.exprType receiver.expr.id).any (·.isArray) then
      arrayLength context tag.span receiver
    else do
      let object ← receiver.build
      addExpr tag.span (.field object name)

end Building

open Building
open Lowering (Context)

mutual

/-- Builds an expression within a routine. -/
def Source.Expr.build (context : Context) (routine : Routine) : Source.Expr → BuildM NodeId
  | .int tag value => addExpr tag.span (.int value)
  | .float tag bits => addExpr tag.span (.float bits)
  | .bool tag value => addExpr tag.span (.bool value)
  | .char tag value => addExpr tag.span (.char value)
  | .str tag text => addExpr tag.span (.str text)
  | .null tag => addExpr tag.span .null
  | .this tag => selfExpr context tag.span
  | .super tag => selfExpr context tag.span
  | .ident tag name => identifier context tag name
  | .field tag receiver name =>
    memberAccess context tag ⟨receiver, receiver.build context routine⟩ name
  | .call tag none method args =>
    buildCall context routine ⟨tag, none, method, Source.Expr.buildEach context routine args⟩
  | .call tag (some receiver) method args =>
    buildCall context routine
      ⟨tag, some ⟨receiver, receiver.build context routine⟩, method,
        Source.Expr.buildEach context routine args⟩
  | .chain tag target args =>
    chainCall context routine tag.span target (Source.Expr.buildEach context routine args)
  | .newObject tag className args =>
    buildNewObject tag.span className (Source.Expr.buildEach context routine args)
  | .newArray tag element dims extra =>
    buildNewArray context tag.span element (Source.Expr.buildEach context routine dims) extra
  | .index tag array position =>
    readElement context tag.span ⟨array, array.build context routine⟩
      ⟨position, position.build context routine⟩
  | .assign tag target value =>
    match target with
    | .index _ array position =>
      store context tag.span ⟨array, array.build context routine⟩
        ⟨position, position.build context routine⟩ ⟨value, value.build context routine⟩
    | target => do
      let target ← target.build context routine
      let value ← value.build context routine
      addExpr tag.span (.assign target value)
  | .binary tag op left right => do
    let left ← left.build context routine
    let right ← right.build context routine
    addExpr tag.span (.binary op left right)
  | .unary tag op operand =>
    match op.mutates, operand with
    | true, .index _ array position =>
      updateElement context tag.span op ⟨array, array.build context routine⟩
        ⟨position, position.build context routine⟩
    | _, operand => do
      let operand ← operand.build context routine
      addExpr tag.span (.unary op operand)
  | .cast tag type operand => do
    let operand ← operand.build context routine
    addExpr tag.span (.cast type operand)
  | .instanceOf tag operand className => do
    let operand ← operand.build context routine
    addExpr tag.span (.instanceOf operand className)

/-- The steps that build a list of expressions. -/
def Source.Expr.buildEach (context : Context) (routine : Routine) :
    List Source.Expr → List (BuildM NodeId)
  | [] => []
  | expr :: rest => expr.build context routine :: Source.Expr.buildEach context routine rest

end

/-- Builds an expression that may be missing. -/
def Source.Expr.buildOption (context : Context) (routine : Routine) :
    Option Source.Expr → BuildM NodeId
  | none => return NodeId.invalid
  | some expr => expr.build context routine

end ObjectLowering
