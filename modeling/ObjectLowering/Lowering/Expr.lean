/-
**Lowering expressions.**

Lowering follows the source tree. Each case hands the lowerings of its children on, so that a form
decides how often and in which order they run.

* `Source.Expr.lower` lowers an expression.
* `Source.Expr.lowerEach` are the lowerings of a list, and `Source.Expr.lowerEach_eq_map` says that
  they are those of its items.
-/

import ObjectLowering.Lowering.Array
import ObjectLowering.Lowering.Call

namespace ObjectLowering

namespace Lowering

/-- A field of the current receiver, or a static field of the class that declares it. -/
def fieldRef (context : Context) (span : Span) (field : FieldRef) (name : Name) : Lowered.Expr :=
  if (context.facade.field field).any (·.isStatic) then .staticField span field.className name
  else .field span (selfExpr context span) name

/-- A bare identifier. One without a known meaning stays a local. -/
def identifier (context : Context) (tag : Source.Tag) (name : Name) : Lowered.Expr :=
  match context.facade.meaning tag.id with
  | some (.field field) => fieldRef context tag.span field name
  | _ => .localVar tag.span name

/-- The class whose static field a member access means, if it means one: the field is static, or the
receiver is a class. -/
def staticOwner? (context : Context) (id receiver : NodeId) : Option Name :=
  let byField : Option Name :=
    match context.facade.meaning id with
    | some (.field field) =>
      if (context.facade.field field).any (·.isStatic) then some field.className else none
    | _ => none
  let byReceiver : Option Name :=
    match context.facade.meaning receiver with
    | some (.class className) => some className
    | _ => none
  byField.or byReceiver

/-- A member access: a static field, the length of an array, or a field of an object. -/
def memberAccess (context : Context) (tag : Source.Tag) (receiver : Part) (name : Name) :
    LowerM Lowered.Expr :=
  match staticOwner? context tag.id receiver.expr.id with
  | some className => return .staticField tag.span className name
  | none =>
    if name == Reserved.length && (context.facade.exprType receiver.expr.id).any (·.isArray) then
      arrayLength context tag.span receiver
    else do
      let object ← receiver.lower
      return .field tag.span object name

end Lowering

open Lowering

mutual

/-- Lowers an expression within a routine. -/
def Source.Expr.lower (context : Context) (routine : Routine) :
    Source.Expr → LowerM Lowered.Expr
  | .int tag value => return .int tag.span value
  | .float tag bits => return .float tag.span bits
  | .bool tag value => return .bool tag.span value
  | .char tag value => return .char tag.span value
  | .str tag text => return .str tag.span text
  | .null tag => return .null tag.span
  | .this tag => return selfExpr context tag.span
  | .super tag => return selfExpr context tag.span
  | .ident tag name => return identifier context tag name
  | .field tag receiver name =>
    memberAccess context tag ⟨receiver, receiver.lower context routine⟩ name
  | .call tag none method args =>
    lowerCall context routine ⟨tag, none, method, Source.Expr.lowerEach context routine args⟩
  | .call tag (some receiver) method args =>
    lowerCall context routine
      ⟨tag, some ⟨receiver, receiver.lower context routine⟩, method,
        Source.Expr.lowerEach context routine args⟩
  | .chain tag target args =>
    chainCall context routine tag.span target (Source.Expr.lowerEach context routine args)
  | .newObject tag className args =>
    lowerNewObject tag.span className (Source.Expr.lowerEach context routine args)
  | .newArray tag element dims extra =>
    lowerNewArray context tag.span element (Source.Expr.lowerEach context routine dims) extra
  | .index tag array position =>
    readElement context tag.span ⟨array, array.lower context routine⟩
      ⟨position, position.lower context routine⟩
  | .assign tag target value =>
    match target with
    | .index _ array position =>
      store context tag.span ⟨array, array.lower context routine⟩
        ⟨position, position.lower context routine⟩ ⟨value, value.lower context routine⟩
    | target => do
      let target ← target.lower context routine
      let value ← value.lower context routine
      return .assign tag.span target value
  | .binary tag op left right => do
    let left ← left.lower context routine
    let right ← right.lower context routine
    return .binary tag.span op left right
  | .unary tag op operand =>
    match op.mutates, operand with
    | true, .index _ array position =>
      updateElement context tag.span op ⟨array, array.lower context routine⟩
        ⟨position, position.lower context routine⟩
    | _, operand => do
      let operand ← operand.lower context routine
      return .unary tag.span op operand
  | .cast tag type operand => do
    let operand ← operand.lower context routine
    return .cast tag.span type operand
  | .instanceOf tag operand className => do
    let operand ← operand.lower context routine
    return .instanceOf tag.span operand className

/-- The lowerings of a list of expressions. -/
def Source.Expr.lowerEach (context : Context) (routine : Routine) :
    List Source.Expr → List (LowerM Lowered.Expr)
  | [] => []
  | expr :: rest => expr.lower context routine :: Source.Expr.lowerEach context routine rest

end

theorem Source.Expr.lowerEach_eq_map (context : Context) (routine : Routine)
    (exprs : List Source.Expr) :
    Source.Expr.lowerEach context routine exprs = exprs.map (·.lower context routine) := by
  induction exprs with
  | nil => rfl
  | cons expr rest step => simp [Source.Expr.lowerEach, step]

/-- Lowers an expression that may be missing. -/
def Source.Expr.lowerOption (context : Context) (routine : Routine) :
    Option Source.Expr → LowerM Lowered.Expr
  | none => return .absent
  | some expr => expr.lower context routine

end ObjectLowering
