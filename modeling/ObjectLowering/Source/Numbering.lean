/-
**Numbering a written unit.**

One counter gives every class, field, method, expression and statement its span, the next stretch
of length one, at the moment it is complete; a class takes its span before its members. Expressions
and statements are numbered separately. A node is complete after its children, and the children are
taken from left to right, so numbers grow from the leaves to the root. A list of more than
`maxListLength` items is refused.

* `NodeNumbering.complete` takes the next number and span of an expression.
* `Written.UnitText.number` numbers a whole unit.
-/

import ObjectLowering.Source.Written

namespace ObjectLowering

open Source (Tag SourceUnit ClassDecl FieldDecl MethodDecl Param)
open Written (UnitText ClassText Field Method)

/-- What was numbered so far. -/
structure NodeNumbering where
  /-- Where the next span starts. -/
  cursor : Nat := 0
  /-- The expressions numbered so far, each at the position of its number. -/
  nodes : Array Source.Expr := #[]
  /-- How many statements were numbered. -/
  stmtCount : Nat := 0

namespace NodeNumbering

/-- Numbering a part of a unit: it moves the counters, and refuses an over-long list. -/
abbrev Step (α : Type) := StateT NodeNumbering (Except ListTooLong) α

def nextSpan : Step Span := do
  let state ← get
  set { state with cursor := state.cursor + 1 }
  return ⟨state.cursor, state.cursor + 1⟩

/-- Completes an expression: it takes the next span and the next number. -/
def complete (make : Tag → Source.Expr) : Step Source.Expr := do
  let span ← nextSpan
  let state ← get
  let expr := make ⟨state.nodes.size, span⟩
  set { state with nodes := state.nodes.push expr }
  return expr

/-- Completes a statement: it takes the next span. -/
def completeStmt (make : Span → Source.Stmt) : Step Source.Stmt := do
  let span ← nextSpan
  modify fun state => { state with stmtCount := state.stmtCount + 1 }
  return make span

/-- Refuses a list that is too long to be numbered. -/
def checkLength (kind : NodeKind) (count : Nat) : Step Unit :=
  liftM (checkListLength kind count)

end NodeNumbering

open NodeNumbering

mutual

/-- Numbers an expression after its children. -/
def Written.Expr.number : Written.Expr → Step Source.Expr
  | .int value => complete (.int · value)
  | .float bits => complete (.float · bits)
  | .bool value => complete (.bool · value)
  | .char value => complete (.char · value)
  | .str text => complete (.str · text)
  | .null => complete .null
  | .ident name => complete (.ident · name)
  | .this => complete .this
  | .super => complete .super
  | .field receiver name => do
    let receiver ← receiver.number
    complete (.field · receiver name)
  | .call none method args => do
    let args ← Written.Expr.numberList args
    checkLength .expr args.length
    complete (.call · none method args)
  | .call (some receiver) method args => do
    let receiver ← receiver.number
    let args ← Written.Expr.numberList args
    checkLength .expr args.length
    complete (.call · (some receiver) method args)
  | .chain target args => do
    let args ← Written.Expr.numberList args
    checkLength .expr args.length
    complete (.chain · target args)
  | .newObject className args => do
    let args ← Written.Expr.numberList args
    checkLength .expr args.length
    complete (.newObject · className args)
  | .newArray element dims extra => do
    let dims ← Written.Expr.numberList dims
    checkLength .expr dims.length
    complete (.newArray · element dims extra)
  | .index array position => do
    let array ← array.number
    let position ← position.number
    complete (.index · array position)
  | .assign target value => do
    let target ← target.number
    let value ← value.number
    complete (.assign · target value)
  | .binary op left right => do
    let left ← left.number
    let right ← right.number
    complete (.binary · op left right)
  | .unary op operand => do
    let operand ← operand.number
    complete (.unary · op operand)
  | .cast type operand => do
    let operand ← operand.number
    complete (.cast · type operand)
  | .instanceOf operand className => do
    let operand ← operand.number
    complete (.instanceOf · operand className)
  | .println args => do
    let args ← Written.Expr.numberList args
    let system ← complete (.ident · Reserved.system)
    let out ← complete (.field · system Reserved.out)
    checkLength .expr args.length
    complete (.call · (some out) Reserved.println args)

/-- Numbers several expressions from left to right. -/
def Written.Expr.numberList : List Written.Expr → Step (List Source.Expr)
  | [] => return []
  | expr :: rest => do
    let expr ← expr.number
    let rest ← Written.Expr.numberList rest
    return expr :: rest

end

/-- Numbers an expression that may be missing. -/
def Written.Expr.numberOption : Option Written.Expr → Step (Option Source.Expr)
  | none => return none
  | some expr => some <$> expr.number

/-- Completes a block of statements. -/
def NodeNumbering.completeBlock (body : List Source.Stmt) : Step Source.Stmt := do
  checkLength .stmt body.length
  completeStmt (.block · body)

mutual

/-- Numbers a statement after its children. -/
def Written.Stmt.number : Written.Stmt → Step Source.Stmt
  | .eval expr => do
    let expr ← expr.number
    completeStmt (.eval · expr)
  | .localVar type name init => do
    let init ← Written.Expr.numberOption init
    completeStmt (.localVar · type name init)
  | .block body => do
    let body ← Written.Stmt.numberList body
    completeBlock body
  | .branch cond yes none => do
    let cond ← cond.number
    let yes ← yes.number
    completeStmt (.branch · cond yes none)
  | .branch cond yes (some no) => do
    let cond ← cond.number
    let yes ← yes.number
    let no ← no.number
    completeStmt (.branch · cond yes (some no))
  | .whileLoop cond body => do
    let cond ← cond.number
    let body ← body.number
    completeStmt (.whileLoop · cond body)
  | .forLoop init cond update body => do
    let init ← Written.Stmt.numberList init
    let cond ← Written.Expr.numberOption cond
    let update ← Written.Expr.numberList update
    let body ← body.number
    checkLength .stmt init.length
    checkLength .expr update.length
    completeStmt (.forLoop · init cond update body)
  | .ret value => do
    let value ← Written.Expr.numberOption value
    completeStmt (.ret · value)

/-- Numbers several statements from first to last. -/
def Written.Stmt.numberList : List Written.Stmt → Step (List Source.Stmt)
  | [] => return []
  | stmt :: rest => do
    let stmt ← stmt.number
    let rest ← Written.Stmt.numberList rest
    return stmt :: rest

end

/-- Numbers a field after its initializer. -/
def Written.Field.number (field : Field) : Step FieldDecl := do
  let init ← Written.Expr.numberOption field.init
  let span ← nextSpan
  return ⟨field.name, field.type, init, field.modifiers, span⟩

/-- Numbers a method after its body. A constructor has its class's name and no result. -/
def Written.Method.number (owner : Name) (method : Method) : Step MethodDecl := do
  let stmts ← Written.Stmt.numberList method.body
  let replacement ←
    match method.replacement with
    | none => pure none
    | some stmt => some <$> stmt.number
  let block ← completeBlock stmts
  let span ← nextSpan
  return {
    name := method.name.getD owner
    params := method.params
    ret := if method.name.isSome then method.ret else .void
    body := replacement.getD block
    modifiers := method.modifiers
    span }

/-- Numbers a class before its members. -/
def Written.ClassText.number (decl : ClassText) : Step ClassDecl := do
  let span ← nextSpan
  let fields ← decl.fields.mapM Field.number
  let methods ← decl.methods.mapM (Method.number decl.name)
  return ⟨decl.name, decl.parent, fields, methods, span⟩

/-- Numbers a unit, or refuses its first over-long list. -/
def Written.UnitText.number (unit : UnitText) : Except ListTooLong SourceUnit := do
  let (classes, state) ← (unit.classes.mapM ClassText.number).run {}
  return {
    path := unit.path
    package := unit.package
    imports := unit.imports
    classes
    nodes := state.nodes
    stmtCount := state.stmtCount }

end ObjectLowering
