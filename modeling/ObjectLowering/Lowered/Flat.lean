/-
**Lowered units as numbered nodes.**

In the flat form a node refers to its children by number and to its lists by window. Reading follows
the numbers and gives trees.

* `Node.tree`, `FlatStmt.tree` make a tree from those of what a node or statement refers to.
* `FlatUnit.read`: a number that leads nowhere reads as `dangling`, the invalid number as `absent`.
* `FlatUnit.mentions` lists the names of a flat unit in the order in which it states them.
-/

import ObjectLowering.Arena
import ObjectLowering.Lowered.Layout

namespace ObjectLowering.Lowered

/-- A lowered expression that refers to its children by number. -/
inductive Node where
  | int (value : Int)
  | float (bits : UInt64)
  | bool (value : Bool)
  | char (value : Char)
  | str (text : String)
  | null
  | localVar (name : Name)
  | field (object : NodeId) (name : Name)
  | staticField (className name : Name)
  | length (array : NodeId)
  | index (array position : NodeId)
  | assign (target value : NodeId)
  | binary (op : BinaryOp) (left right : NodeId)
  | unary (op : UnaryOp) (operand : NodeId)
  | cast (type : Ty) (operand : NodeId)
  | instanceOf (operand : NodeId) (className : Name)
  | alloc (className : Name)
  | initCall (className : Name) (args : Window)
  | virtualCall (receiver : NodeId) (slot : Name) (args : Window)
  | qualifiedCall (className method : Name) (args : Window)
  | directCall (receiver : NodeId) (method : Name) (args : Window)
  | unresolvedCall (receiver : NodeId) (method : Name) (args : Window)
  | check (kind : CheckKind) (args : Window)
  | arrayAlloc (element : Ty) (size : NodeId)
  | identity (className : Name)
  | print (newline : Bool) (args : Window)
  | block (body : Window) (result : NodeId)
  deriving DecidableEq, Repr

/-- A lowered statement that refers to its children by number. -/
inductive FlatStmt where
  | eval (expr : NodeId)
  | localVar (type : Ty) (name : Name) (init : NodeId)
  | block (body : Window)
  | branch (cond yes no : NodeId)
  | whileLoop (cond body : NodeId)
  | forLoop (init : Window) (cond : NodeId) (update : Window) (body : NodeId)
  | ret (value : NodeId)
  deriving DecidableEq, Repr

/-- Numbered lowered nodes with their spans. -/
abbrev FlatArena := Arena (Span × Node) FlatStmt

/-- A lowered unit whose values and bodies are numbers. -/
structure FlatUnit where
  unit : CodeUnit NodeId NodeId
  arena : FlatArena

/-! ### From numbers to trees -/

/-- The tree of a node, given those of what it refers to. -/
def Node.tree (span : Span) (expr : NodeId → Expr) (exprs : Window → List Expr)
    (stmts : Window → List Stmt) : Node → Expr
  | .int value => .int span value
  | .float bits => .float span bits
  | .bool value => .bool span value
  | .char value => .char span value
  | .str text => .str span text
  | .null => .null span
  | .localVar name => .localVar span name
  | .field object name => .field span (expr object) name
  | .staticField className name => .staticField span className name
  | .length array => .length span (expr array)
  | .index array position => .index span (expr array) (expr position)
  | .assign target value => .assign span (expr target) (expr value)
  | .binary op left right => .binary span op (expr left) (expr right)
  | .unary op operand => .unary span op (expr operand)
  | .cast type operand => .cast span type (expr operand)
  | .instanceOf operand className => .instanceOf span (expr operand) className
  | .alloc className => .alloc span className
  | .initCall className args => .initCall span className (exprs args)
  | .virtualCall receiver slot args => .virtualCall span (expr receiver) slot (exprs args)
  | .qualifiedCall className method args => .qualifiedCall span className method (exprs args)
  | .directCall receiver method args => .directCall span (expr receiver) method (exprs args)
  | .unresolvedCall receiver method args =>
    .unresolvedCall span (expr receiver) method (exprs args)
  | .check kind args => .check span kind (exprs args)
  | .arrayAlloc element size => .arrayAlloc span element (expr size)
  | .identity className => .identity span className
  | .print newline args => .print span newline (exprs args)
  | .block body result => .block span (stmts body) (expr result)

/-- The tree of a statement, given those of what it refers to. -/
def FlatStmt.tree (expr : NodeId → Expr) (exprs : Window → List Expr) (stmt : NodeId → Stmt)
    (stmts : Window → List Stmt) : FlatStmt → Stmt
  | .eval value => .eval (expr value)
  | .localVar type name init => .localVar type name (expr init)
  | .block body => .block (stmts body)
  | .branch cond yes no => .branch (expr cond) (stmt yes) (stmt no)
  | .whileLoop cond body => .whileLoop (expr cond) (stmt body)
  | .forLoop init cond update body =>
    .forLoop (stmts init) (expr cond) (exprs update) (stmt body)
  | .ret value => .ret (expr value)

namespace FlatArena

mutual

/-- The tree of an expression, followed down to a depth. -/
def readExpr (arena : FlatArena) : Nat → NodeId → Expr
  | 0, _ => .dangling
  | depth + 1, id =>
    if id = NodeId.invalid then .absent
    else
      match arena.expr? id with
      | none => .dangling
      | some (span, node) =>
        node.tree span (readExpr arena depth) (readExprs arena depth) (readStmts arena depth)

/-- The trees of a window of expressions; a window outside the store reads as one loose end. -/
def readExprs (arena : FlatArena) : Nat → Window → List Expr
  | 0, _ => [.dangling]
  | depth + 1, window =>
    match arena.exprList? window with
    | none => [.dangling]
    | some ids => ids.map (readExpr arena depth)

/-- The tree of a statement, followed down to a depth. -/
def readStmt (arena : FlatArena) : Nat → NodeId → Stmt
  | 0, _ => .dangling
  | depth + 1, id =>
    if id = NodeId.invalid then .absent
    else
      match arena.stmt? id with
      | none => .dangling
      | some stmt =>
        stmt.tree (readExpr arena depth) (readExprs arena depth) (readStmt arena depth)
          (readStmts arena depth)

/-- The trees of a window of statements; a window outside the store reads as one loose end. -/
def readStmts (arena : FlatArena) : Nat → Window → List Stmt
  | 0, _ => [.dangling]
  | depth + 1, window =>
    match arena.stmtList? window with
    | none => [.dangling]
    | some ids => ids.map (readStmt arena depth)

end

/-- A depth that no tree in the arena exceeds: a node and a list for each number. -/
def depth (arena : FlatArena) : Nat := 2 * (arena.exprs.size + arena.stmts.size) + 1

end FlatArena

/-- The unit with its trees in place of their numbers. -/
def FlatUnit.read (flat : FlatUnit) : TreeUnit where
  path := flat.unit.path
  package := flat.unit.package
  imports := flat.unit.imports
  classes := flat.unit.classes.map
    (·.map (flat.arena.readExpr flat.arena.depth) (flat.arena.readStmt flat.arena.depth))

/-! ### The names of a flat unit -/

def Node.mentions : Node → List Name
  | .str text => [text]
  | .localVar name | .field _ name => [name]
  | .staticField className name => [className, name]
  | .cast type _ | .arrayAlloc type _ => type.mentions
  | .instanceOf _ className | .alloc className | .initCall className _ => [className]
  | .virtualCall _ slot _ => [slot]
  | .qualifiedCall className method _ => [className, method]
  | .directCall _ method _ | .unresolvedCall _ method _ => [method]
  | .identity className => [className]
  | _ => []

/-- The names that a statement states. -/
def FlatStmt.mentions : FlatStmt → List Name
  | .localVar type name _ => type.mentions ++ [name]
  | _ => []

def DataMember.mentions : DataMember → List Name
  | .vtablePtr => []
  | .field name type owner => name :: type.mentions ++ [owner]

/-- The names of a member that the raw constructor sets. -/
def MemberInit.mentions {ε : Type} : MemberInit ε → List Name
  | .vtablePtr => []
  | .field name _ => [name]

def Method.mentions {σ : Type} (method : Method σ) : List Name :=
  method.name :: method.source :: method.owner ::
    method.params.flatMap (fun param => param.type.mentions ++ [param.name]) ++
    method.ret.mentions

def ClassLayout.mentions {ε σ : Type} (layout : ClassLayout ε σ) : List Name :=
  layout.name :: layout.parent :: layout.identity.qualified ::
    layout.data.flatMap DataMember.mentions ++
    layout.statics.flatMap (fun storage => storage.name :: storage.type.mentions) ++
    layout.slots.flatMap (fun slot =>
      slot.name :: slot.source :: slot.params.flatMap Ty.mentions ++ slot.ret.mentions ++
        [slot.declaredIn]) ++
    layout.bindings.flatMap (fun binding => [binding.slot, binding.owner, binding.implName]) ++
    layout.ctor.flatMap MemberInit.mentions ++
    layout.routines.flatMap Method.mentions

/-- The names of a unit: its package, its expressions, its statements, its classes. -/
def FlatUnit.mentions (flat : FlatUnit) : List Name :=
  flat.unit.package ++ flat.arena.exprs.toList.flatMap (·.2.mentions) ++
    flat.arena.stmts.toList.flatMap FlatStmt.mentions ++
    flat.unit.classes.flatMap ClassLayout.mentions

end ObjectLowering.Lowered
