/-
**What every flat unit has to satisfy.**

Every number that a node holds leads to a node, unless the form may lack that child; every window
lies within its store and holds such numbers; calls with a receiver have one argument at least, and
checks have as many as their kind takes; a class starts with the vtable pointer, its raw constructor
ends with it, and its bindings follow its slots.

* `FlatUnit.validate` reports the first violation: expressions first, then statements, then classes.
* `Violation.message` is the wording of a violation.
-/

import ObjectLowering.Lowered.Flat

namespace ObjectLowering.Lowered

/-- Where a node holds the number of an expression. -/
inductive ChildRole where
  | exprChild
  | stmtChild
  | listElement
  | staticInit
  | memberDefault
  deriving DecidableEq, Repr

/-- What a diagnostic calls the place. -/
def ChildRole.text : ChildRole → String
  | .exprChild => "expression child"
  | .stmtChild => "statement child"
  | .listElement => "list element"
  | .staticInit => "static initializer"
  | .memberDefault => "default member"

/-- What a flat unit fails to satisfy. -/
inductive Violation where
  /-- A number leads to no expression. -/
  | looseExpr (role : ChildRole) (id : NodeId) (count : Nat)
  /-- A number held by a statement leads to no statement. -/
  | looseStmt (parent id : NodeId) (count : Nat)
  /-- A number in a list leads to no statement. -/
  | looseListedStmt (id : NodeId) (count : Nat)
  | exprWindow (window : Window) (size : Nat)
  | stmtWindow (window : Window) (size : Nat)
  | callWithoutReceiver (id : NodeId)
  | initWithoutObject (id : NodeId)
  | checkArity (id : NodeId) (kind : CheckKind)
  | dataStart (className : Name)
  | ctorEnd (className : Name)
  | bindingCount (className : Name)
  | bindingOrder (className : Name)
  | looseBody (className routine : Name)
  deriving DecidableEq, Repr

/-- What a violation shows for a window. Its end has 32 bits. -/
def Violation.windowText (kind : NodeKind) (window : Window) (store : String) (size : Nat) :
    String :=
  if window.stop < 4294967296 then
    s!"{kind.windowName} {window.debug kind} exceeds {store} ({size})"
  else
    "attempt to add with overflow"

def Violation.message (names : NameTable) : Violation → String
  | .looseExpr role id count =>
    s!"{role.text} references LowId({id}) but arena has {count} nodes"
  | .looseStmt parent id count =>
    s!"LowStmt({parent}) references LowStmt({id}) but arena has {count} statements"
  | .looseListedStmt id count =>
    s!"statement list references LowStmt({id}) but arena has {count} statements"
  | .exprWindow window size => windowText .loweredExpr window "list storage" size
  | .stmtWindow window size => windowText .loweredStmt window "statement list storage" size
  | .callWithoutReceiver id => s!"LowNode({id}): instance call without receiver argument"
  | .initWithoutObject id => s!"LowNode({id}): __init without an object"
  | .checkArity id kind => s!"LowNode({id}): {kind.runtimeName} arity"
  | .dataStart className =>
    names.debug className ++ ": data must start with the vtable pointer"
  | .ctorEnd className =>
    names.debug className ++ ": default constructor must set the vtable pointer last"
  | .bindingCount className => names.debug className ++ ": one binding per vtable slot"
  | .bindingOrder className => names.debug className ++ ": binding out of slot order"
  | .looseBody className routine =>
    names.debug className ++ "::" ++ names.debug routine ++ " body out of bounds"

/-- A condition, with what its failure violates. -/
def require (holds : Bool) (violation : Violation) : Except Violation PUnit :=
  if holds then .ok () else .error violation

namespace FlatArena

/-- The number leads to an expression. -/
def checkExpr (arena : FlatArena) (role : ChildRole) (id : NodeId) : Except Violation PUnit :=
  require (id < arena.exprs.size) (.looseExpr role id arena.exprs.size)

/-- The number leads to an expression or is the invalid one. -/
def checkExprOption (arena : FlatArena) (role : ChildRole) (id : NodeId) :
    Except Violation PUnit :=
  if id.isValid then arena.checkExpr role id else .ok ()

/-- The number that a statement holds leads to a statement. -/
def checkStmt (arena : FlatArena) (parent id : NodeId) : Except Violation PUnit :=
  require (id < arena.stmts.size) (.looseStmt parent id arena.stmts.size)

/-- The number in a list leads to a statement. -/
def checkListedStmt (arena : FlatArena) (id : NodeId) : Except Violation PUnit :=
  require (id < arena.stmts.size) (.looseListedStmt id arena.stmts.size)

/-- The window lies within the store and holds numbers of expressions. -/
def checkExprs (arena : FlatArena) (window : Window) : Except Violation PUnit :=
  match arena.exprList? window with
  | none => .error (.exprWindow window arena.exprLists.size)
  | some ids => ids.forM (arena.checkExpr .listElement)

/-- The window lies within the store and holds numbers of statements. -/
def checkStmts (arena : FlatArena) (window : Window) : Except Violation PUnit :=
  match arena.stmtList? window with
  | none => .error (.stmtWindow window arena.stmtLists.size)
  | some ids => ids.forM arena.checkListedStmt

def checkNode (arena : FlatArena) (id : NodeId) (node : Node) : Except Violation PUnit :=
  let child := arena.checkExpr .exprChild
  match node with
  | .int _ | .float _ | .bool _ | .char _ | .str _ | .null | .localVar _ => .ok ()
  | .staticField .. | .alloc _ | .identity _ => .ok ()
  | .field only _ | .length only | .unary _ only | .cast _ only | .instanceOf only _ => child only
  | .arrayAlloc _ only => child only
  | .index first second | .assign first second | .binary _ first second => do
    child first
    child second
  | .virtualCall receiver _ args | .directCall receiver _ args => do
    child receiver
    arena.checkExprs args
    require (!args.isEmpty) (.callWithoutReceiver id)
  | .unresolvedCall receiver _ args => do
    arena.checkExprOption .exprChild receiver
    arena.checkExprs args
  | .initCall _ args => do
    arena.checkExprs args
    require (!args.isEmpty) (.initWithoutObject id)
  | .qualifiedCall _ _ args | .print _ args => arena.checkExprs args
  | .check kind args => do
    arena.checkExprs args
    require (args.length == kind.arity) (.checkArity id kind)
  | .block body result => do
    arena.checkStmts body
    child result

def checkFlatStmt (arena : FlatArena) (id : NodeId) (stmt : FlatStmt) : Except Violation PUnit :=
  let child := arena.checkExpr .stmtChild
  match stmt with
  | .eval expr => child expr
  | .localVar _ _ value | .ret value => arena.checkExprOption .stmtChild value
  | .block body => arena.checkStmts body
  | .branch cond yes no => do
    child cond
    arena.checkStmt id yes
    if no.isValid then arena.checkStmt id no
  | .whileLoop cond body => do
    child cond
    arena.checkStmt id body
  | .forLoop init cond update body => do
    arena.checkStmts init
    arena.checkExprOption .stmtChild cond
    arena.checkExprs update
    arena.checkStmt id body

/-- A class and the numbers it holds. -/
def checkClass (arena : FlatArena) (layout : ClassLayout NodeId NodeId) :
    Except Violation PUnit := do
  require (layout.data.head? == some .vtablePtr) (.dataStart layout.name)
  require (layout.ctor.getLast?.any (·.value?.isNone)) (.ctorEnd layout.name)
  require (layout.slots.length == layout.bindings.length) (.bindingCount layout.name)
  (layout.slots.zip layout.bindings).forM fun (slot, binding) =>
    require (slot.name == binding.slot) (.bindingOrder layout.name)
  layout.statics.forM fun storage => arena.checkExpr .staticInit storage.init
  (layout.ctor.filterMap (·.value?)).forM (arena.checkExpr .memberDefault)
  layout.routines.forM fun routine =>
    require (routine.body < arena.stmts.size) (.looseBody layout.name routine.name)

end FlatArena

/-- The first violation of a flat unit, if there is any. -/
def FlatUnit.validate (flat : FlatUnit) : Except Violation PUnit := do
  flat.arena.exprs.toList.zipIdx.forM fun ((_, node), id) => flat.arena.checkNode id node
  flat.arena.stmts.toList.zipIdx.forM fun (stmt, id) => flat.arena.checkFlatStmt id stmt
  flat.unit.classes.forM flat.arena.checkClass

end ObjectLowering.Lowered
