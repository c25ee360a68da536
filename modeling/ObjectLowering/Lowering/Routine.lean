/-
**What lowering a routine rests on, and its temporaries.**

Lowering reads the answers of a facade and the facts of the whole program, and gives trees; the same
steps with numbers in place of trees are those of building. Within a routine it counts temporaries:
each takes the next name `__tmp<n>`. A value that is used more than once is an `Operand`: evaluated
again at each use if that cannot be told apart, else read once into a temporary.

* `LowerM` counts temporaries and stops at the first failure.
* `operand` prepares a value for repeated use; `operandBefore` does so where something else is
  evaluated between the preparation and the uses.
* `Operand.use` gives a fresh tree for one use.
-/

import ObjectLowering.Arena
import ObjectLowering.Lowered.Layout
import ObjectLowering.Mangling.CallSites

namespace ObjectLowering

/-- Choices for one run of lowering. -/
structure LoweringOptions where
  /-- Refuse a call without a target. -/
  strict : Bool := false
  /-- Check receivers of calls through the vtable and arrays whose length is read. -/
  nullChecks : Bool := true
  /-- Check positions, stored values and lengths of arrays. -/
  arrayChecks : Bool := true
  /-- The static method that is the entry point. -/
  entryPoint : Name := Reserved.main
  /-- The receiver parameter. -/
  selfParam : Name := Reserved.self
  deriving DecidableEq, Repr

/-- The facts of a whole program that every unit's lowering reads. -/
structure Facts where
  mangle : MangleTable
  chains : InitializerChains Source.Expr
  vtables : VtableSet

/-- Why lowering a unit stopped. -/
inductive LoweringFailure where
  | error (error : LoweringError)
  | listTooLong (refusal : ListTooLong)
  deriving DecidableEq, Repr

/-- What a routine is lowered as. -/
inductive Mode where
  | instanceMethod
  | static
  /-- The entry point, which returns an exit status. -/
  | entry
  /-- The second phase of construction, which returns the receiver. -/
  | constructor
  deriving DecidableEq, Repr

/-- The routine that is lowered. -/
structure Routine where
  className : Name
  method : Option MethodRef
  mode : Mode
  /-- The body hands the receiver on to another constructor. -/
  chained : Bool := false
  deriving DecidableEq, Repr

namespace Routine

/-- Whether the routine is the entry point. -/
def inEntry (routine : Routine) : Bool := routine.mode == .entry

/-- Whether the routine is part of construction. -/
def inConstructor (routine : Routine) : Bool := routine.mode == .constructor

end Routine

/-- Lowering within a routine: it counts temporaries and stops at the first failure. -/
abbrev LowerM := StateT Nat (Except LoweringFailure)

namespace Lowering

open Lowered (CheckKind)

/-- What lowering a unit reads. -/
structure Context where
  facade : Facade
  sites : CallSites
  facts : Facts
  options : LoweringOptions

/-- Stops with an error of the program. -/
def fail {α : Type} (error : LoweringError) : LowerM α := throw (.error error)

/-- Passes a list on unless it is too long to be numbered. -/
def checkLength {α : Type} (kind : NodeKind) (items : List α) : LowerM PUnit :=
  match checkListLength kind items.length with
  | .ok () => return ()
  | .error refusal => throw (.listTooLong refusal)

/-- Runs steps one after the other. -/
def runEach {m : Type → Type} [Monad m] {α : Type} : List (m α) → m (List α)
  | [] => return []
  | step :: rest => do
    let first ← step
    let others ← runEach rest
    return first :: others

/-- The name of a temporary. -/
def tempName (number : Nat) : Name := "__tmp" ++ toString number

def freshTemp : LowerM Name := do
  let number ← get
  set (number + 1)
  return tempName number

/-- A fresh temporary that holds a value, with its declaration. -/
def bindTemp (type : Ty) (value : Lowered.Expr) : LowerM (Lowered.Stmt × Name) := do
  let name ← freshTemp
  return (.localVar type name value, name)

def selfExpr (context : Context) (span : Span) : Lowered.Expr :=
  .localVar span context.options.selfParam

/-- A value behind statements; the value alone if there are none. -/
def blockExpr (span : Span) (stmts : List Lowered.Stmt) (result : Lowered.Expr) :
    LowerM Lowered.Expr :=
  if stmts.isEmpty then
    return result
  else do
    checkLength .loweredStmt stmts
    return .block span stmts result

def checkStmt (span : Span) (kind : CheckKind) (args : List Lowered.Expr) : Lowered.Stmt :=
  .eval (.check span kind args)

def defaultExpr (span : Span) : DefaultLiteral → Lowered.Expr
  | .int => .int span 0
  | .float => .float span 0
  | .bool => .bool span false
  | .char => .char span (Char.ofNat 0)
  | .null => .null span

/-- The static type of an expression, or another one where it is unknown or has no values. -/
def typeOr (context : Context) (expr : Source.Expr) (fallback : Ty) : Ty :=
  match context.facade.exprType expr.id with
  | none | some .null | some .void => fallback
  | some type => type

/-! ### Operands -/

/-- A source expression with the step that lowers it. -/
structure Part where
  expr : Source.Expr
  lower : LowerM Lowered.Expr

/-- A value that is used more than once. -/
inductive Operand where
  /-- Lowered again for each use. -/
  | reread (lower : LowerM Lowered.Expr)
  /-- Read once into a temporary. -/
  | temp (name : Name)
  /-- The current receiver. -/
  | self

namespace Operand

/-- Whether the operand is the current receiver. -/
def isSelf : Operand → Bool
  | self => true
  | _ => false

def use (context : Context) (span : Span) : Operand → LowerM Lowered.Expr
  | reread lower => lower
  | temp name => return .localVar span name
  | self => return selfExpr context span

end Operand

/-- Reads a value into a temporary, unless it is the receiver. -/
def readOnce (context : Context) (part : Part) (fallback : Ty) :
    LowerM (List Lowered.Stmt × Operand) :=
  if part.expr.isReceiver then
    return ([], .self)
  else do
    let value ← part.lower
    let (decl, name) ← bindTemp (typeOr context part.expr fallback) value
    return ([decl], .temp name)

/-- Prepares a value for repeated use. -/
def operand (context : Context) (part : Part) (fallback : Ty) :
    LowerM (List Lowered.Stmt × Operand) :=
  if part.expr.isPure && !part.expr.isReceiver then return ([], .reread part.lower)
  else readOnce context part fallback

/-- Prepares a value for repeated use after something else is evaluated. Unless that is pure, only a
literal may be evaluated again. -/
def operandBefore (context : Context) (part : Part) (fallback : Ty) (later : Source.Expr) :
    LowerM (List Lowered.Stmt × Operand) :=
  if later.isPure || part.expr.isConstant then operand context part fallback
  else readOnce context part fallback

/-- Checks a value against `null`, unless it is the receiver. -/
def nullCheck (context : Context) (span : Span) (value : Operand) : LowerM (List Lowered.Stmt) :=
  if !context.options.nullChecks || value.isSelf then
    return []
  else do
    let value ← value.use context span
    return [checkStmt span .notNull [value]]

end Lowering

end ObjectLowering
