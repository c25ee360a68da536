/-
**The lowered form of bodies.**

Every node names its mechanism at run time: how a call is dispatched, where a check happens, how an
object or array is made. Expressions carry the span of the source node they come from. `absent`
stands where a form may lack an expression or statement. `dangling` stands where a reference into a
flat unit leads nowhere; lowering makes none.

* `CheckKind` are the run-time checks with their names and arities.
* `Expr.isReadable`, `Stmt.isReadable` say that printing meets no missing part.
-/

import ObjectLowering.Operator
import ObjectLowering.Span
import ObjectLowering.Ty

namespace ObjectLowering.Lowered

/-- A check at run time. -/
inductive CheckKind where
  /-- The reference is not `null`. -/
  | notNull
  /-- The length is not negative; the check has the length as its value. -/
  | negativeLength
  /-- The position is within the array. -/
  | arrayAccess
  /-- The position is within the array, which takes the value. -/
  | arrayStore
  deriving DecidableEq, Repr

namespace CheckKind

/-- The function that performs the check. -/
def runtimeName : CheckKind → String
  | .notNull => "checkNotNull"
  | .negativeLength => "checkNegativeIndex"
  | .arrayAccess => "arrayAccessCheck"
  | .arrayStore => "arrayStoreCheck"

/-- How many arguments the check takes. -/
def arity : CheckKind → Nat
  | .notNull | .negativeLength => 1
  | .arrayAccess => 2
  | .arrayStore => 3

def all : List CheckKind := [.notNull, .negativeLength, .arrayAccess, .arrayStore]

end CheckKind

mutual

/-- A lowered expression. -/
inductive Expr where
  | absent
  | dangling
  | int (span : Span) (value : Int)
  | float (span : Span) (bits : UInt64)
  | bool (span : Span) (value : Bool)
  | char (span : Span) (value : Char)
  | str (span : Span) (text : String)
  | null (span : Span)
  /-- A local, a parameter, a temporary or the receiver. -/
  | localVar (span : Span) (name : Name)
  | field (span : Span) (object : Expr) (name : Name)
  | staticField (span : Span) (className name : Name)
  | length (span : Span) (array : Expr)
  /-- Element access without a check. -/
  | index (span : Span) (array position : Expr)
  | assign (span : Span) (target value : Expr)
  | binary (span : Span) (op : BinaryOp) (left right : Expr)
  | unary (span : Span) (op : UnaryOp) (operand : Expr)
  | cast (span : Span) (type : Ty) (operand : Expr)
  | instanceOf (span : Span) (operand : Expr) (className : Name)
  /-- A new object whose members have their defaults. -/
  | alloc (span : Span) (className : Name)
  /-- The second phase of construction; the first argument is the object. -/
  | initCall (span : Span) (className : Name) (args : List Expr)
  /-- A call through the vtable; the first argument is the receiver. -/
  | virtualCall (span : Span) (receiver : Expr) (slot : Name) (args : List Expr)
  /-- A call by class. -/
  | qualifiedCall (span : Span) (className method : Name) (args : List Expr)
  /-- A call of a known implementation; the first argument is the receiver. -/
  | directCall (span : Span) (receiver : Expr) (method : Name) (args : List Expr)
  /-- A call without a target, under its source name. -/
  | unresolvedCall (span : Span) (receiver : Expr) (method : Name) (args : List Expr)
  | check (span : Span) (kind : CheckKind) (args : List Expr)
  /-- A new array of one level. -/
  | arrayAlloc (span : Span) (element : Ty) (size : Expr)
  /-- The run-time identity of a class. -/
  | identity (span : Span) (className : Name)
  /-- Console output of the arguments in order. -/
  | print (span : Span) (newline : Bool) (args : List Expr)
  /-- Runs statements and then has the result as its value. -/
  | block (span : Span) (body : List Stmt) (result : Expr)

/-- A lowered statement. -/
inductive Stmt where
  | absent
  | dangling
  | eval (expr : Expr)
  | localVar (type : Ty) (name : Name) (init : Expr)
  | block (body : List Stmt)
  | branch (cond : Expr) (yes no : Stmt)
  | whileLoop (cond : Expr) (body : Stmt)
  | forLoop (init : List Stmt) (cond : Expr) (update : List Expr) (body : Stmt)
  | ret (value : Expr)

end

namespace Expr

/-- Whether there is no expression. -/
def isAbsent : Expr → Bool
  | absent => true
  | _ => false

/-- The span of a node, if it is one. -/
def span? : Expr → Option Span
  | absent | dangling => none
  | int span _ | float span _ | bool span _ | char span _ | str span _ | null span => some span
  | localVar span _ | field span _ _ | staticField span _ _ | length span _ => some span
  | index span _ _ | assign span _ _ | binary span _ _ _ | unary span _ _ => some span
  | cast span _ _ | instanceOf span _ _ | alloc span _ | initCall span _ _ => some span
  | virtualCall span _ _ _ | qualifiedCall span _ _ _ | directCall span _ _ _ => some span
  | unresolvedCall span _ _ _ | check span _ _ | arrayAlloc span _ _ => some span
  | identity span _ | print span _ _ | block span _ _ => some span

end Expr

namespace Stmt

def isAbsent : Stmt → Bool
  | absent => true
  | _ => false

def isReturn : Stmt → Bool
  | ret _ => true
  | _ => false

end Stmt

mutual

/-- Whether printing the expression meets no missing part. A direct or unresolved call may lack its
receiver, and a block its result. -/
def Expr.isReadable : Expr → Bool
  | .absent | .dangling => false
  | .int .. | .float .. | .bool .. | .char .. | .str .. | .null _ | .localVar .. => true
  | .staticField .. | .alloc .. | .identity .. => true
  | .field _ object _ => object.isReadable
  | .length _ array => array.isReadable
  | .index _ array position => array.isReadable && position.isReadable
  | .assign _ target value => target.isReadable && value.isReadable
  | .binary _ _ left right => left.isReadable && right.isReadable
  | .unary _ _ operand => operand.isReadable
  | .cast _ _ operand => operand.isReadable
  | .instanceOf _ operand _ => operand.isReadable
  | .initCall _ _ args => Expr.areReadable args
  | .virtualCall _ receiver _ args => receiver.isReadable && Expr.areReadable args
  | .qualifiedCall _ _ _ args => Expr.areReadable args
  | .directCall _ receiver _ args =>
    (receiver.isAbsent || receiver.isReadable) && Expr.areReadable args
  | .unresolvedCall _ receiver _ args =>
    (receiver.isAbsent || receiver.isReadable) && Expr.areReadable args
  | .check _ _ args => Expr.areReadable args
  | .arrayAlloc _ _ size => size.isReadable
  | .print _ _ args => Expr.areReadable args
  | .block _ body result =>
    Stmt.areReadable body && (result.isAbsent || result.isReadable)

/-- Whether all expressions are readable. -/
def Expr.areReadable : List Expr → Bool
  | [] => true
  | expr :: rest => expr.isReadable && Expr.areReadable rest

/-- Whether printing the statement meets no missing part. A local may lack its initial value, a loop
its condition, a return its value, and a branch or loop its bodies. -/
def Stmt.isReadable : Stmt → Bool
  | .absent | .dangling => false
  | .eval expr => expr.isReadable
  | .localVar _ _ init => init.isAbsent || init.isReadable
  | .block body => Stmt.areReadable body
  | .branch cond yes no =>
    cond.isReadable && (yes.isAbsent || yes.isReadable) && (no.isAbsent || no.isReadable)
  | .whileLoop cond body => cond.isReadable && (body.isAbsent || body.isReadable)
  | .forLoop init cond update body =>
    Stmt.areReadableClauses init && (cond.isAbsent || cond.isReadable) &&
      Expr.areReadable update && (body.isAbsent || body.isReadable)
  | .ret value => value.isAbsent || value.isReadable

/-- Whether all statements are readable. -/
def Stmt.areReadable : List Stmt → Bool
  | [] => true
  | stmt :: rest => stmt.isReadable && Stmt.areReadable rest

/-- Whether the statements can stand in the head of a loop, where only locals and expressions are
printed. -/
def Stmt.areReadableClauses : List Stmt → Bool
  | [] => true
  | .absent :: _ | .dangling :: _ => false
  | .eval expr :: rest => expr.isReadable && Stmt.areReadableClauses rest
  | .localVar _ _ init :: rest =>
    (init.isAbsent || init.isReadable) && Stmt.areReadableClauses rest
  | _ :: rest => Stmt.areReadableClauses rest

end

end ObjectLowering.Lowered
