/-
**Numbered source trees.**

Every expression carries a `Tag`: its number within its unit, under which annotations are kept, and
its span. Statements carry their span only. A child that may be missing is an `Option`.

* `Expr.isPure` and `Expr.isConstant` classify expressions by how often they may be evaluated.
* `Expr.nodes`, `Stmt.nodes` list the expressions of a tree, every node before its children.
* `Stmt.chainsConstructor` finds a `this(..)` or `super(..)` anywhere in a body.
-/

import ObjectLowering.Arena
import ObjectLowering.Operator
import ObjectLowering.Span
import ObjectLowering.Ty

namespace ObjectLowering.Source

/-- The number and the place of an expression. -/
structure Tag where
  id : NodeId
  span : Span
  deriving DecidableEq, Repr, Inhabited

/-- A source expression. -/
inductive Expr where
  | int (tag : Tag) (value : Int)
  /-- A floating-point literal, by the bits of its binary64 form. -/
  | float (tag : Tag) (bits : UInt64)
  | bool (tag : Tag) (value : Bool)
  | char (tag : Tag) (value : Char)
  | str (tag : Tag) (text : String)
  | null (tag : Tag)
  /-- A bare identifier: a local, a parameter, a field or a class. -/
  | ident (tag : Tag) (name : Name)
  | this (tag : Tag)
  | super (tag : Tag)
  | field (tag : Tag) (receiver : Expr) (name : Name)
  /-- A call, with or without a written receiver. -/
  | call (tag : Tag) (receiver : Option Expr) (method : Name) (args : List Expr)
  /-- A `this(..)` or `super(..)` of a constructor body. -/
  | chain (tag : Tag) (target : ChainTarget) (args : List Expr)
  | newObject (tag : Tag) (className : Name) (args : List Expr)
  /-- An array creation with its sized dimensions and the count of unsized ones behind them. -/
  | newArray (tag : Tag) (element : Ty) (dims : List Expr) (extra : Nat)
  | index (tag : Tag) (array : Expr) (position : Expr)
  | assign (tag : Tag) (target : Expr) (value : Expr)
  | binary (tag : Tag) (op : BinaryOp) (left right : Expr)
  | unary (tag : Tag) (op : UnaryOp) (operand : Expr)
  | cast (tag : Tag) (type : Ty) (operand : Expr)
  | instanceOf (tag : Tag) (operand : Expr) (className : Name)

/-- A source statement. -/
inductive Stmt where
  | eval (span : Span) (expr : Expr)
  | localVar (span : Span) (type : Ty) (name : Name) (init : Option Expr)
  | block (span : Span) (body : List Stmt)
  | branch (span : Span) (cond : Expr) (yes : Stmt) (no : Option Stmt)
  | whileLoop (span : Span) (cond : Expr) (body : Stmt)
  | forLoop (span : Span) (init : List Stmt) (cond : Option Expr) (update : List Expr) (body : Stmt)
  | ret (span : Span) (value : Option Expr)

namespace Expr

/-- The number and the place of an expression. -/
def tag : Expr → Tag
  | int tag _ | float tag _ | bool tag _ | char tag _ | str tag _ | null tag | ident tag _ => tag
  | this tag | super tag | field tag _ _ | call tag _ _ _ | chain tag _ _ => tag
  | newObject tag _ _ | newArray tag _ _ _ | index tag _ _ | assign tag _ _ => tag
  | binary tag _ _ _ | unary tag _ _ | cast tag _ _ | instanceOf tag _ _ => tag

def id (expr : Expr) : NodeId := expr.tag.id

def span (expr : Expr) : Span := expr.tag.span

/-- Whether the expression is a call. -/
def isCall : Expr → Bool
  | call .. => true
  | _ => false

/-- Whether the expression is `this` or `super`. -/
def isReceiver : Expr → Bool
  | this _ | super _ => true
  | _ => false

/-- Whether the expression is `super`. -/
def isSuper : Expr → Bool
  | super _ => true
  | _ => false

/-- Whether the expression is a `this(..)` or `super(..)`. -/
def isChain : Expr → Bool
  | chain .. => true
  | _ => false

/-- Whether the expression is a literal, whose value no other evaluation can change. -/
def isConstant : Expr → Bool
  | int .. | float .. | bool .. | char .. | str .. | null _ => true
  | _ => false

/-- Whether a second evaluation cannot be told from the first: literals, names, the receiver, and
fields read off such values. -/
def isPure : Expr → Bool
  | int .. | float .. | bool .. | char .. | str .. | null _ | ident .. | this _ | super _ => true
  | field _ receiver _ => receiver.isPure
  | _ => false

end Expr

mutual

/-- The expressions of a tree, every node before its children, children from left to right. -/
def Expr.nodes (expr : Expr) : List Expr :=
  expr :: match expr with
    | .int .. | .float .. | .bool .. | .char .. | .str .. | .null _ => []
    | .ident .. | .this _ | .super _ => []
    | .field _ receiver _ => receiver.nodes
    | .call _ (some receiver) _ args => receiver.nodes ++ Expr.nodesOfList args
    | .call _ none _ args => Expr.nodesOfList args
    | .chain _ _ args => Expr.nodesOfList args
    | .newObject _ _ args => Expr.nodesOfList args
    | .newArray _ _ dims _ => Expr.nodesOfList dims
    | .index _ array position => array.nodes ++ position.nodes
    | .assign _ target value => target.nodes ++ value.nodes
    | .binary _ _ left right => left.nodes ++ right.nodes
    | .unary _ _ operand => operand.nodes
    | .cast _ _ operand => operand.nodes
    | .instanceOf _ operand _ => operand.nodes

/-- The expressions of several trees, one tree after the other. -/
def Expr.nodesOfList : List Expr → List Expr
  | [] => []
  | expr :: rest => expr.nodes ++ Expr.nodesOfList rest

end

/-- The expressions of a tree that may be missing. -/
def Expr.nodesOfOption : Option Expr → List Expr
  | none => []
  | some expr => expr.nodes

mutual

/-- The expressions of a statement, in the order in which they stand. -/
def Stmt.nodes : Stmt → List Expr
  | .eval _ expr => expr.nodes
  | .localVar _ _ _ init => Expr.nodesOfOption init
  | .block _ body => Stmt.nodesOfList body
  | .branch _ cond yes none => cond.nodes ++ yes.nodes
  | .branch _ cond yes (some no) => cond.nodes ++ yes.nodes ++ no.nodes
  | .whileLoop _ cond body => cond.nodes ++ body.nodes
  | .forLoop _ init cond update body =>
    Stmt.nodesOfList init ++ Expr.nodesOfOption cond ++ Expr.nodesOfList update ++ body.nodes
  | .ret _ value => Expr.nodesOfOption value

/-- The expressions of several statements, one statement after the other. -/
def Stmt.nodesOfList : List Stmt → List Expr
  | [] => []
  | stmt :: rest => stmt.nodes ++ Stmt.nodesOfList rest

end

namespace Stmt

def span : Stmt → Span
  | eval span _ | localVar span _ _ _ | block span _ | branch span _ _ _ => span
  | whileLoop span _ _ | forLoop span _ _ _ _ | ret span _ => span

/-- Whether the body hands the receiver on to another constructor, anywhere in it. -/
def chainsConstructor (body : Stmt) : Bool := body.nodes.any Expr.isChain

end Stmt

end ObjectLowering.Source
