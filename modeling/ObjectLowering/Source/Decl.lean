/-
**Declarations and units of a program.**

A unit is one source file: its path, its package, the paths it imports and its classes. Bodies and
field initializers are numbered trees; `SourceUnit.nodes` holds every numbered expression of the
unit at the position of its number, those that no declaration reaches included.

* A method named like its class is a constructor (`MethodDecl.isConstructorOf`).
* A class without a written parent has the root class as its parent (`ClassDecl.parentOrRoot`).
-/

import ObjectLowering.Source.Expr

namespace ObjectLowering.Source

/-- What a declaration says about its member besides its type. -/
structure Modifiers where
  isStatic : Bool := false
  isPrivate : Bool := false
  isFinal : Bool := false
  isPublic : Bool := false
  isProtected : Bool := false
  deriving DecidableEq, Repr, Inhabited

/-- The modifiers as a sum of distinct powers of two. -/
def Modifiers.bits (modifiers : Modifiers) : Nat :=
  modifiers.isStatic.toNat + 2 * modifiers.isPrivate.toNat + 4 * modifiers.isFinal.toNat +
    8 * modifiers.isPublic.toNat + 16 * modifiers.isProtected.toNat

/-- A parameter of a method. -/
structure Param where
  type : Ty
  name : Name
  deriving DecidableEq, Repr, Inhabited

/-- A field of a class, with its initializer if it has one. -/
structure FieldDecl where
  name : Name
  type : Ty
  init : Option Expr
  modifiers : Modifiers
  span : Span

/-- A method or constructor of a class. The body is a block unless it was replaced. -/
structure MethodDecl where
  name : Name
  params : List Param
  ret : Ty
  body : Stmt
  modifiers : Modifiers
  span : Span

namespace MethodDecl

/-- A method named like its class is a constructor. -/
def isConstructorOf (method : MethodDecl) (owner : Name) : Bool := method.name == owner

def paramTypes (method : MethodDecl) : List Ty := method.params.map (·.type)

end MethodDecl

/-- A class. -/
structure ClassDecl where
  name : Name
  parent : Option Name
  fields : List FieldDecl
  methods : List MethodDecl
  span : Span

namespace ClassDecl

/-- The written parent, or the root class. -/
def parentOrRoot (decl : ClassDecl) : Name := decl.parent.getD Reserved.object

/-- Whether the class declares a constructor. -/
def hasConstructor (decl : ClassDecl) : Bool := decl.methods.any (·.isConstructorOf decl.name)

/-- The field initializers in order of declaration. -/
def initializers (decl : ClassDecl) : List Expr := decl.fields.filterMap (·.init)

/-- The expressions of every field initializer and every method body, in order of declaration. -/
def nodes (decl : ClassDecl) : List Expr :=
  Expr.nodesOfList decl.initializers ++ decl.methods.flatMap (·.body.nodes)

end ClassDecl

/-- One source file. -/
structure SourceUnit where
  path : String
  package : List Name
  imports : List String
  classes : List ClassDecl
  /-- Every numbered expression, at the position of its number. -/
  nodes : Array Expr
  /-- How many statements the unit has. -/
  stmtCount : Nat
  deriving Inhabited

namespace SourceUnit

/-- How many expressions the unit has. -/
def exprCount (unit : SourceUnit) : Nat := unit.nodes.size

/-- How many of the expressions are calls. -/
def callCount (unit : SourceUnit) : Nat := unit.nodes.toList.countP Expr.isCall

end SourceUnit

end ObjectLowering.Source
