/-
**Programs as they are written, before anything is numbered.**

The written form is a plain tree without numbers and spans. `Expr.println` is the one abbreviation:
console output through `System.out`.

* `mentions` lists the names of a tree in the order in which they are first met: the names below an
  expression come before its own, except that the type of a cast or of an array creation comes
  first.
* `UnitText.package` is the written package split at its dots, empty segments dropped.
-/

import ObjectLowering.Source.Decl

namespace ObjectLowering.Written

open ObjectLowering.Source (Modifiers Param)

/-- An expression as it is written. -/
inductive Expr where
  | int (value : Int)
  | float (bits : UInt64)
  | bool (value : Bool)
  | char (value : Char)
  | str (text : String)
  | null
  | ident (name : Name)
  | this
  | super
  | field (receiver : Expr) (name : Name)
  | call (receiver : Option Expr) (method : Name) (args : List Expr)
  | chain (target : ChainTarget) (args : List Expr)
  | newObject (className : Name) (args : List Expr)
  | newArray (element : Ty) (dims : List Expr) (extra : Nat)
  | index (array : Expr) (position : Expr)
  | assign (target : Expr) (value : Expr)
  | binary (op : BinaryOp) (left right : Expr)
  | unary (op : UnaryOp) (operand : Expr)
  | cast (type : Ty) (operand : Expr)
  | instanceOf (operand : Expr) (className : Name)
  /-- `System.out.println(args)`, whose arguments are numbered before the receiver. -/
  | println (args : List Expr)

/-- A statement as it is written. -/
inductive Stmt where
  | eval (expr : Expr)
  | localVar (type : Ty) (name : Name) (init : Option Expr)
  | block (body : List Stmt)
  | branch (cond : Expr) (yes : Stmt) (no : Option Stmt)
  | whileLoop (cond : Expr) (body : Stmt)
  | forLoop (init : List Stmt) (cond : Option Expr) (update : List Expr) (body : Stmt)
  | ret (value : Option Expr)

/-- A field as it is written. -/
structure Field where
  modifiers : Modifiers
  type : Ty
  name : Name
  init : Option Expr

/-- A method as it is written; without a name it is a constructor of its class. -/
structure Method where
  modifiers : Modifiers
  ret : Ty
  name : Option Name
  params : List Param
  body : List Stmt
  /-- A statement that takes the place of the block of the body. -/
  replacement : Option Stmt

/-- A class as it is written. -/
structure ClassText where
  name : Name
  parent : Option Name
  fields : List Field
  methods : List Method

/-- A unit as it is written. -/
structure UnitText where
  path : String
  /-- The package with dots between its segments. -/
  dottedPackage : String
  imports : List String
  classes : List ClassText

/-- The segments of the package, outermost first. -/
def UnitText.package (unit : UnitText) : List Name :=
  (unit.dottedPackage.splitOn ".").filter (· != "")

/-! ### The names of a program in the order in which they are met -/

mutual

/-- The names below an expression and its own. -/
def Expr.mentions : Expr → List Name
  | .int _ | .float _ | .bool _ | .char _ | .null | .this | .super => []
  | .str text => [text]
  | .ident name => [name]
  | .field receiver name => receiver.mentions ++ [name]
  | .call none method args => Expr.mentionsOfList args ++ [method]
  | .call (some receiver) method args =>
    receiver.mentions ++ Expr.mentionsOfList args ++ [method]
  | .chain _ args => Expr.mentionsOfList args
  | .newObject className args => Expr.mentionsOfList args ++ [className]
  | .newArray element dims _ => element.mentions ++ Expr.mentionsOfList dims
  | .index array position => array.mentions ++ position.mentions
  | .assign target value => target.mentions ++ value.mentions
  | .binary _ left right => left.mentions ++ right.mentions
  | .unary _ operand => operand.mentions
  | .cast type operand => type.mentions ++ operand.mentions
  | .instanceOf operand className => operand.mentions ++ [className]
  | .println args => Expr.mentionsOfList args ++ [Reserved.system, Reserved.out, Reserved.println]

/-- The names of several expressions, one after the other. -/
def Expr.mentionsOfList : List Expr → List Name
  | [] => []
  | expr :: rest => expr.mentions ++ Expr.mentionsOfList rest

end

/-- The names of an expression that may be missing. -/
def Expr.mentionsOfOption : Option Expr → List Name
  | none => []
  | some expr => expr.mentions

mutual

/-- The names of a statement. A local's type comes first and its name last. -/
def Stmt.mentions : Stmt → List Name
  | .eval expr => expr.mentions
  | .localVar type name init => type.mentions ++ Expr.mentionsOfOption init ++ [name]
  | .block body => Stmt.mentionsOfList body
  | .branch cond yes none => cond.mentions ++ yes.mentions
  | .branch cond yes (some no) => cond.mentions ++ yes.mentions ++ no.mentions
  | .whileLoop cond body => cond.mentions ++ body.mentions
  | .forLoop init cond update body =>
    Stmt.mentionsOfList init ++ Expr.mentionsOfOption cond ++ Expr.mentionsOfList update ++
      body.mentions
  | .ret value => Expr.mentionsOfOption value

/-- The names of several statements, one after the other. -/
def Stmt.mentionsOfList : List Stmt → List Name
  | [] => []
  | stmt :: rest => stmt.mentions ++ Stmt.mentionsOfList rest

end

/-- The names of a field: those of its type, those of its initializer, its own. -/
def Field.mentions (field : Field) : List Name :=
  field.type.mentions ++ Expr.mentionsOfOption field.init ++ [field.name]

/-- The names of a method: those of the parameter types, of the body, of what replaces it and of
the result type, then its own name and those of its parameters. -/
def Method.mentions (method : Method) : List Name :=
  method.params.flatMap (·.type.mentions) ++ Stmt.mentionsOfList method.body ++
    method.replacement.toList.flatMap Stmt.mentions ++ method.ret.mentions ++
    method.name.toList ++ method.params.map (·.name)

/-- The names of a class: its own, its parent's, those of its fields and of its methods. -/
def ClassText.mentions (decl : ClassText) : List Name :=
  decl.name :: decl.parent.toList ++ decl.fields.flatMap Field.mentions ++
    decl.methods.flatMap Method.mentions

/-- The names of a unit: the segments of its package, then those of its classes. -/
def UnitText.mentions (unit : UnitText) : List Name :=
  unit.package ++ unit.classes.flatMap ClassText.mentions

end ObjectLowering.Written
