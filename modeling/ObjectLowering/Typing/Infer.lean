/-
**Annotating the expressions of a unit.**

Every field initializer and every method body of the classes that the unit owns is walked once, with
the locals in scope at hand. A local is in scope from its declaration to the end of the enclosing
block or loop. The walk never fails: what it cannot type stays without an annotation.

* `Inference.typed` keeps the inferred type under the expression's number.
* `Source.Expr.infer`, `Source.Stmt.infer` walk a tree; arguments come after the receiver.
* `Annotations.ofUnit` annotates a unit.
-/

import ObjectLowering.Classes.Overload
import ObjectLowering.Typing.Annotations

namespace ObjectLowering

open Source (SourceUnit ClassDecl MethodDecl)

/-- Where a walk takes place. -/
structure Inference.Place where
  table : ClassTable
  owner : Name
  /-- The method whose body is walked; none in a field initializer. -/
  method : Option MethodRef

/-- The annotations so far and the locals in scope, the innermost frame first. -/
structure Inference where
  notes : Annotations
  frames : List (List (Name × Ty)) := []

namespace Inference

abbrev Step (α : Type) := StateM Inference α

def annotate (change : Annotations → Annotations) : Step Unit :=
  modify fun state => { state with notes := change state.notes }

/-- Keeps what an identifier or member access means. -/
def setMeaning (id : NodeId) (meaning : Meaning) : Step Unit :=
  annotate fun notes => { notes with meanings := notes.meanings.insert id meaning }

def setCall (id : NodeId) (call : CallInfo) : Step Unit :=
  annotate fun notes => { notes with calls := notes.calls.insert id call }

/-- Keeps a type, if there is one, under the number of the expression it was inferred for. -/
def typed (id : NodeId) (infer : Step (Option Ty)) : Step (Option Ty) := do
  let type ← infer
  if let some type := type then
    annotate fun notes => { notes with types := notes.types.insert id type }
  return type

/-- What was found about an expression that was walked. -/
def meaningOf (id : NodeId) : Step (Option Meaning) := return (← get).notes.meaning? id

/-- Declares a local in the innermost frame, and among the locals of the method. -/
def declare (place : Place) (name : Name) (type : Ty) : Step Unit := do
  if let some method := place.method then
    annotate fun notes => { notes with locals := (method, name, type) :: notes.locals }
  modify fun state =>
    match state.frames with
    | [] => state
    | frame :: outer => { state with frames := ((name, type) :: frame) :: outer }

/-- The type of a local in scope, the innermost one of its name. -/
def localInScope (name : Name) : Step (Option Ty) :=
  return (← get).frames.findSome? fun frame => (frame.find? (·.1 == name)).map (·.2)

/-- Runs a step in a frame of its own. -/
def inFrame {α : Type} (step : Step α) : Step α := do
  modify fun state => { state with frames := [] :: state.frames }
  let result ← step
  modify fun state => { state with frames := state.frames.drop 1 }
  return result

/-- The type of a field, whose reference becomes the meaning of an expression. -/
def fieldAccess (place : Place) (id : NodeId) (className name : Name) : Step (Option Ty) := do
  match place.table.lookupField className name with
  | none => return none
  | some field =>
    setMeaning id (.field field)
    return (place.table.field? field).map (·.type)

/-- The type of a bare identifier: a local, else a field, else a class, which has no type. -/
def identifier (place : Place) (id : NodeId) (name : Name) : Step (Option Ty) := do
  if let some type ← localInScope name then
    setMeaning id .localVar
    return some type
  if (place.table.lookupField place.owner name).isSome then
    return ← fieldAccess place id place.owner name
  if place.table.contains name then
    setMeaning id (.class name)
  return none

/-- The class whose members a receiver offers: the class it names, else that of its type. -/
def receiverClass (meaning : Option Meaning) (type : Option Ty) : Option Name :=
  match meaning with
  | some (.class name) => some name
  | _ => type.bind Ty.memberClass?

/-- The type of a member access, whose receiver was walked. -/
def member (place : Place) (id : NodeId) (meaning : Option Meaning) (type : Option Ty)
    (name : Name) : Step (Option Ty) :=
  match meaning, type with
  | some (.class className), _ => fieldAccess place id className name
  | _, some (.array _) => return if name = Reserved.length then some .int else none
  | _, some (.class className) => fieldAccess place id className name
  | _, _ => return none

/-- The result type of a call, whose receiver and arguments were walked. -/
def resolve (place : Place) (id : NodeId) (className : Option Name) (viaSuper : Bool)
    (method : Name) (args : List (Option Ty)) : Step (Option Ty) := do
  let target := className.bind fun className =>
    place.table.resolveOverload className method args
  let found := target.bind fun target => (place.table.method? target).map (target, ·)
  match found with
  | none => return none
  | some (target, info) =>
    setCall id ⟨target, .classify info.flags viaSuper⟩
    return some info.ret

/-- The type of an operation on two operands. -/
def binaryType (op : BinaryOp) (left right : Option Ty) : Option Ty :=
  if op.isComparison || op.isLogical then some .boolean
  else if op = .add && (left = some .string || right = some .string) then some .string
  else left.bind fun left => right.bind fun right => left.promote? right

/-- The type of an operation on one operand. -/
def unaryType (op : UnaryOp) (operand : Option Ty) : Option Ty :=
  match op with
  | .complement => some .boolean
  | .negate => operand.bind fun type => type.promote? type
  | _ => operand

/-- Whether a literal fits the type `int`. -/
def fitsInt (value : Int) : Bool := -2147483648 ≤ value && value ≤ 2147483647

end Inference

open Inference

mutual

/-- Walks an expression and infers its type. -/
def Source.Expr.infer (place : Place) : Source.Expr → Step (Option Ty)
  | .int tag value => typed tag.id <| return some (if fitsInt value then .int else .long)
  | .float tag _ => typed tag.id <| return some .double
  | .bool tag _ => typed tag.id <| return some .boolean
  | .char tag _ => typed tag.id <| return some .char
  | .str tag _ => typed tag.id <| return some .string
  | .null tag => typed tag.id <| return some .null
  | .ident tag name => typed tag.id <| identifier place tag.id name
  | .this tag => typed tag.id <| return some (.class place.owner)
  | .super tag => typed tag.id <| return (place.table.supertype? place.owner).map (.class ·)
  | .field tag receiver name => typed tag.id do
    let type ← receiver.infer place
    member place tag.id (← meaningOf receiver.id) type name
  | .call tag none method args => typed tag.id do
    let args ← Source.Expr.inferList place args
    resolve place tag.id (some place.owner) false method args
  | .call tag (some receiver) method args => typed tag.id do
    let type ← receiver.infer place
    let className := receiverClass (← meaningOf receiver.id) type
    let args ← Source.Expr.inferList place args
    resolve place tag.id className receiver.isSuper method args
  | .chain tag _ args => typed tag.id do
    let _ ← Source.Expr.inferList place args
    return some .void
  | .newObject tag className args => typed tag.id do
    let _ ← Source.Expr.inferList place args
    return some (.class className)
  | .newArray tag element dims extra => typed tag.id do
    let dims ← Source.Expr.inferList place dims
    return some (.arrayOf element (dims.length + extra))
  | .index tag array position => typed tag.id do
    let type ← array.infer place
    let _ ← position.infer place
    return type.bind Ty.element?
  | .assign tag target value => typed tag.id do
    let type ← target.infer place
    let _ ← value.infer place
    return type
  | .binary tag op left right => typed tag.id do
    let left ← left.infer place
    let right ← right.infer place
    return binaryType op left right
  | .unary tag op operand => typed tag.id do
    let type ← operand.infer place
    return unaryType op type
  | .cast tag type operand => typed tag.id do
    let _ ← operand.infer place
    return some type
  | .instanceOf tag operand _ => typed tag.id do
    let _ ← operand.infer place
    return some .boolean

/-- Walks expressions from left to right. -/
def Source.Expr.inferList (place : Place) : List Source.Expr → Step (List (Option Ty))
  | [] => return []
  | expr :: rest => do
    let type ← expr.infer place
    let types ← Source.Expr.inferList place rest
    return type :: types

end

/-- Walks an expression that may be missing. -/
def Source.Expr.inferOption (place : Place) : Option Source.Expr → Step Unit
  | none => return ()
  | some expr => discard <| expr.infer place

mutual

def Source.Stmt.infer (place : Place) : Source.Stmt → Step Unit
  | .eval _ expr => discard <| expr.infer place
  | .localVar _ type name init => do
    Source.Expr.inferOption place init
    declare place name type
  | .block _ body => inFrame (Source.Stmt.inferList place body)
  | .branch _ cond yes none => do
    discard <| cond.infer place
    yes.infer place
  | .branch _ cond yes (some no) => do
    discard <| cond.infer place
    yes.infer place
    no.infer place
  | .whileLoop _ cond body => do
    discard <| cond.infer place
    body.infer place
  | .forLoop _ init cond update body => inFrame do
    Source.Stmt.inferList place init
    Source.Expr.inferOption place cond
    discard <| Source.Expr.inferList place update
    body.infer place
  | .ret _ value => Source.Expr.inferOption place value

/-- Walks statements from first to last. -/
def Source.Stmt.inferList (place : Place) : List Source.Stmt → Step Unit
  | [] => return ()
  | stmt :: rest => do
    stmt.infer place
    Source.Stmt.inferList place rest

end

namespace Inference

/-- Walks a field initializer, where no local is in scope. -/
def initializer (table : ClassTable) (owner : Name) (init : Source.Expr) : Step Unit := do
  modify fun state => { state with frames := [] }
  discard <| init.infer ⟨table, owner, none⟩

/-- Walks the body of the method at a position, where its parameters are in scope. -/
def methodBody (table : ClassTable) (owner : Name) (method : MethodDecl) (index : Nat) :
    Step Unit := do
  let place : Place := ⟨table, owner, some ⟨owner, index⟩⟩
  modify fun state => { state with frames := [[]] }
  method.params.forM fun param => declare place param.name param.type
  method.body.infer place

/-- Walks the initializers of a class, then its bodies. -/
def classBody (table : ClassTable) (decl : ClassDecl) : Step Unit := do
  decl.initializers.forM (initializer table decl.name)
  decl.methods.zipIdx.forM fun (method, index) => methodBody table decl.name method index

end Inference

/-- The annotations of the unit at a position of the program. -/
def Annotations.ofUnit (table : ClassTable) (index : Nat) (unit : SourceUnit) : Annotations :=
  let owned := unit.classes.filter (table.owns index ·.name)
  let start : Inference := { notes := .empty unit.exprCount }
  ((owned.forM (classBody table)).run start).2.notes

end ObjectLowering
