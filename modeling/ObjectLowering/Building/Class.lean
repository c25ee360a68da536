/-
**Building classes.**

The parts of a class are built in one order: the defaults of its raw constructor, the values of its
static fields, its routines as they are declared, and a construction routine if none is declared.

* `prologue` starts a construction routine that does not hand the receiver on.
* `buildClass` builds the layout. Each routine counts its temporaries from zero; the static fields
  of a class share one count.
-/

import ObjectLowering.Building.Stmt
import ObjectLowering.Lowering.Class

namespace ObjectLowering.Building

open Lowered (ClassLayout MemberInit Method StaticStorage)
open Lowering (Context kindOf layoutOf modeOf ownValues receiverParam runEach)
open Source (ClassDecl MethodDecl)

/-- Builds a routine, which counts its temporaries from zero. -/
def inRoutine {α : Type} (step : BuildM α) : ArenaM α := step.run' 0

/-- The assignment of a field's value. -/
def assignField (context : Context) (routine : Routine) (span : Span)
    (field : Name × Source.Expr) : BuildM NodeId := do
  let value ← field.2.build context routine
  let object ← selfExpr context span
  let target ← addExpr span (.field object field.1)
  let assign ← addExpr span (.assign target value)
  addStmt (.eval assign)

/-- The run of the parent's construction routine. -/
def parentInit (context : Context) (span : Span) (parent : Name) : ArenaM NodeId := do
  let receiver ← selfExpr context span
  let args ← addExprs [receiver]
  let init ← addExpr span (.initCall parent args)
  addStmt (.eval init)

/-- The start of a construction routine that does not hand the receiver on. -/
def prologue (context : Context) (routine : Routine) (span : Span) : BuildM (List NodeId) := do
  let parent := (context.facade.supertype routine.className).getD Reserved.object
  let init ← parentInit context span parent
  match context.facts.chains.instance? routine.className with
  | none => fail (.missingInitializers routine.className)
  | some chain =>
    let assigns ← runEach
      ((ownValues routine.className chain).map (assignField context routine span))
    return init :: assigns

/-- A method. The entry point returns an exit status. -/
def buildMethod (context : Context) (owner : Name) (index : Nat) (method : MethodDecl) :
    BuildM (Method NodeId) := do
  let ref : MethodRef := ⟨owner, index⟩
  let mode := modeOf context method
  let body ← buildBody context ⟨owner, some ref, mode, false⟩ method.span [] (some method.body)
  return {
    name := (context.facts.mangle.record.mangled? ref).getD method.name
    source := method.name
    owner
    kind := kindOf mode
    params := if mode = .instanceMethod then receiverParam context owner :: method.params
      else method.params
    ret := if mode = .entry then .int else method.ret
    body
    synthesized := false }

/-- A constructor as a routine that returns the receiver. -/
def buildConstructor (context : Context) (owner : Name) (index : Nat) (method : MethodDecl) :
    BuildM (Method NodeId) := do
  let chained := method.body.chainsConstructor
  let routine : Routine := ⟨owner, some ⟨owner, index⟩, .constructor, chained⟩
  let start ← if chained then pure [] else prologue context routine method.span
  let body ← buildBody context routine method.span start (some method.body)
  return {
    name := Reserved.init
    source := method.name
    owner
    kind := .init
    params := receiverParam context owner :: method.params
    ret := .class owner
    body
    synthesized := false }

/-- The construction routine of a class without a constructor. -/
def synthesizedInit (context : Context) (decl : ClassDecl) : BuildM (Method NodeId) := do
  let routine : Routine := ⟨decl.name, none, .constructor, false⟩
  let start ← prologue context routine decl.span
  let body ← buildBody context routine decl.span start none
  return {
    name := Reserved.init
    source := decl.name
    owner := decl.name
    kind := .init
    params := [receiverParam context decl.name]
    ret := .class decl.name
    body
    synthesized := true }

def buildStatic (context : Context) (className : Name) (span : Span)
    (init : Initializer Source.Expr) : BuildM (StaticStorage NodeId) := do
  let value ←
    match init.value with
    | none => liftM (defaultExpr span init.default)
    | some value => value.build context ⟨className, none, .static, false⟩
  return ⟨init.name, init.type, value⟩

/-- A member that the raw constructor sets to its default. -/
def ctorMember (span : Span) (init : Initializer Source.Expr) : ArenaM (MemberInit NodeId) := do
  let value ← defaultExpr span init.default
  return .field init.name value

/-- A routine with a mark whether it is part of construction. -/
def buildMember (context : Context) (owner : Name) (method : MethodDecl × Nat) :
    ArenaM (Bool × Method NodeId) := do
  let isConstructor := method.1.isConstructorOf owner
  let routine ← inRoutine <|
    if isConstructor then buildConstructor context owner method.2 method.1
    else buildMethod context owner method.2 method.1
  return (isConstructor, routine)

def buildClass (context : Context) (decl : ClassDecl) : ArenaM (ClassLayout NodeId NodeId) := do
  let className := decl.name
  let some chain := context.facts.chains.instance? className
    | throw (.error (.missingInitializers className))
  let defaults ← chain.mapM (ctorMember decl.span)
  let statics ← inRoutine <| runEach
    ((context.facts.chains.statics className).map (buildStatic context className decl.span))
  let some vtable := context.facts.vtables.get? className
    | throw (.error (.unmet className .vtable decl.span))
  let members ← decl.methods.zipIdx.mapM (buildMember context className)
  let inits := (members.filter (·.1)).map (·.2)
  let inits ← if inits.isEmpty then List.singleton <$> inRoutine (synthesizedInit context decl)
    else pure inits
  return layoutOf context decl chain vtable statics (defaults ++ [.vtablePtr]) inits
    ((members.filter (!·.1)).map (·.2))

end ObjectLowering.Building
