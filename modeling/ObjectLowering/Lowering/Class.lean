/-
**Lowering classes.**

A class becomes a layout: the fields of its chain behind the vtable pointer, a raw constructor that
sets their defaults, storage for its static fields, its vtable, one construction routine for each
constructor, and its methods.

* `prologue` starts a construction routine that does not hand the receiver on: the parent's routine
  runs, then each field that the class itself gives a value is assigned, in the order of the chain.
* `lowerClass` makes the layout. Each routine counts its temporaries from zero; the static fields of
  a class share one count.
-/

import ObjectLowering.Lowering.Stmt

namespace ObjectLowering

open Source (ClassDecl MethodDecl Param)

namespace Lowering

open Lowered (Method ClassLayout)

/-- Lowers a routine, which counts its temporaries from zero. -/
def inRoutine {α : Type} (step : LowerM α) : Except LoweringFailure α := step.run' 0

/-- The assignment of a field's value. -/
def assignField (context : Context) (routine : Routine) (span : Span)
    (field : Name × Source.Expr) : LowerM Lowered.Stmt := do
  let value ← field.2.lower context routine
  return .eval (.assign span (.field span (selfExpr context span) field.1) value)

/-- The fields of a chain to which the class itself gives a value. -/
def ownValues (className : Name) (chain : List (Initializer Source.Expr)) :
    List (Name × Source.Expr) :=
  (chain.filter (·.owner == className)).filterMap fun init => init.value.map (init.name, ·)

/-- The start of a construction routine that does not hand the receiver on. -/
def prologue (context : Context) (routine : Routine) (span : Span) :
    LowerM (List Lowered.Stmt) := do
  let parent := (context.facade.supertype routine.className).getD Reserved.object
  let parentInit := Lowered.Expr.initCall span parent [selfExpr context span]
  match context.facts.chains.instance? routine.className with
  | none => fail (.missingInitializers routine.className)
  | some chain =>
    let assigns ← runEach
      ((ownValues routine.className chain).map (assignField context routine span))
    return .eval parentInit :: assigns

/-- The receiver parameter of a class. -/
def receiverParam (context : Context) (className : Name) : Param :=
  ⟨.class className, context.options.selfParam⟩

def modeOf (context : Context) (method : MethodDecl) : Mode :=
  if !method.modifiers.isStatic then .instanceMethod
  else if method.name == context.options.entryPoint then .entry
  else .static

/-- The kind of routine that a mode makes. -/
def kindOf : Mode → Lowered.MethodKind
  | .instanceMethod => .instanceMethod
  | .static => .static
  | .entry => .entry
  | .constructor => .init

/-- A method. The entry point returns an exit status. -/
def lowerMethod (context : Context) (owner : Name) (index : Nat) (method : MethodDecl) :
    LowerM (Method Lowered.Stmt) := do
  let ref : MethodRef := ⟨owner, index⟩
  let mode := modeOf context method
  let body ← lowerBody context ⟨owner, some ref, mode, false⟩ method.span [] (some method.body)
  return {
    name := (context.facts.mangle.record.mangled? ref).getD method.name
    source := method.name
    owner
    kind := kindOf mode
    params := if mode = .instanceMethod then receiverParam context owner :: method.params
      else method.params
    ret := if mode = .entry then .int else method.ret
    body
    synthesized := false }

/-- A constructor as a routine that returns the receiver. -/
def lowerConstructor (context : Context) (owner : Name) (index : Nat) (method : MethodDecl) :
    LowerM (Method Lowered.Stmt) := do
  let chained := method.body.chainsConstructor
  let routine : Routine := ⟨owner, some ⟨owner, index⟩, .constructor, chained⟩
  let start ← if chained then pure [] else prologue context routine method.span
  let body ← lowerBody context routine method.span start (some method.body)
  return {
    name := Reserved.init
    source := method.name
    owner
    kind := .init
    params := receiverParam context owner :: method.params
    ret := .class owner
    body
    synthesized := false }

/-- The construction routine of a class without a constructor. -/
def synthesizedInit (context : Context) (decl : ClassDecl) : LowerM (Method Lowered.Stmt) := do
  let routine : Routine := ⟨decl.name, none, .constructor, false⟩
  let start ← prologue context routine decl.span
  let body ← lowerBody context routine decl.span start none
  return {
    name := Reserved.init
    source := decl.name
    owner := decl.name
    kind := .init
    params := [receiverParam context decl.name]
    ret := .class decl.name
    body
    synthesized := true }

def lowerStatic (context : Context) (className : Name) (span : Span)
    (init : Initializer Source.Expr) : LowerM (Lowered.StaticStorage Lowered.Expr) := do
  let value ←
    match init.value with
    | none => pure (defaultExpr span init.default)
    | some value => value.lower context ⟨className, none, .static, false⟩
  return ⟨init.name, init.type, value⟩

/-- The members of an object in the order of its chain. -/
def dataMembers (chain : List (Initializer Source.Expr)) : List Lowered.DataMember :=
  .vtablePtr :: chain.map fun init => .field init.name init.type init.owner

def ctorMembers (span : Span) (chain : List (Initializer Source.Expr)) :
    List (Lowered.MemberInit Lowered.Expr) :=
  chain.map (fun init => .field init.name (defaultExpr span init.default)) ++ [.vtablePtr]

/-- A routine with a mark whether it is part of construction. -/
def lowerMember (context : Context) (owner : Name) (method : MethodDecl × Nat) :
    Except LoweringFailure (Bool × Method Lowered.Stmt) := do
  let isConstructor := method.1.isConstructorOf owner
  let routine ← inRoutine <|
    if isConstructor then lowerConstructor context owner method.2 method.1
    else lowerMethod context owner method.2 method.1
  return (isConstructor, routine)

/-- The layout of a class, made of its chain, its vtable and the parts that are lowered. -/
def layoutOf {ε σ : Type} (context : Context) (decl : ClassDecl)
    (chain : List (Initializer Source.Expr)) (vtable : Vtable)
    (statics : List (Lowered.StaticStorage ε)) (ctor : List (Lowered.MemberInit ε))
    (inits methods : List (Method σ)) : ClassLayout ε σ :=
  let info := context.facade.class? decl.name
  let parent := (info.map (·.parent)).getD decl.parentOrRoot
  { name := decl.name
    parent
    identity := ⟨decl.name, (info.map (·.qualified)).getD decl.name, parent⟩
    data := dataMembers chain
    statics
    slots := vtable.slots
    bindings := vtable.bindings
    ctor
    inits
    methods }

def lowerClass (context : Context) (decl : ClassDecl) :
    Except LoweringFailure (ClassLayout Lowered.Expr Lowered.Stmt) := do
  let className := decl.name
  let some chain := context.facts.chains.instance? className
    | throw (.error (.missingInitializers className))
  let statics ← inRoutine <| runEach
    ((context.facts.chains.statics className).map (lowerStatic context className decl.span))
  let some vtable := context.facts.vtables.get? className
    | throw (.error (.unmet className .vtable decl.span))
  let members ← decl.methods.zipIdx.mapM (lowerMember context className)
  let inits := (members.filter (·.1)).map (·.2)
  let inits ← if inits.isEmpty then List.singleton <$> inRoutine (synthesizedInit context decl)
    else pure inits
  return layoutOf context decl chain vtable statics (ctorMembers decl.span chain) inits
    ((members.filter (!·.1)).map (·.2))

end Lowering

end ObjectLowering
