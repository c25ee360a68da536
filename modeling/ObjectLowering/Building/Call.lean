/-
**Building calls.**

The ways of a call are those of `Lowering`. The receiver that a call goes through and the receiver
among its arguments are two nodes, the first built before the arguments.
-/

import ObjectLowering.Building.Routine
import ObjectLowering.Lowering.Call

namespace ObjectLowering.Building

open Lowering (Context isConsoleOutput runEach)

/-- The parts of a call. -/
structure CallParts where
  tag : Source.Tag
  receiver : Option Part
  method : Name
  args : List (BuildM NodeId)

def argList (args : List (BuildM NodeId)) : BuildM Window := do
  let args ← runEach args
  addExprs args

/-- A list of arguments behind the receiver. -/
def receiverArgs (context : Context) (span : Span) (receiver : Operand)
    (args : List (BuildM NodeId)) : BuildM Window :=
  argList (receiver.use context span :: args)

/-- The receiver of an instance call; without a written one it is the current receiver. -/
def receiverOperand (context : Context) (routine : Routine) (call : CallParts) (site : CallSite) :
    BuildM (List NodeId × Operand) :=
  match call.receiver with
  | some part => operand context part (.class routine.className)
  | none =>
    if site.needsSelf then return ([], .self)
    else fail (.unmet Reserved.empty .implicitReceiver call.tag.span)

def printCall (call : CallParts) : BuildM NodeId := do
  let args ← argList call.args
  addExpr call.tag.span (.print (call.method == Reserved.println) args)

/-- A call without a target, under its source name. -/
def unresolvedCall (context : Context) (call : CallParts) : BuildM NodeId := do
  if context.options.strict then
    fail (.unresolvedCall call.method call.tag.span)
  let receiver ←
    match call.receiver with
    | some part => part.build
    | none => pure NodeId.invalid
  let args ← argList call.args
  addExpr call.tag.span (.unresolvedCall receiver call.method args)

/-- The evaluation of a receiver that nothing but its effects is wanted of. -/
def receiverEffect : Option Part → BuildM (List NodeId)
  | none => return []
  | some part =>
    if part.expr.isPure then
      return []
    else do
      let value ← part.build
      let stmt ← addStmt (.eval value)
      return [stmt]

/-- A call of a static method. A receiver that is not pure is evaluated for its effects. -/
def staticCall (call : CallParts) (site : CallSite) : BuildM NodeId := do
  let effect ← receiverEffect call.receiver
  let args ← argList call.args
  let made ← addExpr call.tag.span (.qualifiedCall site.target.className site.mangled args)
  blockExpr call.tag.span effect made

/-- A call of a known implementation. -/
def directCall (context : Context) (routine : Routine) (call : CallParts) (site : CallSite) :
    BuildM NodeId := do
  let span := call.tag.span
  if call.receiver.any (·.expr.isSuper) then
    let args ← receiverArgs context span .self call.args
    return ← addExpr span (.qualifiedCall site.target.className site.mangled args)
  let (decl, receiver) ← receiverOperand context routine call site
  let receiverExpr ← receiver.use context span
  let args ← receiverArgs context span receiver call.args
  let made ← addExpr span (.directCall receiverExpr site.mangled args)
  blockExpr span decl made

/-- The slot through which a target is called. -/
def virtualSlot (context : Context) (span : Span) (site : CallSite) : BuildM Name :=
  match context.facade.method site.target with
  | none => fail (.unmet site.mangled .methodSignature span)
  | some info =>
    match context.facts.vtables.slotFor? site.target.className info.name info.params with
    | none => fail (.unmet site.mangled .vtableSlot span)
    | some slot => return slot.name

def virtualCall (context : Context) (routine : Routine) (call : CallParts) (site : CallSite) :
    BuildM NodeId := do
  let span := call.tag.span
  let slot ← virtualSlot context span site
  let (decl, receiver) ← receiverOperand context routine call site
  let check ← nullCheck context span receiver
  let receiverExpr ← receiver.use context span
  let args ← receiverArgs context span receiver call.args
  let made ← addExpr span (.virtualCall receiverExpr slot args)
  blockExpr span (decl ++ check) made

/-- A call, by the way to its target. -/
def buildCall (context : Context) (routine : Routine) (parts : CallParts) : BuildM NodeId :=
  if isConsoleOutput context (parts.receiver.map (·.expr)) parts.method then
    printCall parts
  else
    match context.sites.get? parts.tag.id with
    | none => unresolvedCall context parts
    | some site =>
      match context.facade.dispatch parts.tag.id with
      | none => fail (.unmet parts.method .dispatchKind parts.tag.span)
      | some .static => staticCall parts site
      | some .direct => directCall context routine parts site
      | some .virtual => virtualCall context routine parts site

/-- The second phase of construction of a class, run on the current receiver. -/
def chainCall (context : Context) (routine : Routine) (span : Span) (target : ChainTarget)
    (args : List (BuildM NodeId)) : BuildM NodeId := do
  let className :=
    match target with
    | .this => routine.className
    | .super => (context.facade.supertype routine.className).getD Reserved.object
  let args ← receiverArgs context span .self args
  addExpr span (.initCall className args)

/-- A new object, whose construction runs both phases. -/
def buildNewObject (span : Span) (className : Name) (args : List (BuildM NodeId)) :
    BuildM NodeId := do
  let args ← argList (addExpr span (.alloc className) :: args)
  addExpr span (.initCall className args)

end ObjectLowering.Building
