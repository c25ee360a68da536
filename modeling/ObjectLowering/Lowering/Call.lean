/-
**Lowering calls.**

| source | way | lowered |
|---|---|---|
| `r.m(a)` | virtual | a check of `r`, then the slot of `r`'s vtable with `r, a` |
| `m(a)` | virtual | the slot of the receiver's vtable with the receiver, `a` |
| `r.m(a)` | direct | the implementation with `r, a` |
| `super.m(a)` | direct | the parent's implementation, by class, with the receiver, `a` |
| `C.m(a)`, `m(a)` | static | the implementation by class with `a` |
| `e.m(a)`, `e` impure | static | `e`, then the implementation by class with `a` |
| `this(a)`, `super(a)` | | the second phase of construction with the receiver, `a` |
| `System.out.println(a)` | | console output |

A receiver that is not pure is read into a temporary first, so it is evaluated once.
-/

import ObjectLowering.Lowering.Routine

namespace ObjectLowering.Lowering

/-- Whether a call is console output: `println` or `print` on `System.out`, where `System` means
nothing in the program. -/
def isConsoleOutput (context : Context) (receiver : Option Source.Expr) (method : Name) : Bool :=
  (method == Reserved.println || method == Reserved.print) &&
    match receiver with
    | some (.field _ (.ident tag system) out) =>
      out == Reserved.out && system == Reserved.system && (context.facade.meaning tag.id).isNone
    | _ => false

/-- The parts of a call. -/
structure CallParts where
  tag : Source.Tag
  receiver : Option Part
  method : Name
  args : List (LowerM Lowered.Expr)

def argList (args : List (LowerM Lowered.Expr)) : LowerM (List Lowered.Expr) := do
  let args ← runEach args
  checkLength .loweredExpr args
  return args

/-- A list of arguments behind the receiver. -/
def receiverArgs (context : Context) (span : Span) (receiver : Operand)
    (args : List (LowerM Lowered.Expr)) : LowerM (List Lowered.Expr) :=
  argList (receiver.use context span :: args)

/-- The receiver of an instance call; without a written one it is the current receiver. -/
def receiverOperand (context : Context) (routine : Routine) (call : CallParts) (site : CallSite) :
    LowerM (List Lowered.Stmt × Operand) :=
  match call.receiver with
  | some part => operand context part (.class routine.className)
  | none =>
    if site.needsSelf then return ([], .self)
    else fail (.unmet Reserved.empty .implicitReceiver call.tag.span)

def printCall (call : CallParts) : LowerM Lowered.Expr := do
  let args ← argList call.args
  return .print call.tag.span (call.method == Reserved.println) args

/-- A call without a target, under its source name. -/
def unresolvedCall (context : Context) (call : CallParts) : LowerM Lowered.Expr := do
  if context.options.strict then
    fail (.unresolvedCall call.method call.tag.span)
  let receiver ←
    match call.receiver with
    | some part => part.lower
    | none => pure .absent
  let args ← argList call.args
  return .unresolvedCall call.tag.span receiver call.method args

/-- The evaluation of a receiver that nothing but its effects is wanted of. -/
def receiverEffect : Option Part → LowerM (List Lowered.Stmt)
  | none => return []
  | some part =>
    if part.expr.isPure then
      return []
    else do
      let value ← part.lower
      return [.eval value]

/-- A call of a static method. A receiver that is not pure is evaluated for its effects. -/
def staticCall (call : CallParts) (site : CallSite) : LowerM Lowered.Expr := do
  let effect ← receiverEffect call.receiver
  let args ← argList call.args
  blockExpr call.tag.span effect
    (.qualifiedCall call.tag.span site.target.className site.mangled args)

/-- A call of a known implementation. -/
def directCall (context : Context) (routine : Routine) (call : CallParts) (site : CallSite) :
    LowerM Lowered.Expr := do
  let span := call.tag.span
  if call.receiver.any (·.expr.isSuper) then
    let args ← receiverArgs context span .self call.args
    return .qualifiedCall span site.target.className site.mangled args
  let (decl, receiver) ← receiverOperand context routine call site
  let receiverExpr ← receiver.use context span
  let args ← receiverArgs context span receiver call.args
  blockExpr span decl (.directCall span receiverExpr site.mangled args)

/-- The slot through which a target is called. -/
def virtualSlot (context : Context) (span : Span) (site : CallSite) : LowerM Name :=
  match context.facade.method site.target with
  | none => fail (.unmet site.mangled .methodSignature span)
  | some info =>
    match context.facts.vtables.slotFor? site.target.className info.name info.params with
    | none => fail (.unmet site.mangled .vtableSlot span)
    | some slot => return slot.name

def virtualCall (context : Context) (routine : Routine) (call : CallParts) (site : CallSite) :
    LowerM Lowered.Expr := do
  let span := call.tag.span
  let slot ← virtualSlot context span site
  let (decl, receiver) ← receiverOperand context routine call site
  let check ← nullCheck context span receiver
  let receiverExpr ← receiver.use context span
  let args ← receiverArgs context span receiver call.args
  blockExpr span (decl ++ check) (.virtualCall span receiverExpr slot args)

/-- A call, by the way to its target. -/
def lowerCall (context : Context) (routine : Routine) (parts : CallParts) : LowerM Lowered.Expr :=
  if isConsoleOutput context (parts.receiver.map (·.expr)) parts.method then
    printCall parts
  else
    match context.sites.get? parts.tag.id with
    | none => unresolvedCall context parts
    | some site =>
      match context.facade.dispatch parts.tag.id with
      | none => fail (.unmet parts.method .dispatchKind parts.tag.span)
      | some .static => staticCall parts site
      | some .direct => directCall context routine parts site
      | some .virtual => virtualCall context routine parts site

/-- The second phase of construction of a class, run on the current receiver. -/
def chainCall (context : Context) (routine : Routine) (span : Span) (target : ChainTarget)
    (args : List (LowerM Lowered.Expr)) : LowerM Lowered.Expr := do
  let className :=
    match target with
    | .this => routine.className
    | .super => (context.facade.supertype routine.className).getD Reserved.object
  let args ← receiverArgs context span .self args
  return .initCall span className args

/-- A new object, whose construction runs both phases. -/
def lowerNewObject (span : Span) (className : Name) (args : List (LowerM Lowered.Expr)) :
    LowerM Lowered.Expr := do
  let args ← argList (pure (.alloc span className) :: args)
  return .initCall span className args

end ObjectLowering.Lowering
