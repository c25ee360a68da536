/-
**Lowered trees are whole.**

A lowered form may lack some children and not others, a check takes as many arguments as its kind
says, and a call with a receiver hands it on as its first argument. Lowering makes only such trees,
whatever a facade answers. What it can fail with is told by single nodes of the source.

* `Lowered.Expr.Formed`, `Lowered.Stmt.Formed`: the tree is whole. Where no construction may be
  handed on, every object that a construction runs on is a new one. `ClassLayout.Formed`: all trees
  of a class are whole.
* `Source.Expr.lowerError?` is the error that lowering a node itself ends in.
* `Lowering.Settles` speaks of all runs of a step: the failures that may occur and the results.
* `forms_readElement`, `forms_store`, `forms_lowerCall`, … say it for each form.
* **`Source.Expr.forms_lower`**, **`Source.Stmt.forms_lower`**: lowering fails with the errors of
  nodes and over-long lists only, and its results are whole.
-/

import ObjectLowering.Proofs.Lowering.Ensures

namespace ObjectLowering

/-! ### Whole trees -/

namespace Lowered

/-- The arguments of a construction start with the object, which is a new one unless the receiver
may be handed on. -/
def StartsWithObject (chained : Bool) : List Expr → Prop
  | [] => False
  | .alloc .. :: _ => True
  | _ :: _ => chained = true

mutual

/-- Whether an expression is whole. -/
def Expr.Formed (chained : Bool) : Expr → Prop
  | .absent | .dangling => False
  | .int .. | .float .. | .bool .. | .char .. | .str .. | .null _ | .localVar .. => True
  | .staticField .. | .alloc .. | .identity .. => True
  | .field _ only _ | .length _ only | .unary _ _ only | .cast _ _ only => only.Formed chained
  | .instanceOf _ only _ | .arrayAlloc _ _ only => only.Formed chained
  | .index _ first second | .assign _ first second | .binary _ _ first second =>
    first.Formed chained ∧ second.Formed chained
  | .initCall _ _ args => StartsWithObject chained args ∧ Expr.AllFormed chained args
  | .virtualCall _ receiver _ args | .directCall _ receiver _ args =>
    receiver.Formed chained ∧ args ≠ [] ∧ Expr.AllFormed chained args
  | .unresolvedCall _ receiver _ args =>
    (receiver = .absent ∨ receiver.Formed chained) ∧ Expr.AllFormed chained args
  | .qualifiedCall _ _ _ args | .print _ _ args => Expr.AllFormed chained args
  | .check _ kind args => args.length = kind.arity ∧ Expr.AllFormed chained args
  | .block _ body result => Stmt.AllFormed chained body ∧ result.Formed chained

/-- Whether all expressions are whole. -/
def Expr.AllFormed (chained : Bool) : List Expr → Prop
  | [] => True
  | expr :: rest => expr.Formed chained ∧ Expr.AllFormed chained rest

/-- Whether a statement is whole. -/
def Stmt.Formed (chained : Bool) : Stmt → Prop
  | .absent | .dangling => False
  | .eval expr => expr.Formed chained
  | .localVar _ _ value | .ret value => value = .absent ∨ value.Formed chained
  | .block body => Stmt.AllFormed chained body
  | .branch cond yes no =>
    cond.Formed chained ∧ yes.Formed chained ∧ (no = .absent ∨ no.Formed chained)
  | .whileLoop cond body => cond.Formed chained ∧ body.Formed chained
  | .forLoop init cond update body =>
    Stmt.AllFormed chained init ∧ (cond = .absent ∨ cond.Formed chained) ∧
      Expr.AllFormed chained update ∧ body.Formed chained

/-- Whether all statements are whole. -/
def Stmt.AllFormed (chained : Bool) : List Stmt → Prop
  | [] => True
  | stmt :: rest => stmt.Formed chained ∧ Stmt.AllFormed chained rest

end

variable {chained : Bool}

theorem Expr.allFormed_of_forall {exprs : List Expr} (each : ∀ expr ∈ exprs, expr.Formed chained) :
    AllFormed chained exprs := by
  induction exprs with
  | nil => exact trivial
  | cons expr rest step =>
    rw [List.forall_mem_cons] at each
    exact ⟨each.1, step each.2⟩

theorem Stmt.allFormed_of_forall {stmts : List Stmt} (each : ∀ stmt ∈ stmts, stmt.Formed chained) :
    AllFormed chained stmts := by
  induction stmts with
  | nil => exact trivial
  | cons stmt rest step =>
    rw [List.forall_mem_cons] at each
    exact ⟨each.1, step each.2⟩

theorem Stmt.allFormed_append {stmts others : List Stmt} (first : AllFormed chained stmts)
    (second : AllFormed chained others) : AllFormed chained (stmts ++ others) := by
  induction stmts with
  | nil => exact second
  | cons stmt rest step => exact ⟨first.1, step first.2⟩

/-- Whether the values and bodies of a class are whole. -/
structure ClassLayout.Formed (layout : ClassLayout Expr Stmt) : Prop where
  values : ∀ member ∈ layout.ctor, ∀ value, member.value? = some value → value.Formed true
  statics : ∀ storage ∈ layout.statics, storage.init.Formed true
  routines : ∀ routine ∈ layout.routines, routine.body.Formed true

end Lowered

namespace Lowering

open Lowered (Expr Stmt)

/-! ### Steps and how they end -/

/-- Failing for an over-long list, or with one of these errors. -/
def FailsWith (errors : LoweringError → Prop) : LoweringFailure → Prop
  | .error error => errors error
  | .listTooLong _ => True

/-- Whatever the count of temporaries, a step fails with one of these errors or for an over-long
list, or its result has the property. -/
structure Settles {α : Type} (errors : LoweringError → Prop) (step : LowerM α)
    (property : α → Prop) : Prop where
  ensures : Ensures step property
  fails : ∀ start failure, step.run start = .error failure → FailsWith errors failure

namespace Settles

variable {α β : Type} {errors : LoweringError → Prop} {step : LowerM α} {next : α → LowerM β}
  {property other : α → Prop} {result : β → Prop}

theorem mono (settles : Settles errors step property)
    (weaker : ∀ value, property value → other value) : Settles errors step other :=
  ⟨settles.ensures.mono weaker, settles.fails⟩

theorem pure {value : α} (known : property value) : Settles errors (pure value) property :=
  ⟨.pure known, fun _ _ failed => by cases failed⟩

theorem fail {error : LoweringError} (known : errors error) :
    Settles errors (fail error) property :=
  ⟨.fail, fun _ _ failed => by cases failed; exact known⟩

theorem bind (first : Settles errors step property)
    (second : ∀ value, property value → Settles errors (next value) result) :
    Settles errors (step >>= next) result := by
  refine ⟨first.ensures.bind fun value known => (second value known).ensures, ?_⟩
  intro start failure failed
  rw [StateT.run_bind] at failed
  cases here : step.run start with
  | error first' =>
    rw [here] at failed
    cases failed
    exact first.fails start failure here
  | ok reached =>
    rw [here] at failed
    have known := first.ensures start reached.1 reached.2 here
    exact (second reached.1 known).fails reached.2 failure failed

theorem checkLength {ι : Type} (kind : NodeKind) (items : List ι) :
    Settles errors (checkLength kind items) fun _ => True := by
  refine ⟨fun _ _ _ _ => trivial, fun start failure failed => ?_⟩
  unfold Lowering.checkLength at failed
  split at failed <;> cases failed
  exact trivial

/-- Steps that all settle alike. -/
theorem runAll {steps : List (LowerM α)}
    (each : ∀ step ∈ steps, Settles errors step property) :
    Settles errors (Lowering.runEach steps) fun values => ∀ value ∈ values, property value := by
  induction steps with
  | nil => exact pure fun _ member => nomatch member
  | cons step rest induct =>
    rw [List.forall_mem_cons] at each
    exact each.1.bind fun first here => (induct each.2).bind fun others there =>
      pure (List.forall_mem_cons.mpr ⟨here, there⟩)

end Settles

/-! ### Errors of single nodes -/

/-- The error of a call without a written receiver whose target needs none. -/
def receiverError? (tag : Source.Tag) (receiver : Option Source.Expr) (site : CallSite) :
    Option LoweringError :=
  if receiver.isNone && !site.needsSelf then
    some (.unmet Reserved.empty .implicitReceiver tag.span)
  else none

/-- The error of a call through the vtable whose target has no slot. -/
def slotError? (context : Context) (span : Span) (site : CallSite) : Option LoweringError :=
  match context.facade.method site.target with
  | none => some (.unmet site.mangled .methodSignature span)
  | some info =>
    match context.facts.vtables.slotFor? site.target.className info.name info.params with
    | none => some (.unmet site.mangled .vtableSlot span)
    | some _ => none

/-- The error that lowering a call ends in, its receiver and arguments aside. -/
def callError? (context : Context) (tag : Source.Tag) (receiver : Option Source.Expr)
    (method : Name) : Option LoweringError :=
  if isConsoleOutput context receiver method then none
  else
    match context.sites.get? tag.id with
    | none => if context.options.strict then some (.unresolvedCall method tag.span) else none
    | some site =>
      match context.facade.dispatch tag.id with
      | none => some (.unmet method .dispatchKind tag.span)
      | some .static => none
      | some .direct => receiverError? tag receiver site
      | some .virtual => (slotError? context tag.span site).or (receiverError? tag receiver site)

end Lowering

/-- The error that lowering a node ends in, its children aside. -/
def Source.Expr.lowerError? (context : Lowering.Context) : Source.Expr → Option LoweringError
  | .call tag receiver method _ => Lowering.callError? context tag receiver method
  | .newArray tag _ [] _ => some (.unmet Reserved.empty .arrayDimension tag.span)
  | _ => none

/-- A node ends in one of these errors if in any, and hands the receiver on only where that may
be. -/
structure Source.Expr.Admits (context : Lowering.Context) (errors : LoweringError → Prop)
    (chained : Bool) (node : Source.Expr) : Prop where
  error : ∀ error, node.lowerError? context = some error → errors error
  chain : node.isChain = true → chained = true

namespace Lowering

open Lowered (Expr Stmt)

variable {context : Context} {errors : LoweringError → Prop} {chained : Bool}

/-- The step fails only with these errors, and lowers to whole expressions. -/
def Forms (errors : LoweringError → Prop) (chained : Bool) (step : LowerM Expr) : Prop :=
  Settles errors step (Expr.Formed chained)

theorem forms_blockExpr (span : Span) {stmts : List Stmt} {result : Expr}
    (before : Stmt.AllFormed chained stmts) (value : result.Formed chained) :
    Forms errors chained (blockExpr span stmts result) := by
  unfold blockExpr
  split
  · exact .pure value
  · exact (Settles.checkLength _ _).bind fun _ _ => .pure ⟨before, value⟩

theorem settles_bindTemp (type : Ty) {value : Expr} (formed : value.Formed chained) :
    Settles errors (bindTemp type value) fun bound => bound.1.Formed chained :=
  ⟨(ensures_bindTemp type value).mono fun _ shape => by rw [shape]; exact .inr formed,
    fun _ _ failed => by cases failed⟩

theorem settles_argList {steps : List (LowerM Expr)}
    (each : ∀ step ∈ steps, Forms errors chained step) :
    Settles errors (argList steps) (Expr.AllFormed chained) :=
  (Settles.runAll each).bind fun _ formed => (Settles.checkLength _ _).bind fun _ _ =>
    .pure (Expr.allFormed_of_forall formed)

/-- Arguments behind a first one that is known better. -/
theorem settles_argList_cons {first : LowerM Expr} {steps : List (LowerM Expr)}
    {property : Expr → Prop} (head : Settles errors first property)
    (each : ∀ step ∈ steps, Forms errors chained step) :
    Settles errors (argList (first :: steps)) fun values =>
      ∃ value others, values = value :: others ∧ property value ∧
        Expr.AllFormed chained others := by
  have run : Settles errors (runEach (first :: steps)) fun values =>
      ∃ value others, values = value :: others ∧ property value ∧
        Expr.AllFormed chained others :=
    head.bind fun value known => (Settles.runAll each).bind fun others formed =>
      .pure ⟨value, others, rfl, known, Expr.allFormed_of_forall formed⟩
  exact run.bind fun _ known => (Settles.checkLength _ _).bind fun _ _ => .pure known

/-! ### Operands -/

variable {part array position value : Part}

/-- Whole statements prepare an operand, whose uses are whole. -/
structure Prepares (context : Context) (errors : LoweringError → Prop) (chained : Bool)
    (prepared : List Stmt × Operand) : Prop where
  before : Stmt.AllFormed chained prepared.1
  forms : ∀ span, Forms errors chained (prepared.2.use context span)

theorem prepares_self : Prepares context errors chained ([], .self) :=
  ⟨trivial, fun _ => .pure trivial⟩

theorem settles_readOnce (fallback : Ty) (forms : Forms errors chained part.lower) :
    Settles errors (readOnce context part fallback) (Prepares context errors chained) := by
  unfold readOnce
  split
  · exact .pure prepares_self
  · refine forms.bind fun value formed => ?_
    refine (settles_bindTemp _ formed).bind fun bound declared => .pure ?_
    exact ⟨⟨declared, trivial⟩, fun _ => .pure trivial⟩

theorem settles_operand (fallback : Ty) (forms : Forms errors chained part.lower) :
    Settles errors (operand context part fallback) (Prepares context errors chained) := by
  unfold operand
  split
  · exact .pure ⟨trivial, fun _ => forms⟩
  · exact settles_readOnce fallback forms

theorem settles_operandBefore (fallback : Ty) (later : Source.Expr)
    (forms : Forms errors chained part.lower) :
    Settles errors (operandBefore context part fallback later)
      (Prepares context errors chained) := by
  unfold operandBefore
  split
  · exact settles_operand fallback forms
  · exact settles_readOnce fallback forms

theorem settles_nullCheck (span : Span) {prepared : List Stmt × Operand}
    (ready : Prepares context errors chained prepared) :
    Settles errors (nullCheck context span prepared.2) (Stmt.AllFormed chained) := by
  unfold nullCheck
  split
  · exact .pure trivial
  · exact (ready.forms span).bind fun value formed => .pure ⟨⟨rfl, formed, trivial⟩, trivial⟩

/-! ### Arrays -/

theorem settles_slot (span : Span) (first : Forms errors chained array.lower)
    (second : Forms errors chained position.lower) :
    Settles errors (slot context span array position) fun element =>
      Stmt.AllFormed chained element.1 ∧ element.2.Formed chained := by
  unfold slot
  refine (settles_operandBefore .object position.expr first).bind ?_
  rintro ⟨arrayDecl, arrayUse⟩ readyArray
  dsimp only
  split
  · refine (readyArray.forms span).bind fun arrayExpr arrayFormed => ?_
    refine second.bind fun positionExpr positionFormed => .pure ?_
    exact ⟨readyArray.before, arrayFormed, positionFormed⟩
  · refine (settles_operand .int second).bind ?_
    rintro ⟨positionDecl, positionUse⟩ readyPosition
    refine (readyArray.forms span).bind fun checkedArray checkedArrayFormed => ?_
    refine (readyPosition.forms span).bind fun checkedPosition checkedPositionFormed => ?_
    refine (readyArray.forms span).bind fun arrayExpr arrayFormed => ?_
    refine (readyPosition.forms span).bind fun positionExpr positionFormed => .pure ?_
    have check : (checkStmt span .arrayAccess [checkedArray, checkedPosition]).Formed chained :=
      ⟨rfl, checkedArrayFormed, checkedPositionFormed, trivial⟩
    have decls := Stmt.allFormed_append readyArray.before readyPosition.before
    exact ⟨Stmt.allFormed_append decls ⟨check, trivial⟩, arrayFormed, positionFormed⟩

theorem forms_readElement (span : Span) (first : Forms errors chained array.lower)
    (second : Forms errors chained position.lower) :
    Forms errors chained (readElement context span array position) :=
  (settles_slot span first second).bind fun _ formed => forms_blockExpr span formed.1 formed.2

theorem forms_updateElement (span : Span) (op : UnaryOp) (first : Forms errors chained array.lower)
    (second : Forms errors chained position.lower) :
    Forms errors chained (updateElement context span op array position) :=
  (settles_slot span first second).bind fun _ formed => forms_blockExpr span formed.1 formed.2

theorem forms_store (span : Span) (first : Forms errors chained array.lower)
    (second : Forms errors chained position.lower) (third : Forms errors chained value.lower) :
    Forms errors chained (store context span array position value) := by
  unfold store
  refine (settles_operandBefore _ value.expr first).bind ?_
  rintro ⟨arrayDecl, arrayUse⟩ readyArray
  refine (settles_operandBefore .int value.expr second).bind ?_
  rintro ⟨positionDecl, positionUse⟩ readyPosition
  have decls := Stmt.allFormed_append readyArray.before readyPosition.before
  dsimp only at decls ⊢
  split
  · refine (readyArray.forms span).bind fun arrayExpr arrayFormed => ?_
    refine (readyPosition.forms span).bind fun positionExpr positionFormed => ?_
    refine third.bind fun stored storedFormed => ?_
    exact forms_blockExpr span decls ⟨⟨arrayFormed, positionFormed⟩, storedFormed⟩
  · refine third.bind fun stored storedFormed => ?_
    refine (settles_bindTemp _ storedFormed).bind fun bound declared => ?_
    refine (readyArray.forms span).bind fun checkedArray checkedArrayFormed => ?_
    refine (readyPosition.forms span).bind fun checkedPosition checkedPositionFormed => ?_
    refine (readyArray.forms span).bind fun arrayExpr arrayFormed => ?_
    refine (readyPosition.forms span).bind fun positionExpr positionFormed => ?_
    have check : (checkStmt span .arrayStore
        [checkedArray, checkedPosition, .localVar span bound.2]).Formed chained :=
      ⟨rfl, checkedArrayFormed, checkedPositionFormed, trivial, trivial⟩
    exact forms_blockExpr span (Stmt.allFormed_append decls ⟨declared, check, trivial⟩)
      ⟨⟨arrayFormed, positionFormed⟩, trivial⟩

theorem forms_arrayLength (span : Span) (first : Forms errors chained array.lower) :
    Forms errors chained (arrayLength context span array) := by
  unfold arrayLength
  refine (settles_operand .object first).bind fun prepared ready => ?_
  refine (settles_nullCheck span ready).bind fun check checkFormed => ?_
  refine (ready.forms span).bind fun arrayExpr arrayFormed => ?_
  exact forms_blockExpr span (Stmt.allFormed_append ready.before checkFormed) arrayFormed

theorem formed_checkedLength (span : Span) {size : Expr} (formed : size.Formed chained) :
    (checkedLength context span size).Formed chained := by
  unfold checkedLength
  split
  · exact ⟨rfl, formed, trivial⟩
  · exact formed

theorem settles_fillLevels (span : Span) (leaf : Ty) (size : Name) (names : List Name) :
    Settles errors (fillLevels span leaf size names) fun level =>
      Stmt.AllFormed chained level.1 ∧ level.2.Formed chained := by
  induction names generalizing size with
  | nil => exact .pure ⟨trivial, trivial⟩
  | cons next rest step =>
    unfold fillLevels
    have size : (Expr.arrayAlloc span (leaf.arrayOf (rest.length + 1))
      (.localVar span size)).Formed chained := trivial
    refine (settles_bindTemp _ size).bind fun array arrayDeclared => ?_
    have zero : (Expr.int span 0).Formed chained := trivial
    refine (settles_bindTemp _ zero).bind fun counter counterDeclared => ?_
    refine (step next).bind fun level ⟨stmtsFormed, valueFormed⟩ => .pure ?_
    have fill : Stmt.AllFormed chained [.eval (.assign span (.index span
      (.localVar span array.2) (.localVar span counter.2)) level.2)] :=
      ⟨⟨⟨trivial, trivial⟩, valueFormed⟩, trivial⟩
    refine ⟨⟨arrayDeclared, ⟨?_, trivial⟩⟩, trivial⟩
    exact ⟨⟨counterDeclared, trivial⟩, .inr ⟨trivial, trivial⟩, ⟨trivial, trivial⟩,
      Stmt.allFormed_append stmtsFormed fill⟩

theorem settles_bindDimension (span : Span) {dim : LowerM Expr} (forms : Forms errors chained dim) :
    Settles errors (bindDimension context span dim) fun bound => bound.1.Formed chained :=
  forms.bind fun _ formed => settles_bindTemp _ (formed_checkedLength span formed)

theorem forms_lowerNewArray (span : Span) (element : Ty) (extra : Nat) {dims : List (LowerM Expr)}
    (sized : dims = [] → errors (.unmet Reserved.empty .arrayDimension span))
    (each : ∀ dim ∈ dims, Forms errors chained dim) :
    Forms errors chained (lowerNewArray context span element dims extra) := by
  unfold lowerNewArray
  cases dims with
  | nil => exact .fail (sized rfl)
  | cons dim rest =>
    rw [List.forall_mem_cons] at each
    cases rest with
    | nil => exact each.1.bind fun size formed => .pure (formed_checkedLength span formed)
    | cons next rest =>
      refine (settles_bindDimension span each.1).bind ?_
      rintro ⟨decl, size⟩ declFormed
      have bounds : ∀ step ∈ (next :: rest).map (bindDimension context span),
          Settles errors step fun bound => bound.1.Formed chained :=
        List.forall_mem_map.mpr fun dim inside => settles_bindDimension span (each.2 dim inside)
      refine (Settles.runAll bounds).bind fun bound boundFormed => ?_
      have levels : Settles errors
          (fillLevels span (element.arrayOf extra) size (bound.map (·.2))) fun level =>
            Stmt.AllFormed chained level.1 ∧ level.2.Formed chained :=
        settles_fillLevels span _ size _
      refine levels.bind ?_
      rintro ⟨stmts, array⟩ ⟨stmtsFormed, arrayFormed⟩
      refine forms_blockExpr span (Stmt.allFormed_append ⟨declFormed, ?_⟩ stmtsFormed) arrayFormed
      exact Stmt.allFormed_of_forall (List.forall_mem_map.mpr boundFormed)

/-! ### Calls -/

/-- The receiver of a call, if it has one, and its arguments lower to whole expressions. -/
structure CallParts.Forms (errors : LoweringError → Prop) (chained : Bool) (parts : CallParts) :
    Prop where
  receives : ∀ part, parts.receiver = some part → Lowering.Forms errors chained part.lower
  passes : ∀ step ∈ parts.args, Lowering.Forms errors chained step

variable {parts : CallParts} {site : CallSite}

theorem settles_receiverArgs (span : Span) {prepared : List Stmt × Operand}
    (ready : Prepares context errors chained prepared) {steps : List (LowerM Expr)}
    (each : ∀ step ∈ steps, Forms errors chained step) :
    Settles errors (receiverArgs context span prepared.2 steps) fun values =>
      values ≠ [] ∧ Expr.AllFormed chained values := by
  refine (settles_argList_cons (ready.forms span) each).mono ?_
  rintro _ ⟨value, others, rfl, here, there⟩
  exact ⟨List.cons_ne_nil _ _, here, there⟩

theorem settles_receiverOperand (routine : Routine) (forms : parts.Forms errors chained)
    (written : ∀ error, receiverError? parts.tag (parts.receiver.map (·.expr)) site = some error →
      errors error) :
    Settles errors (receiverOperand context routine parts site)
      (Prepares context errors chained) := by
  unfold receiverOperand
  cases receiver : parts.receiver with
  | some part => exact settles_operand _ (forms.receives part receiver)
  | none =>
    dsimp only
    split
    · exact .pure prepares_self
    · rename_i needless
      refine .fail (written _ ?_)
      unfold receiverError?
      rw [receiver]
      simp [needless]

theorem forms_printCall (forms : parts.Forms errors chained) :
    Forms errors chained (printCall parts) :=
  (settles_argList forms.passes).bind fun _ formed => .pure formed

theorem forms_unresolvedCall (forms : parts.Forms errors chained)
    (lenient : context.options.strict = true →
      errors (.unresolvedCall parts.method parts.tag.span)) :
    Forms errors chained (unresolvedCall context parts) := by
  have onward (receiver : Expr) (before : receiver = .absent ∨ receiver.Formed chained) :
      Forms errors chained (do
        let args ← argList parts.args
        return .unresolvedCall parts.tag.span receiver parts.method args) :=
    (settles_argList forms.passes).bind fun _ formed => .pure ⟨before, formed⟩
  unfold unresolvedCall
  dsimp only
  split
  · rename_i strict
    exact Settles.bind (.fail (lenient strict)) fun _ (never : False) => never.elim
  · split
    · rename_i part written
      exact (forms.receives part written).bind fun receiver formed => onward receiver (.inr formed)
    · exact onward .absent (.inl rfl)

theorem settles_receiverEffect {receiver : Option Part}
    (forms : ∀ part, receiver = some part → Forms errors chained part.lower) :
    Settles errors (receiverEffect receiver) (Stmt.AllFormed chained) := by
  unfold receiverEffect
  split
  · exact .pure trivial
  · split
    · exact .pure trivial
    · exact (forms _ rfl).bind fun _ formed => .pure ⟨formed, trivial⟩

theorem forms_staticCall (forms : parts.Forms errors chained) :
    Forms errors chained (staticCall parts site) :=
  (settles_receiverEffect forms.receives).bind fun _ before =>
    (settles_argList forms.passes).bind fun _ formed => forms_blockExpr _ before formed

theorem forms_directCall (routine : Routine) (forms : parts.Forms errors chained)
    (written : ∀ error, receiverError? parts.tag (parts.receiver.map (·.expr)) site = some error →
      errors error) :
    Forms errors chained (directCall context routine parts site) := by
  unfold directCall
  dsimp only
  split
  · exact (settles_receiverArgs _ prepares_self forms.passes).bind fun _ formed => .pure formed.2
  · refine (settles_receiverOperand routine forms written).bind fun prepared ready => ?_
    refine (ready.forms _).bind fun receiver receiverFormed => ?_
    refine (settles_receiverArgs _ ready forms.passes).bind fun args formed => ?_
    exact forms_blockExpr _ ready.before ⟨receiverFormed, formed⟩

theorem settles_virtualSlot {span : Span}
    (listed : ∀ error, slotError? context span site = some error → errors error) :
    Settles errors (virtualSlot context span site) fun _ =>
      slotError? context span site = none := by
  unfold virtualSlot
  unfold slotError? at listed ⊢
  revert listed
  cases context.facade.method site.target with
  | none => exact fun listed => .fail (listed _ rfl)
  | some info =>
    dsimp only
    cases context.facts.vtables.slotFor? site.target.className info.name info.params with
    | none => exact fun listed => .fail (listed _ rfl)
    | some slot => exact fun _ => .pure rfl

theorem forms_virtualCall (routine : Routine) (forms : parts.Forms errors chained)
    (own : ∀ error, (slotError? context parts.tag.span site).or
      (receiverError? parts.tag (parts.receiver.map (·.expr)) site) = some error → errors error) :
    Forms errors chained (virtualCall context routine parts site) := by
  unfold virtualCall
  refine (settles_virtualSlot fun error listed => own error (by rw [listed]; rfl)).bind ?_
  intro slot listed
  rw [listed] at own
  refine (settles_receiverOperand routine forms own).bind fun prepared ready => ?_
  refine (settles_nullCheck _ ready).bind fun check checkFormed => ?_
  refine (ready.forms _).bind fun receiver receiverFormed => ?_
  refine (settles_receiverArgs _ ready forms.passes).bind fun args formed => ?_
  exact forms_blockExpr _ (Stmt.allFormed_append ready.before checkFormed)
    ⟨receiverFormed, formed⟩

/-- **A call fails with its own error or with those of its parts.** -/
theorem forms_lowerCall (routine : Routine) (forms : parts.Forms errors chained)
    (own : ∀ error, callError? context parts.tag (parts.receiver.map (·.expr)) parts.method =
      some error → errors error) :
    Forms errors chained (lowerCall context routine parts) := by
  unfold lowerCall
  unfold callError? at own
  split
  · exact forms_printCall forms
  · rename_i silent
    rw [if_neg silent] at own
    split
    · rename_i unresolved
      rw [unresolved] at own
      exact forms_unresolvedCall forms fun strict => own _ (if_pos strict)
    · rename_i site resolved
      rw [resolved] at own
      dsimp only at own
      split
      · rename_i missing
        rw [missing] at own
        exact .fail (own _ rfl)
      · exact forms_staticCall forms
      · rename_i direct
        rw [direct] at own
        exact forms_directCall routine forms own
      · rename_i virtual
        rw [virtual] at own
        exact forms_virtualCall routine forms own

/-- A construction is handed on only where that may be. -/
theorem forms_chainCall (routine : Routine) (span : Span) (target : ChainTarget)
    (handed : chained = true) {steps : List (LowerM Expr)}
    (each : ∀ step ∈ steps, Forms errors chained step) :
    Forms errors chained (chainCall context routine span target steps) := by
  have own : Prepares context errors chained ([], .self) := prepares_self
  refine (settles_argList_cons (own.forms span) each).bind ?_
  rintro _ ⟨value, others, rfl, here, there⟩
  refine .pure ⟨?_, here, there⟩
  cases value <;> first | exact trivial | exact handed

theorem forms_lowerNewObject (span : Span) (className : Name) {steps : List (LowerM Expr)}
    (each : ∀ step ∈ steps, Forms errors chained step) :
    Forms errors chained (lowerNewObject span className steps) := by
  have made : Settles errors (pure (.alloc span className) : LowerM Expr)
      (· = .alloc span className) := .pure rfl
  refine (settles_argList_cons made each).bind ?_
  rintro _ ⟨_, others, rfl, rfl, there⟩
  exact .pure ⟨trivial, trivial, there⟩

/-! ### Source trees -/

theorem forms_memberAccess {part : Part} (tag : Source.Tag) (name : Name)
    (forms : Forms errors chained part.lower) :
    Forms errors chained (memberAccess context tag part name) := by
  unfold memberAccess
  split
  · exact .pure trivial
  · split
    · exact forms_arrayLength tag.span forms
    · exact forms.bind fun _ formed => .pure formed

theorem formed_identifier (tag : Source.Tag) (name : Name) :
    (identifier context tag name).Formed chained := by
  unfold identifier fieldRef
  split
  · split <;> exact trivial
  · exact trivial

end Lowering

open Lowering

variable {context : Context} {errors : LoweringError → Prop} {chained : Bool}

mutual

/-- **Lowering an expression fails with the errors of its nodes only**, and makes whole trees. -/
theorem Source.Expr.forms_lower (routine : Routine) : ∀ expr : Source.Expr,
    (∀ node ∈ expr.nodes, node.Admits context errors chained) →
      Forms errors chained (expr.lower context routine)
  | .int .., _ | .float .., _ | .bool .., _ | .char .., _ | .str .., _ | .null _, _ =>
    .pure trivial
  | .this _, _ | .super _, _ => .pure trivial
  | .ident tag name, _ => .pure (formed_identifier tag name)
  | .field tag receiver name, admits => by
    rw [nodes, List.forall_mem_cons] at admits
    exact forms_memberAccess tag name (receiver.forms_lower routine admits.2)
  | .call tag none method args, admits => by
    rw [nodes, List.forall_mem_cons] at admits
    refine forms_lowerCall routine ⟨fun _ written => (nomatch written), ?_⟩ admits.1.error
    exact Source.Expr.forms_lowerEach routine args admits.2
  | .call tag (some receiver) method args, admits => by
    rw [nodes, List.forall_mem_cons, List.forall_mem_append] at admits
    refine forms_lowerCall routine ⟨?_, ?_⟩ admits.1.error
    · rintro _ ⟨⟩
      exact receiver.forms_lower routine admits.2.1
    · exact Source.Expr.forms_lowerEach routine args admits.2.2
  | .chain tag target args, admits => by
    rw [nodes, List.forall_mem_cons] at admits
    exact forms_chainCall routine tag.span target (admits.1.chain rfl)
      (Source.Expr.forms_lowerEach routine args admits.2)
  | .newObject tag className args, admits => by
    rw [nodes, List.forall_mem_cons] at admits
    exact forms_lowerNewObject tag.span className
      (Source.Expr.forms_lowerEach routine args admits.2)
  | .newArray tag element dims extra, admits => by
    rw [nodes, List.forall_mem_cons] at admits
    refine forms_lowerNewArray tag.span element extra (fun none => ?_)
      (Source.Expr.forms_lowerEach routine dims admits.2)
    cases dims with
    | nil => exact admits.1.error _ rfl
    | cons dim rest => cases none
  | .index tag array position, admits => by
    rw [nodes, List.forall_mem_cons, List.forall_mem_append] at admits
    exact forms_readElement tag.span (array.forms_lower routine admits.2.1)
      (position.forms_lower routine admits.2.2)
  | .assign tag target value, admits => by
    rw [nodes, List.forall_mem_cons, List.forall_mem_append] at admits
    obtain ⟨first, second⟩ := admits.2
    rw [lower.eq_def]
    dsimp only
    split
    · rename_i array position
      rw [nodes, List.forall_mem_cons, List.forall_mem_append] at first
      exact forms_store tag.span (array.forms_lower routine first.2.1)
        (position.forms_lower routine first.2.2) (value.forms_lower routine second)
    · exact (target.forms_lower routine first).bind fun _ here =>
        (value.forms_lower routine second).bind fun _ there => .pure ⟨here, there⟩
  | .binary tag op left right, admits => by
    rw [nodes, List.forall_mem_cons, List.forall_mem_append] at admits
    exact (left.forms_lower routine admits.2.1).bind fun _ here =>
      (right.forms_lower routine admits.2.2).bind fun _ there => .pure ⟨here, there⟩
  | .unary tag op operand, admits => by
    rw [nodes, List.forall_mem_cons] at admits
    have below := admits.2
    rw [lower.eq_def]
    dsimp only
    split
    · rename_i array position _
      rw [nodes, List.forall_mem_cons, List.forall_mem_append] at below
      exact forms_updateElement tag.span op (array.forms_lower routine below.2.1)
        (position.forms_lower routine below.2.2)
    · rename_i inner _ _ _
      exact (inner.forms_lower routine below).bind fun _ formed => .pure formed
  | .cast _ _ operand, admits | .instanceOf _ operand _, admits => by
    rw [nodes, List.forall_mem_cons] at admits
    exact (operand.forms_lower routine admits.2).bind fun _ formed => .pure formed

theorem Source.Expr.forms_lowerEach (routine : Routine) : ∀ exprs : List Source.Expr,
    (∀ node ∈ Source.Expr.nodesOfList exprs, node.Admits context errors chained) →
      ∀ step ∈ Source.Expr.lowerEach context routine exprs, Forms errors chained step
  | [], _ => fun _ member => nomatch member
  | expr :: rest, admits => by
    rw [nodesOfList, List.forall_mem_append] at admits
    rw [lowerEach, List.forall_mem_cons]
    exact ⟨expr.forms_lower routine admits.1, Source.Expr.forms_lowerEach routine rest admits.2⟩

end

theorem Source.Expr.settles_lowerOption (routine : Routine) (expr : Option Source.Expr)
    (admits : ∀ node ∈ Source.Expr.nodesOfOption expr, node.Admits context errors chained) :
    Settles errors (Source.Expr.lowerOption context routine expr) fun lowered =>
      lowered = .absent ∨ lowered.Formed chained := by
  cases expr with
  | none => exact .pure (.inl rfl)
  | some expr => exact (expr.forms_lower routine admits).mono fun _ formed => .inr formed

theorem Lowering.formed_implicitResult (context : Context) (span : Span) (mode : Mode) :
    implicitResult context span mode = .absent ∨
      (implicitResult context span mode).Formed chained := by
  cases mode with
  | instanceMethod | static => exact .inl rfl
  | entry | constructor => exact .inr trivial

mutual

/-- **Lowering a statement fails with the errors of its nodes only**, and makes whole trees. -/
theorem Source.Stmt.forms_lower (routine : Routine) : ∀ stmt : Source.Stmt,
    (∀ node ∈ stmt.nodes, node.Admits context errors chained) →
      Settles errors (stmt.lower context routine) (Lowered.Stmt.Formed chained)
  | .eval _ expr, admits => (expr.forms_lower routine admits).bind fun _ formed => .pure formed
  | .localVar _ _ _ init, admits =>
    (Source.Expr.settles_lowerOption routine init admits).bind fun _ formed => .pure formed
  | .block _ body, admits => by
    refine (Settles.runAll (Source.Stmt.forms_lowerEach routine body admits)).bind ?_
    exact fun _ formed => (Settles.checkLength _ _).bind fun _ _ =>
      .pure (Lowered.Stmt.allFormed_of_forall formed)
  | .branch _ cond yes none, admits => by
    rw [nodes, List.forall_mem_append] at admits
    exact (cond.forms_lower routine admits.1).bind fun _ first =>
      (yes.forms_lower routine admits.2).bind fun _ second => .pure ⟨first, second, .inl rfl⟩
  | .branch _ cond yes (some no), admits => by
    rw [nodes, List.forall_mem_append, List.forall_mem_append] at admits
    exact (cond.forms_lower routine admits.1.1).bind fun _ first =>
      (yes.forms_lower routine admits.1.2).bind fun _ second =>
        (no.forms_lower routine admits.2).bind fun _ third => .pure ⟨first, second, .inr third⟩
  | .whileLoop _ cond body, admits => by
    rw [nodes, List.forall_mem_append] at admits
    exact (cond.forms_lower routine admits.1).bind fun _ first =>
      (body.forms_lower routine admits.2).bind fun _ second => .pure ⟨first, second⟩
  | .forLoop _ init cond update body, admits => by
    rw [nodes, List.forall_mem_append, List.forall_mem_append, List.forall_mem_append] at admits
    obtain ⟨⟨⟨inits, condition⟩, updates⟩, body'⟩ := admits
    refine (Settles.runAll (Source.Stmt.forms_lowerEach routine init inits)).bind fun _ first => ?_
    refine (Settles.checkLength _ _).bind fun _ _ => ?_
    refine (Source.Expr.settles_lowerOption routine cond condition).bind fun _ second => ?_
    refine (settles_argList (Source.Expr.forms_lowerEach routine update updates)).bind ?_
    intro _ third
    refine (body.forms_lower routine body').bind fun _ fourth => .pure ?_
    exact ⟨Lowered.Stmt.allFormed_of_forall first, second, third, fourth⟩
  | .ret span none, _ => .pure (formed_implicitResult context span routine.mode)
  | .ret _ (some value), admits =>
    (value.forms_lower routine admits).bind fun _ formed => .pure (.inr formed)

theorem Source.Stmt.forms_lowerEach (routine : Routine) : ∀ stmts : List Source.Stmt,
    (∀ node ∈ Source.Stmt.nodesOfList stmts, node.Admits context errors chained) →
      ∀ step ∈ Source.Stmt.lowerEach context routine stmts,
        Settles errors step (Lowered.Stmt.Formed chained)
  | [], _ => fun _ member => nomatch member
  | stmt :: rest, admits => by
    rw [nodesOfList, List.forall_mem_append] at admits
    rw [lowerEach, List.forall_mem_cons]
    exact ⟨stmt.forms_lower routine admits.1, Source.Stmt.forms_lowerEach routine rest admits.2⟩

end

end ObjectLowering
