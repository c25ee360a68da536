/-
**Where a lowered tree returns.**

A lowered expression may run statements of its own in front of its value. These declare, check,
fill and evaluate. None of them returns, so whatever a form adds to an expression, the routine is
left only where the source says so.

* `Lowered.Expr.returns`, `Lowered.Stmt.returns` are the values of the returns in a tree.
* `Lowering.Stays` says of a step that nothing returns in its result.
* `stays_readElement`, `stays_store`, `stays_lowerCall`, … say it for each form.
* **`Source.Expr.stays_lower`**: no expression is lowered to one in which something returns.
-/

import ObjectLowering.Lowering.Expr
import ObjectLowering.Proofs.Lowering.Ensures

namespace ObjectLowering

namespace Lowered

/-! ### Returns -/

mutual

/-- The values of the returns in an expression. -/
def Expr.returns : Expr → List Expr
  | .absent | .dangling => []
  | .int .. | .float .. | .bool .. | .char .. | .str .. | .null _ | .localVar .. => []
  | .staticField .. | .alloc .. | .identity .. => []
  | .field _ only _ | .length _ only | .unary _ _ only | .cast _ _ only => only.returns
  | .instanceOf _ only _ | .arrayAlloc _ _ only => only.returns
  | .index _ first second | .assign _ first second | .binary _ _ first second =>
    first.returns ++ second.returns
  | .virtualCall _ receiver _ args | .directCall _ receiver _ args
  | .unresolvedCall _ receiver _ args => receiver.returns ++ Expr.returnsOfList args
  | .initCall _ _ args | .qualifiedCall _ _ _ args | .check _ _ args | .print _ _ args =>
    Expr.returnsOfList args
  | .block _ body result => Stmt.returnsOfList body ++ result.returns

/-- The values of the returns in several expressions. -/
def Expr.returnsOfList : List Expr → List Expr
  | [] => []
  | expr :: rest => expr.returns ++ Expr.returnsOfList rest

/-- The values of the returns in a statement, in the order in which they stand. -/
def Stmt.returns : Stmt → List Expr
  | .absent | .dangling => []
  | .eval expr => expr.returns
  | .localVar _ _ init => init.returns
  | .block body => Stmt.returnsOfList body
  | .branch cond yes no => cond.returns ++ yes.returns ++ no.returns
  | .whileLoop cond body => cond.returns ++ body.returns
  | .forLoop init cond update body =>
    Stmt.returnsOfList init ++ cond.returns ++ Expr.returnsOfList update ++ body.returns
  | .ret value => value.returns ++ [value]

/-- The values of the returns in several statements. -/
def Stmt.returnsOfList : List Stmt → List Expr
  | [] => []
  | stmt :: rest => stmt.returns ++ Stmt.returnsOfList rest

end

theorem Expr.returnsOfList_of_forall {exprs : List Expr}
    (each : ∀ expr ∈ exprs, expr.returns = []) : Expr.returnsOfList exprs = [] := by
  induction exprs with
  | nil => rfl
  | cons expr rest step =>
    rw [List.forall_mem_cons] at each
    rw [Expr.returnsOfList, each.1, step each.2]
    rfl

theorem Stmt.returnsOfList_of_forall {stmts : List Stmt}
    (each : ∀ stmt ∈ stmts, stmt.returns = []) : Stmt.returnsOfList stmts = [] := by
  induction stmts with
  | nil => rfl
  | cons stmt rest step =>
    rw [List.forall_mem_cons] at each
    rw [Stmt.returnsOfList, each.1, step each.2]
    rfl

@[simp]
theorem Stmt.returnsOfList_append (stmts others : List Stmt) :
    Stmt.returnsOfList (stmts ++ others) =
      Stmt.returnsOfList stmts ++ Stmt.returnsOfList others := by
  induction stmts with
  | nil => rfl
  | cons stmt rest step =>
    rw [List.cons_append, Stmt.returnsOfList, Stmt.returnsOfList, step, List.append_assoc]

theorem Stmt.returnsOfList_singleton (stmt : Stmt) :
    Stmt.returnsOfList [stmt] = stmt.returns := List.append_nil _

end Lowered

namespace Lowering

open Lowered (CheckKind Expr Stmt)

variable {context : Context} {part array position value : Part}

/-- Nothing returns in what the step lowers to. -/
abbrev Stays (step : LowerM Expr) : Prop := Ensures step fun lowered => lowered.returns = []

theorem stays_blockExpr (span : Span) {stmts : List Stmt} {result : Expr}
    (before : Stmt.returnsOfList stmts = []) (known : result.returns = []) :
    Stays (blockExpr span stmts result) := by
  refine (ensures_blockExpr span stmts result).mono fun lowered shape => ?_
  rw [shape]
  unfold behind
  split
  · exact known
  · rw [Expr.returns, before, known]
    rfl

theorem returns_bindTemp (type : Ty) {value : Expr} (known : value.returns = []) :
    Ensures (bindTemp type value) fun bound => bound.1.returns = [] := by
  refine (ensures_bindTemp type value).mono fun bound declared => ?_
  rw [declared, Stmt.returns, known]

theorem returns_checkStmt (span : Span) (kind : CheckKind) {args : List Expr}
    (each : ∀ arg ∈ args, arg.returns = []) : (checkStmt span kind args).returns = [] :=
  Expr.returnsOfList_of_forall each

theorem returns_argList {steps : List (LowerM Expr)} (each : ∀ step ∈ steps, Stays step) :
    Ensures (argList steps) fun values => Expr.returnsOfList values = [] :=
  (Ensures.runAll each).bind fun _ known =>
    .ignoreLength (.pure (Expr.returnsOfList_of_forall known))

/-! ### Operands -/

/-- Nothing returns in the statements that prepare an operand, nor in its uses. -/
structure Rests (context : Context) (prepared : List Stmt × Operand) : Prop where
  before : Stmt.returnsOfList prepared.1 = []
  uses : ∀ span, Stays (prepared.2.use context span)

theorem rests_self : Rests context ([], .self) := ⟨rfl, fun _ => .pure rfl⟩

theorem rests_reread (stays : Stays part.lower) : Rests context ([], .reread part.lower) :=
  ⟨rfl, fun _ => stays⟩

theorem rests_of_fixed (stays : Stays part.lower) {stmts : List Stmt} {operand : Operand}
    (fixed : Fixed part (fun lowered => lowered.returns = []) stmts operand) :
    Rests context (stmts, operand) := by
  cases fixed with
  | literal _ => exact rests_reread stays
  | receiver _ => exact rests_self
  | temp evaluated =>
    refine ⟨?_, fun _ => .pure rfl⟩
    rw [Stmt.returnsOfList_singleton]
    exact evaluated

theorem rests_operand (fallback : Ty) (stays : Stays part.lower) :
    Ensures (operand context part fallback) (Rests context) := by
  refine (ensures_operand context fallback stays).mono fun prepared shape => ?_
  split at shape
  · rw [shape]
    exact rests_reread stays
  · exact rests_of_fixed stays shape

theorem rests_operandBefore (fallback : Ty) (later : Source.Expr) (stays : Stays part.lower) :
    Ensures (operandBefore context part fallback later) (Rests context) := by
  refine (ensures_operandBefore context fallback stays later).mono fun prepared shape => ?_
  split at shape
  · rw [shape]
    exact rests_reread stays
  · exact rests_of_fixed stays shape

theorem returns_nullCheck (span : Span) {prepared : List Stmt × Operand}
    (rests : Rests context prepared) :
    Ensures (nullCheck context span prepared.2) fun stmts => Stmt.returnsOfList stmts = [] := by
  unfold nullCheck
  split
  · exact .pure rfl
  · refine (rests.uses span).bind fun value known => .pure ?_
    rw [Stmt.returnsOfList_singleton]
    exact returns_checkStmt span .notNull (List.forall_mem_singleton.mpr known)

/-! ### Arrays -/

theorem returns_slot (span : Span) (first : Stays array.lower) (second : Stays position.lower) :
    Ensures (slot context span array position) fun element =>
      Stmt.returnsOfList element.1 = [] ∧ element.2.returns = [] := by
  unfold slot
  refine (rests_operandBefore .object position.expr first).bind ?_
  rintro ⟨arrayDecl, arrayUse⟩ restsArray
  dsimp only
  split
  · refine (restsArray.uses span).bind fun arrayExpr arrayKnown => ?_
    refine second.bind fun positionExpr positionKnown => .pure ⟨restsArray.before, ?_⟩
    rw [Expr.returns, arrayKnown, positionKnown]
    rfl
  · refine (rests_operand .int second).bind ?_
    rintro ⟨positionDecl, positionUse⟩ restsPosition
    refine (restsArray.uses span).bind fun checkedArray checkedArrayKnown => ?_
    refine (restsPosition.uses span).bind fun checkedPosition checkedPositionKnown => ?_
    refine (restsArray.uses span).bind fun arrayExpr arrayKnown => ?_
    refine (restsPosition.uses span).bind fun positionExpr positionKnown => .pure ?_
    have check : (checkStmt span .arrayAccess [checkedArray, checkedPosition]).returns = [] :=
      returns_checkStmt span _ (by simp [checkedArrayKnown, checkedPositionKnown])
    constructor
    · show Stmt.returnsOfList (arrayDecl ++ positionDecl ++ [_]) = []
      rw [Stmt.returnsOfList_append, Stmt.returnsOfList_append, restsArray.before,
        restsPosition.before, Stmt.returnsOfList_singleton, check]
      rfl
    · rw [Expr.returns, arrayKnown, positionKnown]
      rfl

theorem stays_readElement (span : Span) (first : Stays array.lower)
    (second : Stays position.lower) : Stays (readElement context span array position) :=
  (returns_slot span first second).bind fun _ known => stays_blockExpr span known.1 known.2

theorem stays_updateElement (span : Span) (op : UnaryOp) (first : Stays array.lower)
    (second : Stays position.lower) : Stays (updateElement context span op array position) :=
  (returns_slot span first second).bind fun _ known => stays_blockExpr span known.1 known.2

theorem returns_assignElement (span : Span) {array position value : Expr}
    (first : array.returns = []) (second : position.returns = []) (third : value.returns = []) :
    (Expr.assign span (.index span array position) value).returns = [] := by
  rw [Expr.returns, Expr.returns, first, second, third]
  rfl

theorem stays_store (span : Span) (first : Stays array.lower) (second : Stays position.lower)
    (third : Stays value.lower) : Stays (store context span array position value) := by
  unfold store
  refine (rests_operandBefore _ value.expr first).bind ?_
  rintro ⟨arrayDecl, arrayUse⟩ restsArray
  refine (rests_operandBefore .int value.expr second).bind ?_
  rintro ⟨positionDecl, positionUse⟩ restsPosition
  have decls : Stmt.returnsOfList (arrayDecl ++ positionDecl) = [] := by
    rw [Stmt.returnsOfList_append, restsArray.before, restsPosition.before]
    rfl
  dsimp only
  split
  · refine (restsArray.uses span).bind fun arrayExpr arrayKnown => ?_
    refine (restsPosition.uses span).bind fun positionExpr positionKnown => ?_
    refine third.bind fun stored storedKnown => ?_
    exact stays_blockExpr span decls
      (returns_assignElement span arrayKnown positionKnown storedKnown)
  · refine third.bind fun stored storedKnown => ?_
    refine (returns_bindTemp _ storedKnown).bind fun bound declared => ?_
    refine (restsArray.uses span).bind fun checkedArray checkedArrayKnown => ?_
    refine (restsPosition.uses span).bind fun checkedPosition checkedPositionKnown => ?_
    refine (restsArray.uses span).bind fun arrayExpr arrayKnown => ?_
    refine (restsPosition.uses span).bind fun positionExpr positionKnown => ?_
    have check : (checkStmt span .arrayStore
        [checkedArray, checkedPosition, .localVar span bound.2]).returns = [] :=
      returns_checkStmt span _ (by simp [checkedArrayKnown, checkedPositionKnown, Expr.returns])
    refine stays_blockExpr span ?_ (returns_assignElement span arrayKnown positionKnown rfl)
    rw [Stmt.returnsOfList_append, decls, Stmt.returnsOfList, declared,
      Stmt.returnsOfList_singleton, check]
    rfl

theorem stays_arrayLength (span : Span) (first : Stays array.lower) :
    Stays (arrayLength context span array) := by
  unfold arrayLength
  refine (rests_operand .object first).bind fun prepared rests => ?_
  refine (returns_nullCheck span rests).bind fun check checkKnown => ?_
  refine (rests.uses span).bind fun arrayExpr arrayKnown => ?_
  refine stays_blockExpr span ?_ arrayKnown
  rw [Stmt.returnsOfList_append, rests.before, checkKnown]
  rfl

theorem returns_checkedLength (span : Span) {size : Expr} (known : size.returns = []) :
    (checkedLength context span size).returns = [] := by
  unfold checkedLength
  split
  · exact Expr.returnsOfList_of_forall (List.forall_mem_singleton.mpr known)
  · exact known

/-- The loops that fill an array declare, allocate and store. -/
theorem returns_fillLevels (span : Span) (leaf : Ty) (size : Name) (names : List Name) :
    Ensures (fillLevels span leaf size names) fun level =>
      Stmt.returnsOfList level.1 = [] ∧ level.2.returns = [] := by
  induction names generalizing size with
  | nil => exact .pure ⟨rfl, rfl⟩
  | cons next rest step =>
    unfold fillLevels
    refine (returns_bindTemp _ rfl).bind fun array arrayDeclared => ?_
    refine (returns_bindTemp _ rfl).bind fun counter counterDeclared => ?_
    refine (step next).bind fun level ⟨stmtsKnown, valueKnown⟩ => .pure ⟨?_, rfl⟩
    have loop : (fillLoop span array.2 counter.2 size counter.1 level.1 level.2).returns = [] := by
      show Stmt.returnsOfList [counter.1] ++ [] ++ [] ++ Stmt.returnsOfList (level.1 ++ [_]) = []
      rw [Stmt.returnsOfList_singleton, counterDeclared, Stmt.returnsOfList_append, stmtsKnown,
        Stmt.returnsOfList_singleton]
      exact returns_assignElement span rfl rfl valueKnown
    rw [Stmt.returnsOfList, arrayDeclared, Stmt.returnsOfList_singleton, loop]
    rfl

theorem returns_bindDimension (span : Span) {dim : LowerM Expr} (stays : Stays dim) :
    Ensures (bindDimension context span dim) fun bound => bound.1.returns = [] :=
  stays.bind fun _ known => returns_bindTemp _ (returns_checkedLength span known)

theorem stays_lowerNewArray (span : Span) (element : Ty) (extra : Nat) {dims : List (LowerM Expr)}
    (each : ∀ dim ∈ dims, Stays dim) :
    Stays (lowerNewArray context span element dims extra) := by
  unfold lowerNewArray
  cases dims with
  | nil => exact .fail
  | cons dim rest =>
    rw [List.forall_mem_cons] at each
    cases rest with
    | nil => exact each.1.bind fun size known => .pure (returns_checkedLength span known)
    | cons next rest =>
      refine (returns_bindDimension span each.1).bind ?_
      rintro ⟨decl, size⟩ declared
      have bounds : ∀ step ∈ (next :: rest).map (bindDimension context span),
          Ensures step fun bound => bound.1.returns = [] :=
        List.forall_mem_map.mpr fun dim inside => returns_bindDimension span (each.2 dim inside)
      refine (Ensures.runAll bounds).bind fun bound boundKnown => ?_
      refine (returns_fillLevels span _ size _).bind ?_
      rintro ⟨stmts, array⟩ ⟨stmtsKnown, arrayKnown⟩
      refine stays_blockExpr span ?_ arrayKnown
      have decls : Stmt.returnsOfList (bound.map (·.1)) = [] :=
        Stmt.returnsOfList_of_forall (List.forall_mem_map.mpr boundKnown)
      dsimp only at declared stmtsKnown ⊢
      rw [Stmt.returnsOfList_append, Stmt.returnsOfList, declared, decls, stmtsKnown]
      rfl

/-! ### Calls -/

/-- Nothing returns in the receiver of a call, if it has one, nor in its arguments. -/
structure CallParts.Stays (parts : CallParts) : Prop where
  receives : ∀ part, parts.receiver = some part → Lowering.Stays part.lower
  passes : ∀ step ∈ parts.args, Lowering.Stays step

variable {parts : CallParts} {site : CallSite}

theorem returns_receiverArgs (span : Span) {prepared : List Stmt × Operand}
    (rests : Rests context prepared) {steps : List (LowerM Expr)}
    (each : ∀ step ∈ steps, Stays step) :
    Ensures (receiverArgs context span prepared.2 steps) fun values =>
      Expr.returnsOfList values = [] :=
  returns_argList (List.forall_mem_cons.mpr ⟨rests.uses span, each⟩)

theorem rests_receiverOperand (routine : Routine) (stays : parts.Stays) :
    Ensures (receiverOperand context routine parts site) (Rests context) := by
  unfold receiverOperand
  split
  · rename_i part written
    exact rests_operand _ (stays.receives part written)
  · split
    · exact .pure rests_self
    · exact .fail

theorem stays_printCall (stays : parts.Stays) : Stays (printCall parts) :=
  (returns_argList stays.passes).bind fun _ known => .pure known

theorem stays_unresolvedCall (stays : parts.Stays) : Stays (unresolvedCall context parts) := by
  have onward (receiver : Expr) (before : receiver.returns = []) : Stays (do
      let args ← argList parts.args
      return .unresolvedCall parts.tag.span receiver parts.method args) := by
    refine (returns_argList stays.passes).bind fun args known => .pure ?_
    rw [Expr.returns, before, known]
    rfl
  unfold unresolvedCall
  dsimp only
  split
  · exact Ensures.bind .fail fun _ (never : False) => never.elim
  · split
    · rename_i part written
      exact (stays.receives part written).bind onward
    · exact onward .absent rfl

theorem returns_receiverEffect (stays : parts.Stays) :
    Ensures (receiverEffect parts.receiver) fun stmts => Stmt.returnsOfList stmts = [] := by
  unfold receiverEffect
  split
  · exact .pure rfl
  · rename_i part written
    split
    · exact .pure rfl
    · refine (stays.receives part written).bind fun value known => .pure ?_
      rw [Stmt.returnsOfList_singleton]
      exact known

theorem stays_staticCall (stays : parts.Stays) : Stays (staticCall parts site) :=
  (returns_receiverEffect stays).bind fun _ before =>
    (returns_argList stays.passes).bind fun _ known => stays_blockExpr _ before known

theorem stays_directCall (routine : Routine) (stays : parts.Stays) :
    Stays (directCall context routine parts site) := by
  unfold directCall
  dsimp only
  split
  · exact (returns_receiverArgs _ rests_self stays.passes).bind fun _ known => .pure known
  · refine (rests_receiverOperand routine stays).bind fun prepared rests => ?_
    refine (rests.uses _).bind fun receiver receiverKnown => ?_
    refine (returns_receiverArgs _ rests stays.passes).bind fun args known => ?_
    refine stays_blockExpr _ rests.before ?_
    rw [Expr.returns, receiverKnown, known]
    rfl

theorem stays_virtualCall (routine : Routine) (stays : parts.Stays) :
    Stays (virtualCall context routine parts site) := by
  unfold virtualCall
  refine .after fun slot => ?_
  refine (rests_receiverOperand routine stays).bind fun prepared rests => ?_
  refine (returns_nullCheck _ rests).bind fun check checkKnown => ?_
  refine (rests.uses _).bind fun receiver receiverKnown => ?_
  refine (returns_receiverArgs _ rests stays.passes).bind fun args known => ?_
  refine stays_blockExpr _ ?_ ?_
  · rw [Stmt.returnsOfList_append, rests.before, checkKnown]
    rfl
  · rw [Expr.returns, receiverKnown, known]
    rfl

theorem stays_lowerCall (routine : Routine) (stays : parts.Stays) :
    Stays (lowerCall context routine parts) := by
  unfold lowerCall
  split
  · exact stays_printCall stays
  · split
    · exact stays_unresolvedCall stays
    · split
      · exact .fail
      · exact stays_staticCall stays
      · exact stays_directCall routine stays
      · exact stays_virtualCall routine stays

theorem stays_chainCall (routine : Routine) (span : Span) (target : ChainTarget)
    {steps : List (LowerM Expr)} (each : ∀ step ∈ steps, Stays step) :
    Stays (chainCall context routine span target steps) :=
  (returns_receiverArgs span rests_self each).bind fun _ known => .pure known

theorem stays_lowerNewObject (span : Span) (className : Name) {steps : List (LowerM Expr)}
    (each : ∀ step ∈ steps, Stays step) : Stays (lowerNewObject span className steps) := by
  have made : Stays (pure (.alloc span className)) := .pure rfl
  exact (returns_argList (List.forall_mem_cons.mpr ⟨made, each⟩)).bind fun _ known => .pure known

/-! ### Source trees -/

theorem stays_memberAccess {part : Part} (tag : Source.Tag) (name : Name)
    (stays : Stays part.lower) : Stays (memberAccess context tag part name) := by
  unfold memberAccess
  split
  · exact .pure rfl
  · split
    · exact stays_arrayLength tag.span stays
    · exact stays.bind fun _ known => .pure known

theorem returns_identifier (tag : Source.Tag) (name : Name) :
    (identifier context tag name).returns = [] := by
  unfold identifier fieldRef
  split
  · split <;> rfl
  · rfl

end Lowering

open Lowering

mutual

/-- **Nothing returns in a lowered expression.** -/
theorem Source.Expr.stays_lower (context : Context) (routine : Routine) :
    ∀ expr : Source.Expr, Stays (expr.lower context routine)
  | .int .. | .float .. | .bool .. | .char .. | .str .. | .null _ | .this _ | .super _ => .pure rfl
  | .ident tag name => .pure (returns_identifier tag name)
  | .field tag receiver name =>
    stays_memberAccess tag name (receiver.stays_lower context routine)
  | .call _ none _ args =>
    stays_lowerCall routine
      ⟨fun _ written => (nomatch written), Source.Expr.stays_lowerEach context routine args⟩
  | .call _ (some receiver) _ args => by
    refine stays_lowerCall routine ⟨?_, Source.Expr.stays_lowerEach context routine args⟩
    rintro _ ⟨⟩
    exact receiver.stays_lower context routine
  | .chain tag target args =>
    stays_chainCall routine tag.span target (Source.Expr.stays_lowerEach context routine args)
  | .newObject tag className args =>
    stays_lowerNewObject tag.span className (Source.Expr.stays_lowerEach context routine args)
  | .newArray tag element dims extra =>
    stays_lowerNewArray tag.span element extra (Source.Expr.stays_lowerEach context routine dims)
  | .index tag array position =>
    stays_readElement tag.span (array.stays_lower context routine)
      (position.stays_lower context routine)
  | .assign tag target value => by
    rw [lower.eq_def]
    dsimp only
    split
    · rename_i array position
      exact stays_store tag.span (array.stays_lower context routine)
        (position.stays_lower context routine) (value.stays_lower context routine)
    · refine (target.stays_lower context routine).bind fun _ first => ?_
      refine (value.stays_lower context routine).bind fun _ second => .pure ?_
      rw [Lowered.Expr.returns, first, second]
      rfl
  | .binary tag op left right => by
    refine (left.stays_lower context routine).bind fun _ first => ?_
    refine (right.stays_lower context routine).bind fun _ second => .pure ?_
    rw [Lowered.Expr.returns, first, second]
    rfl
  | .unary tag op operand => by
    rw [lower.eq_def]
    dsimp only
    split
    · rename_i array position _
      exact stays_updateElement tag.span op (array.stays_lower context routine)
        (position.stays_lower context routine)
    · rename_i inner _ _ _
      exact (inner.stays_lower context routine).bind fun _ known => .pure known
  | .cast _ _ operand | .instanceOf _ operand _ =>
    (operand.stays_lower context routine).bind fun _ known => .pure known

theorem Source.Expr.stays_lowerEach (context : Context) (routine : Routine) :
    ∀ exprs : List Source.Expr,
      ∀ step ∈ Source.Expr.lowerEach context routine exprs, Stays step
  | [] => List.forall_mem_nil _
  | expr :: rest => List.forall_mem_cons.mpr
    ⟨expr.stays_lower context routine, Source.Expr.stays_lowerEach context routine rest⟩

end

theorem Source.Expr.stays_lowerOption (context : Context) (routine : Routine)
    (expr : Option Source.Expr) : Stays (Source.Expr.lowerOption context routine expr) := by
  cases expr with
  | none => exact .pure rfl
  | some expr => exact expr.stays_lower context routine

end ObjectLowering
