/-
**Lowering neither repeats nor reorders calls.**

Each form of lowered tree hoists some parts into temporaries, evaluates pure ones again and puts the
rest in place. Whatever it does, the spans of the calls stand in it in the order in which the source
evaluates them. Only the access of a static field evaluates no receiver: what calls stand there are
lost.

* `Yields` says which calls a step leaves in its result.
* `yields_readElement`, `yields_store`, `yields_lowerCall`, … say it for each form.
* `Source.Expr.yields_lower`, `Source.Stmt.ensures_lower`: lowering keeps the calls of a source tree
  but for the receivers of static fields.
* **`calls_lower_iff`**: it keeps them all exactly if no such receiver runs one.
-/

import ObjectLowering.Proofs.Calls.CallOrder
import ObjectLowering.Proofs.Lowering.Ensures

namespace ObjectLowering

namespace Lowering

open Lowered (Expr Stmt)

/-! ### Steps and the calls that they leave -/

/-- The step lowers to an expression with these calls. -/
def Yields (step : LowerM Expr) (calls : List Span) : Prop :=
  Ensures step fun lowered => lowered.calls = calls

/-- A part lowers to an expression with these calls; if it may be lowered again, there are none. -/
structure Part.Yields (part : Part) (calls : List Span) : Prop where
  lowers : Lowering.Yields part.lower calls
  silent : part.expr.isPure = true → calls = []

/-- Statements that run these calls prepare an operand, whose uses run none. -/
structure Holds (context : Context) (calls : List Span) (prepared : List Stmt × Operand) :
    Prop where
  before : Stmt.callsOfList prepared.1 = calls
  silent : ∀ span, Yields (prepared.2.use context span) []

theorem calls_behind (span : Span) (stmts : List Stmt) (result : Expr) :
    (behind span stmts result).calls = Stmt.callsOfList stmts ++ result.calls := by
  unfold behind
  cases stmts with
  | nil => rfl
  | cons stmt rest => rfl

theorem yields_blockExpr (span : Span) {stmts : List Stmt} {result : Expr} {calls : List Span}
    (same : Stmt.callsOfList stmts ++ result.calls = calls) :
    Yields (blockExpr span stmts result) calls :=
  (ensures_blockExpr span stmts result).mono fun _ shape => by rw [shape, calls_behind, same]

theorem callsOfList_of_forall₂ {calls : List (List Span)} {values : List Expr}
    (each : List.Forall₂ (fun here value => value.calls = here) calls values) :
    Expr.callsOfList values = calls.flatten := by
  induction each with
  | nil => rfl
  | cons here _ there => rw [Expr.callsOfList, here, there, List.flatten_cons]

theorem ensures_argList {steps : List (LowerM Expr)} {calls : List (List Span)}
    (each : List.Forall₂ Yields steps calls) :
    Ensures (argList steps) fun values => Expr.callsOfList values = calls.flatten := by
  refine (Ensures.runEach each).bind fun values known => .after fun _ => .pure ?_
  exact callsOfList_of_forall₂ known

/-! ### Operands -/

variable {context : Context} {part array position value : Part}
  {calls callsThen callsLast : List Span}

/-- A fixed value was evaluated once, if evaluating it runs calls at all. -/
theorem holds_of_fixed (yields : part.Yields calls) {stmts : List Stmt} {operand : Operand}
    (fixed : Fixed part (fun lowered => lowered.calls = calls) stmts operand) :
    Holds context calls (stmts, operand) := by
  cases fixed with
  | literal constant =>
    have none := yields.silent (isPure_of_isConstant constant)
    subst none
    exact ⟨rfl, fun _ => yields.lowers⟩
  | receiver own =>
    have none := yields.silent (isPure_of_isReceiver own)
    subst none
    exact ⟨rfl, fun _ => .pure rfl⟩
  | temp evaluated =>
    refine ⟨?_, fun _ => .pure rfl⟩
    rw [Stmt.callsOfList, Stmt.callsOfList, List.append_nil]
    exact evaluated

theorem holds_of_reread (yields : part.Yields calls) (reread : isReread part.expr = true) :
    Holds context calls ([], .reread part.lower) := by
  unfold isReread at reread
  rw [Bool.and_eq_true, Bool.and_eq_true] at reread
  have none := yields.silent reread.1.1
  subst none
  exact ⟨rfl, fun _ => yields.lowers⟩

theorem holds_operand (yields : part.Yields calls) (fallback : Ty) :
    Ensures (operand context part fallback) (Holds context calls) := by
  refine (ensures_operand context fallback yields.lowers).mono ?_
  intro prepared shape
  split at shape
  · rename_i reread
    rw [shape]
    exact holds_of_reread yields reread
  · exact holds_of_fixed yields shape

theorem holds_operandBefore (yields : part.Yields calls) (fallback : Ty) (later : Source.Expr) :
    Ensures (operandBefore context part fallback later) (Holds context calls) := by
  refine (ensures_operandBefore context fallback yields.lowers later).mono ?_
  intro prepared shape
  split at shape
  · rename_i both
    rw [Bool.and_eq_true] at both
    rw [shape]
    exact holds_of_reread yields both.2
  · exact holds_of_fixed yields shape

/-- A check against `null` runs no call. -/
theorem ensures_nullCheck (span : Span) {prepared : List Stmt × Operand}
    (held : Holds context calls prepared) :
    Ensures (nullCheck context span prepared.2) fun stmts => Stmt.callsOfList stmts = [] := by
  unfold nullCheck
  split
  · exact .pure rfl
  · refine (held.silent span).bind fun value silent => .pure ?_
    show (value.calls ++ []) ++ [] = []
    rw [silent]
    rfl

/-! ### Arrays -/

theorem ensures_slot (span : Span) (first : array.Yields calls)
    (second : position.Yields callsThen) :
    Ensures (slot context span array position) fun element =>
      Stmt.callsOfList element.1 ++ element.2.calls = calls ++ callsThen := by
  unfold slot
  refine (holds_operandBefore first .object position.expr).bind ?_
  rintro ⟨arrayDecl, arrayUse⟩ heldArray
  dsimp only
  split
  · refine (heldArray.silent span).bind ?_
    intro arrayExpr arraySilent
    refine second.lowers.bind fun positionExpr positionCalls => .pure ?_
    show Stmt.callsOfList arrayDecl ++ (arrayExpr.calls ++ positionExpr.calls) = _
    rw [heldArray.before, arraySilent, positionCalls, List.nil_append]
  · refine (holds_operand second .int).bind ?_
    rintro ⟨positionDecl, positionUse⟩ heldPosition
    refine (heldArray.silent span).bind ?_
    intro checkedArray checkedArraySilent
    refine (heldPosition.silent span).bind ?_
    intro checkedPosition checkedPositionSilent
    refine (heldArray.silent span).bind ?_
    intro arrayExpr arraySilent
    refine (heldPosition.silent span).bind fun positionExpr positionSilent => .pure ?_
    have check : Stmt.callsOfList [checkStmt span .arrayAccess [checkedArray, checkedPosition]] =
        [] := by
      show (checkedArray.calls ++ (checkedPosition.calls ++ [])) ++ [] = []
      rw [checkedArraySilent, checkedPositionSilent]
      rfl
    show Stmt.callsOfList (arrayDecl ++ positionDecl ++ _) ++
      (arrayExpr.calls ++ positionExpr.calls) = _
    rw [Lowered.Stmt.callsOfList_append, Lowered.Stmt.callsOfList_append, heldArray.before,
      heldPosition.before, check, arraySilent, positionSilent]
    simp

theorem yields_readElement (span : Span) (first : array.Yields calls)
    (second : position.Yields callsThen) :
    Yields (readElement context span array position) (calls ++ callsThen) :=
  (ensures_slot span first second).bind fun _ same => yields_blockExpr span same

theorem yields_updateElement (span : Span) (op : UnaryOp) (first : array.Yields calls)
    (second : position.Yields callsThen) :
    Yields (updateElement context span op array position) (calls ++ callsThen) :=
  (ensures_slot span first second).bind fun _ same => yields_blockExpr span same

theorem yields_store (span : Span) (first : array.Yields calls) (second : position.Yields callsThen)
    (third : value.Yields callsLast) :
    Yields (store context span array position value) (calls ++ callsThen ++ callsLast) := by
  unfold store
  refine (holds_operandBefore first _ value.expr).bind ?_
  rintro ⟨arrayDecl, arrayUse⟩ heldArray
  refine (holds_operandBefore second .int value.expr).bind ?_
  rintro ⟨positionDecl, positionUse⟩ heldPosition
  dsimp only
  split
  · refine (heldArray.silent span).bind ?_
    intro arrayExpr arraySilent
    refine (heldPosition.silent span).bind ?_
    intro positionExpr positionSilent
    refine third.lowers.bind ?_
    intro stored storedCalls
    refine yields_blockExpr span ?_
    show Stmt.callsOfList _ ++ (arrayExpr.calls ++ positionExpr.calls ++ stored.calls) = _
    rw [Lowered.Stmt.callsOfList_append, heldArray.before, heldPosition.before, arraySilent,
      positionSilent, storedCalls]
    simp
  · refine third.lowers.bind ?_
    intro stored storedCalls
    refine (ensures_bindTemp _ stored).bind ?_
    intro bound declared
    refine (heldArray.silent span).bind ?_
    intro checkedArray checkedArraySilent
    refine (heldPosition.silent span).bind ?_
    intro checkedPosition checkedPositionSilent
    refine (heldArray.silent span).bind ?_
    intro arrayExpr arraySilent
    refine (heldPosition.silent span).bind ?_
    intro positionExpr positionSilent
    refine yields_blockExpr span ?_
    have late : Stmt.callsOfList [bound.1, checkStmt span .arrayStore
        [checkedArray, checkedPosition, .localVar span bound.2]] = callsLast := by
      show bound.1.calls ++ ((checkedArray.calls ++ (checkedPosition.calls ++ [])) ++ []) = _
      rw [declared, checkedArraySilent, checkedPositionSilent]
      show stored.calls ++ [] = _
      rw [storedCalls, List.append_nil]
    show Stmt.callsOfList _ ++ (arrayExpr.calls ++ positionExpr.calls ++ []) = _
    rw [Lowered.Stmt.callsOfList_append, Lowered.Stmt.callsOfList_append, heldArray.before,
      heldPosition.before, late, arraySilent, positionSilent]
    simp

theorem yields_arrayLength (span : Span) (first : array.Yields calls) :
    Yields (arrayLength context span array) calls := by
  unfold arrayLength
  refine (holds_operand first .object).bind ?_
  intro prepared held
  refine (ensures_nullCheck span held).bind ?_
  intro check checkSilent
  refine (held.silent span).bind ?_
  intro arrayExpr arraySilent
  refine yields_blockExpr span ?_
  show Stmt.callsOfList _ ++ arrayExpr.calls = _
  rw [Lowered.Stmt.callsOfList_append, held.before, checkSilent, arraySilent]
  simp

theorem calls_checkedLength (span : Span) (size : Expr) :
    (checkedLength context span size).calls = size.calls := by
  unfold checkedLength
  split
  · exact List.append_nil _
  · rfl

/-- Filling levels runs no call: their lengths are in temporaries. -/
theorem ensures_fillLevels (span : Span) (leaf : Ty) (size : Name) (names : List Name) :
    Ensures (fillLevels span leaf size names) fun level =>
      Stmt.callsOfList level.1 = [] ∧ level.2.calls = [] := by
  induction names generalizing size with
  | nil => exact .pure ⟨rfl, rfl⟩
  | cons next rest step =>
    unfold fillLevels
    refine (ensures_bindTemp _ _).bind ?_
    intro array arrayDeclared
    refine (ensures_bindTemp _ _).bind ?_
    intro counter counterDeclared
    refine (step next).bind fun level ⟨stmtsSilent, valueSilent⟩ => .pure ⟨?_, rfl⟩
    have body : Stmt.callsOfList (level.1 ++ [.eval (.assign span
        (.index span (.localVar span array.2) (.localVar span counter.2)) level.2)]) = [] := by
      rw [Lowered.Stmt.callsOfList_append, stmtsSilent]
      show (([] ++ []) ++ level.2.calls) ++ [] = []
      rw [valueSilent]
      rfl
    show array.1.calls ++
      ((Stmt.callsOfList [counter.1] ++ [] ++ Stmt.callsOfList _ ++ []) ++ []) = []
    rw [arrayDeclared, counterDeclared, body]
    rfl

theorem ensures_bindDimension (context : Context) (span : Span) {dim : LowerM Expr}
    (yields : Yields dim calls) :
    Ensures (bindDimension context span dim) fun bound => bound.1.calls = calls := by
  refine yields.bind ?_
  intro size sizeCalls
  refine (ensures_bindTemp _ _).mono ?_
  intro bound declared
  rw [declared]
  exact (calls_checkedLength span size).trans sizeCalls

theorem stmtsCalls_of_forall₂ {sizes : List (List Span)} {bounds : List (Stmt × Name)}
    (each : List.Forall₂ (fun here bound => bound.1.calls = here) sizes bounds) :
    Stmt.callsOfList (bounds.map (·.1)) = sizes.flatten := by
  induction each with
  | nil => rfl
  | cons here _ there => rw [List.map_cons, Stmt.callsOfList, here, there, List.flatten_cons]

theorem yields_lowerNewArray (span : Span) (element : Ty) (extra : Nat) {dims : List (LowerM Expr)}
    {sizes : List (List Span)} (each : List.Forall₂ Yields dims sizes) :
    Yields (lowerNewArray context span element dims extra) sizes.flatten := by
  unfold lowerNewArray
  cases each with
  | nil => exact .fail
  | @cons dim first rest others here there =>
    cases there with
    | nil =>
      refine here.bind fun size sizeCalls => .pure ?_
      show (checkedLength context span size).calls = first ++ []
      rw [calls_checkedLength, sizeCalls, List.append_nil]
    | @cons next second rest others next there =>
      refine (ensures_bindDimension context span here).bind ?_
      rintro ⟨decl, size⟩ declCalls
      have bounds := Ensures.runEach (List.forall₂_map_left_iff.mpr
        ((List.Forall₂.cons next there).imp fun _ _ yields =>
          ensures_bindDimension context span yields))
      refine bounds.bind ?_
      intro bound boundCalls
      refine (ensures_fillLevels span _ size _).bind ?_
      rintro ⟨stmts, array⟩ ⟨stmtsSilent, silent⟩
      refine yields_blockExpr span ?_
      have ahead : Stmt.callsOfList (bound.map (·.1)) = (second :: others).flatten :=
        stmtsCalls_of_forall₂ boundCalls
      dsimp only at declCalls stmtsSilent silent
      show Stmt.callsOfList ((decl :: bound.map (·.1)) ++ stmts) ++ array.calls = _
      rw [Lowered.Stmt.callsOfList_append, Stmt.callsOfList, ahead, declCalls, stmtsSilent, silent]
      simp

/-! ### Calls -/

/-- The parts of a call leave these calls: its receiver, if it has one, and its arguments. -/
structure CallParts.Yields (parts : CallParts) (receiver : List Span) (args : List (List Span)) :
    Prop where
  receives : ∀ part, parts.receiver = some part → part.Yields receiver
  alone : parts.receiver = none → receiver = []
  passes : List.Forall₂ Lowering.Yields parts.args args

variable {parts : CallParts} {args : List (List Span)}

/-- The receiver in front of the arguments is a copy that runs no call. -/
theorem ensures_receiverArgs (span : Span) {prepared : List Stmt × Operand}
    (held : Holds context calls prepared) {steps : List (LowerM Expr)}
    (each : List.Forall₂ Yields steps args) :
    Ensures (receiverArgs context span prepared.2 steps) fun values =>
      Expr.callsOfList values = args.flatten := by
  have all : List.Forall₂ Yields (prepared.2.use context span :: steps) ([] :: args) :=
    .cons (held.silent span) each
  have known := ensures_argList all
  exact known

theorem holds_receiverOperand (routine : Routine) (site : CallSite)
    (yields : parts.Yields calls args) :
    Ensures (receiverOperand context routine parts site) (Holds context calls) := by
  unfold receiverOperand
  split
  · rename_i part written
    exact holds_operand (yields.receives part written) _
  · rename_i alone
    split
    · have none := yields.alone alone
      subst none
      exact .pure ⟨rfl, fun _ => .pure rfl⟩
    · exact .fail

theorem yields_printCall (yields : parts.Yields [] args) :
    Yields (printCall parts) (args.flatten ++ [parts.tag.span]) := by
  refine (ensures_argList yields.passes).bind fun values known => .pure ?_
  show Expr.callsOfList values ++ _ = _
  rw [known]

theorem yields_unresolvedCall (yields : parts.Yields calls args) :
    Yields (unresolvedCall context parts) (calls ++ args.flatten ++ [parts.tag.span]) := by
  have onward (receiver : Expr) (before : receiver.calls = calls) : Yields (do
      let args ← argList parts.args
      return .unresolvedCall parts.tag.span receiver parts.method args)
      (calls ++ args.flatten ++ [parts.tag.span]) := by
    refine (ensures_argList yields.passes).bind fun values known => .pure ?_
    show receiver.calls ++ Expr.callsOfList values ++ _ = _
    rw [before, known]
  unfold unresolvedCall
  dsimp only
  split
  · exact Ensures.bind .fail fun _ (never : False) => never.elim
  · split
    · rename_i part written
      exact (yields.receives part written).lowers.bind onward
    · rename_i alone
      exact onward .absent (yields.alone alone).symm

/-- A receiver that is not wanted is evaluated all the same, if it may run a call. -/
theorem ensures_receiverEffect (yields : parts.Yields calls args) :
    Ensures (receiverEffect parts.receiver) fun stmts => Stmt.callsOfList stmts = calls := by
  unfold receiverEffect
  split
  · rename_i alone
    exact .pure (yields.alone alone).symm
  · rename_i part written
    have receiver := yields.receives part written
    split
    · rename_i again
      exact .pure (receiver.silent again).symm
    · refine receiver.lowers.bind fun value known => .pure ?_
      show value.calls ++ [] = calls
      rw [known, List.append_nil]

theorem yields_staticCall (site : CallSite) (yields : parts.Yields calls args) :
    Yields (staticCall parts site) (calls ++ args.flatten ++ [parts.tag.span]) := by
  unfold staticCall
  refine (ensures_receiverEffect yields).bind ?_
  intro effect effectCalls
  refine (ensures_argList yields.passes).bind fun values known => yields_blockExpr _ ?_
  show _ ++ (Expr.callsOfList values ++ _) = _
  rw [effectCalls, known, List.append_assoc]

theorem yields_directCall (routine : Routine) (site : CallSite) (yields : parts.Yields calls args) :
    Yields (directCall context routine parts site) (calls ++ args.flatten ++ [parts.tag.span]) := by
  unfold directCall
  dsimp only
  split
  · rename_i viaSuper
    have none : calls = [] := by
      cases written : parts.receiver with
      | none => exact yields.alone written
      | some part =>
        rw [written] at viaSuper
        exact (yields.receives part written).silent (isPure_of_isSuper viaSuper)
    subst none
    have held : Holds context [] ([], .self) := ⟨rfl, fun _ => .pure rfl⟩
    refine (ensures_receiverArgs _ held yields.passes).bind fun values known => .pure ?_
    show Expr.callsOfList values ++ _ = _
    rw [known, List.nil_append]
  · refine (holds_receiverOperand routine site yields).bind ?_
    rintro ⟨decl, receiver⟩ held
    refine (held.silent _).bind ?_
    intro receiverExpr silent
    refine (ensures_receiverArgs _ held yields.passes).bind fun values known =>
      yields_blockExpr _ ?_
    show Stmt.callsOfList decl ++ (receiverExpr.calls ++ Expr.callsOfList values ++ _) = _
    rw [held.before, silent, known]
    simp

theorem yields_virtualCall (routine : Routine) (site : CallSite)
    (yields : parts.Yields calls args) :
    Yields (virtualCall context routine parts site)
      (calls ++ args.flatten ++ [parts.tag.span]) := by
  unfold virtualCall
  refine .after ?_
  intro slot
  refine (holds_receiverOperand routine site yields).bind ?_
  rintro ⟨decl, receiver⟩ held
  refine (ensures_nullCheck _ held).bind ?_
  intro check checkSilent
  refine (held.silent _).bind ?_
  intro receiverExpr silent
  refine (ensures_receiverArgs _ held yields.passes).bind fun values known => yields_blockExpr _ ?_
  show Stmt.callsOfList _ ++ (receiverExpr.calls ++ Expr.callsOfList values ++ _) = _
  rw [Lowered.Stmt.callsOfList_append, held.before, checkSilent, silent, known]
  simp

/-- **A call runs the calls of its receiver, then those of its arguments, then itself.** -/
theorem yields_lowerCall (routine : Routine) (yields : parts.Yields calls args) :
    Yields (lowerCall context routine parts) (calls ++ args.flatten ++ [parts.tag.span]) := by
  unfold lowerCall
  split
  · rename_i output
    obtain ⟨_, named, again⟩ := isPure_of_isConsoleOutput output
    obtain ⟨part, written, rfl⟩ := Option.map_eq_some_iff.mp named
    have none := (yields.receives part written).silent again
    subst none
    exact yields_printCall yields
  · split
    · exact yields_unresolvedCall yields
    · split
      · exact .fail
      · exact yields_staticCall _ yields
      · exact yields_directCall routine _ yields
      · exact yields_virtualCall routine _ yields

theorem yields_chainCall (routine : Routine) (span : Span) (target : ChainTarget)
    {steps : List (LowerM Expr)} (each : List.Forall₂ Yields steps args) :
    Yields (chainCall context routine span target steps) (args.flatten ++ [span]) := by
  have held : Holds context [] ([], .self) := ⟨rfl, fun _ => .pure rfl⟩
  refine (ensures_receiverArgs span held each).bind fun values known => .pure ?_
  show Expr.callsOfList values ++ _ = _
  rw [known]

theorem yields_lowerNewObject (span : Span) (className : Name) {steps : List (LowerM Expr)}
    (each : List.Forall₂ Yields steps args) :
    Yields (lowerNewObject span className steps) (args.flatten ++ [span]) := by
  have made : Yields (pure (.alloc span className)) [] := .pure rfl
  refine (ensures_argList (.cons made each)).bind fun values known => .pure ?_
  show Expr.callsOfList values ++ _ = _
  rw [known]
  rfl

/-! ### Source trees -/

/-- The accesses that evaluate no receiver: those that mean a static field. -/
def leavesReceiver (context : Context) (id receiver : NodeId) : Bool :=
  (staticOwner? context id receiver).isSome

theorem yields_memberAccess (tag : Source.Tag) (name : Name) (yields : part.Yields calls) :
    Yields (memberAccess context tag part name)
      (if leavesReceiver context tag.id part.expr.id then [] else calls) := by
  unfold memberAccess leavesReceiver
  cases staticOwner? context tag.id part.expr.id with
  | some className => exact .pure rfl
  | none =>
    dsimp only
    split
    · exact yields_arrayLength tag.span yields
    · exact yields.lowers.bind fun object known => .pure known

theorem calls_identifier (tag : Source.Tag) (name : Name) :
    (identifier context tag name).calls = [] := by
  unfold identifier fieldRef
  split
  · split <;> rfl
  · rfl

end Lowering

open Lowering

theorem Source.Expr.yields_part {context : Context} {routine : Routine} {expr : Source.Expr}
    (yields : Yields (expr.lower context routine) (expr.callsBut (leavesReceiver context))) :
    Part.Yields ⟨expr, expr.lower context routine⟩ (expr.callsBut (leavesReceiver context)) :=
  ⟨yields, Source.Expr.callsBut_of_isPure _⟩

mutual

/-- **Lowering an expression keeps its calls**, but for those in receivers of static fields. -/
theorem Source.Expr.yields_lower (context : Context) (routine : Routine) : ∀ expr : Source.Expr,
    Yields (expr.lower context routine) (expr.callsBut (leavesReceiver context))
  | .int .. | .float .. | .bool .. | .char .. | .str .. | .null _ | .this _ | .super _ => .pure rfl
  | .ident tag name => .pure (calls_identifier tag name)
  | .field tag receiver name =>
    yields_memberAccess tag name (yields_part (receiver.yields_lower context routine))
  | .call tag none method args => by
    have passes := Source.Expr.yields_lowerEach context routine args
    have yields : CallParts.Yields ⟨tag, none, method, _⟩ [] _ := {
      receives := fun _ written => by cases written
      alone := fun _ => rfl
      passes }
    rw [callsBut, callsOfListBut_eq_flatten]
    exact yields_lowerCall routine yields
  | .call tag (some receiver) method args => by
    have passes := Source.Expr.yields_lowerEach context routine args
    have receiver := yields_part (receiver.yields_lower context routine)
    have yields : CallParts.Yields ⟨tag, some ⟨_, _⟩, method, _⟩ _ _ := {
      receives := fun _ written => by cases written; exact receiver
      alone := fun absent => by cases absent
      passes }
    rw [callsBut, callsOfListBut_eq_flatten]
    exact yields_lowerCall routine yields
  | .chain tag target args => by
    rw [callsBut, callsOfListBut_eq_flatten]
    exact yields_chainCall routine tag.span target
      (Source.Expr.yields_lowerEach context routine args)
  | .newObject tag className args => by
    rw [callsBut, callsOfListBut_eq_flatten]
    exact yields_lowerNewObject tag.span className
      (Source.Expr.yields_lowerEach context routine args)
  | .newArray tag element dims extra => by
    rw [callsBut, callsOfListBut_eq_flatten]
    exact yields_lowerNewArray tag.span element extra
      (Source.Expr.yields_lowerEach context routine dims)
  | .index tag array position =>
    yields_readElement tag.span (yields_part (array.yields_lower context routine))
      (yields_part (position.yields_lower context routine))
  | .assign tag target value => by
    rw [lower.eq_def]
    dsimp only
    split
    · rename_i array position
      exact yields_store tag.span (yields_part (array.yields_lower context routine))
        (yields_part (position.yields_lower context routine))
        (yields_part (value.yields_lower context routine))
    · exact (target.yields_lower context routine).bind fun _ here =>
        (value.yields_lower context routine).bind fun _ there => .pure <| by
          show _ ++ _ = _ ++ _
          rw [here, there]
  | .binary tag op left right =>
    (left.yields_lower context routine).bind fun _ here =>
      (right.yields_lower context routine).bind fun _ there => .pure <| by
        show _ ++ _ = _ ++ _
        rw [here, there]
  | .unary tag op operand => by
    rw [lower.eq_def]
    dsimp only
    split
    · rename_i array position _
      exact yields_updateElement tag.span op (yields_part (array.yields_lower context routine))
        (yields_part (position.yields_lower context routine))
    · rename_i inner _ _ _
      exact (inner.yields_lower context routine).bind fun _ known => .pure known
  | .cast _ _ operand | .instanceOf _ operand _ =>
    (operand.yields_lower context routine).bind fun _ known => .pure known

theorem Source.Expr.yields_lowerEach (context : Context) (routine : Routine) :
    ∀ exprs : List Source.Expr, List.Forall₂ Yields (Source.Expr.lowerEach context routine exprs)
      (exprs.map (·.callsBut (leavesReceiver context)))
  | [] => .nil
  | expr :: rest =>
    .cons (expr.yields_lower context routine) (Source.Expr.yields_lowerEach context routine rest)

end

theorem Source.Expr.yields_lowerOption (context : Context) (routine : Routine)
    (expr : Option Source.Expr) : Yields (Source.Expr.lowerOption context routine expr)
      (Source.Expr.callsOfOptionBut (leavesReceiver context) expr) := by
  cases expr with
  | none => exact .pure rfl
  | some expr => exact expr.yields_lower context routine

/-- The step lowers to a statement with these calls. -/
def Lowering.YieldsStmt (step : LowerM Lowered.Stmt) (calls : List Span) : Prop :=
  Ensures step fun lowered => lowered.calls = calls

theorem Source.Stmt.callsOfListBut_eq_flatten (dropped : NodeId → NodeId → Bool)
    (stmts : List Source.Stmt) :
    callsOfListBut dropped stmts = (stmts.map (·.callsBut dropped)).flatten := by
  induction stmts with
  | nil => rfl
  | cons stmt rest step => rw [callsOfListBut, step, List.map_cons, List.flatten_cons]

theorem Lowering.ensures_runEachStmt {steps : List (LowerM Lowered.Stmt)}
    {calls : List (List Span)} (each : List.Forall₂ YieldsStmt steps calls) :
    Ensures (runEach steps) fun values => Lowered.Stmt.callsOfList values = calls.flatten := by
  refine (Ensures.runEach each).mono ?_
  intro values known
  clear each
  induction known with
  | nil => rfl
  | cons here _ there => rw [Lowered.Stmt.callsOfList, here, there, List.flatten_cons]

mutual

/-- **Lowering a statement keeps its calls**, but for those in receivers of static fields. -/
theorem Source.Stmt.ensures_lower (context : Context) (routine : Routine) : ∀ stmt : Source.Stmt,
    YieldsStmt (stmt.lower context routine) (stmt.callsBut (leavesReceiver context))
  | .eval _ expr => (expr.yields_lower context routine).bind fun _ known => .pure known
  | .localVar _ _ _ init =>
    (Source.Expr.yields_lowerOption context routine init).bind fun _ known => .pure known
  | .block _ body => by
    rw [callsBut, callsOfListBut_eq_flatten]
    refine (ensures_runEachStmt (Source.Stmt.ensures_lowerEach context routine body)).bind
      fun stmts known => .after fun _ => .pure known
  | .branch _ cond yes none =>
    (cond.yields_lower context routine).bind fun _ first =>
      (yes.ensures_lower context routine).bind fun _ second => .pure <| by
        show _ ++ _ ++ [] = _ ++ _
        rw [first, second, List.append_nil]
  | .branch _ cond yes (some no) =>
    (cond.yields_lower context routine).bind fun _ first =>
      (yes.ensures_lower context routine).bind fun _ second =>
        (no.ensures_lower context routine).bind fun _ third => .pure <| by
          show _ ++ _ ++ _ = _ ++ _ ++ _
          rw [first, second, third]
  | .whileLoop _ cond body =>
    (cond.yields_lower context routine).bind fun _ first =>
      (body.ensures_lower context routine).bind fun _ second => .pure <| by
        show _ ++ _ = _ ++ _
        rw [first, second]
  | .forLoop _ init cond update body => by
    have inits := ensures_runEachStmt (Source.Stmt.ensures_lowerEach context routine init)
    have updates := ensures_argList (Source.Expr.yields_lowerEach context routine update)
    rw [callsBut, callsOfListBut_eq_flatten, Source.Expr.callsOfListBut_eq_flatten]
    refine inits.bind fun _ first => .after fun _ => ?_
    refine (Source.Expr.yields_lowerOption context routine cond).bind ?_
    intro _ second
    refine updates.bind ?_
    intro _ third
    refine (body.ensures_lower context routine).bind fun _ fourth => .pure ?_
    show _ ++ _ ++ _ ++ _ = _
    rw [first, second, third, fourth]
  | .ret span none => .pure <| by
    show (implicitResult context span routine.mode).calls = []
    cases routine.mode <;> rfl
  | .ret _ (some value) => (value.yields_lower context routine).bind fun _ known => .pure known

theorem Source.Stmt.ensures_lowerEach (context : Context) (routine : Routine) :
    ∀ stmts : List Source.Stmt,
      List.Forall₂ YieldsStmt (Source.Stmt.lowerEach context routine stmts)
        (stmts.map (·.callsBut (leavesReceiver context)))
  | [] => .nil
  | stmt :: rest =>
    .cons (stmt.ensures_lower context routine) (Source.Stmt.ensures_lowerEach context routine rest)

end

/-- **Lowering keeps every call in its place exactly if no receiver of a static field runs one.** -/
theorem calls_lower_iff (context : Context) (routine : Routine) :
    (∀ (expr : Source.Expr) start lowered stop,
      (expr.lower context routine).run start = .ok (lowered, stop) →
        (lowered.calls = expr.calls ↔
          ∀ node ∈ expr.nodes, node.LosesNothing (leavesReceiver context))) ∧
    ∀ (stmt : Source.Stmt) start lowered stop,
      (stmt.lower context routine).run start = .ok (lowered, stop) →
        (lowered.calls = stmt.calls ↔
          ∀ node ∈ stmt.nodes, node.LosesNothing (leavesReceiver context)) := by
  refine ⟨fun expr start lowered stop done => ?_, fun stmt start lowered stop done => ?_⟩
  · rw [expr.yields_lower context routine start lowered stop done]
    exact (expr.kept_callsBut (leavesReceiver context)).whole
  · rw [stmt.ensures_lower context routine start lowered stop done]
    exact (stmt.kept_callsBut (leavesReceiver context)).whole

/-- A static field, read through the result of a call. -/
def Source.Expr.countOfMade : Source.Expr :=
  .field ⟨2, 7, 8⟩ (.call ⟨1, 6, 7⟩ none "make" []) "count"

/-- A class whose second method reads its static field through the result of the first. -/
def Source.SourceUnit.counter : Source.SourceUnit where
  path := "Counter"
  package := []
  imports := []
  classes := [
    { name := "Counter", parent := none, span := ⟨0, 1⟩
      fields := [
        { name := "count", type := .int, init := none, modifiers := { isStatic := true }
          span := ⟨1, 2⟩ }]
      methods := [
        { name := "make", params := [], ret := .class "Counter", modifiers := {}, span := ⟨5, 6⟩
          body := .block ⟨4, 5⟩ [.ret ⟨3, 4⟩ (some (.this ⟨0, 2, 3⟩))] },
        { name := "read", params := [], ret := .int, modifiers := {}, span := ⟨10, 11⟩
          body := .block ⟨9, 10⟩ [.ret ⟨8, 9⟩ (some .countOfMade)] }] }]
  nodes := #[.this ⟨0, 2, 3⟩, .call ⟨1, 6, 7⟩ none "make" [], .countOfMade]
  stmtCount := 4

/-- The method that reads, as it is lowered. -/
def Routine.read : Routine := ⟨"Counter", some ⟨"Counter", 1⟩, .instanceMethod, false⟩

/-- The call alone is kept. -/
theorem calls_lower_make :
    ∃ context lowered stop, (Program.ofUnits [.counter]).context? ⟨[]⟩ {} 0 = some context ∧
      ((Source.Expr.call ⟨1, 6, 7⟩ none "make" []).lower context .read).run 0 =
        .ok (lowered, stop) ∧
      lowered.calls = [⟨6, 7⟩] := by
  have runs : ((Program.ofUnits [.counter]).context? ⟨[]⟩ {} 0).map (fun context =>
      ((Source.Expr.call ⟨1, 6, 7⟩ none "make" []).lower context .read).run 0) =
      some (.ok (.virtualCall ⟨6, 7⟩ (.localVar ⟨6, 7⟩ "__this") "make_0"
        [.localVar ⟨6, 7⟩ "__this"], 0)) := by rfl
  obtain ⟨context, known, done⟩ := Option.map_eq_some_iff.mp runs
  refine ⟨context, _, _, known, done, ?_⟩
  refine ((calls_lower_iff context _).1 _ 0 _ 0 done).mpr ?_
  intro node inside
  rw [List.mem_singleton.mp inside]
  trivial

/-- The call of which a static field is read is lost. -/
theorem calls_lost_counter :
    .countOfMade ∈ Source.SourceUnit.counter.classes.flatMap (·.nodes) ∧
    ∃ context lowered stop, (Program.ofUnits [.counter]).context? ⟨[]⟩ {} 0 = some context ∧
      (Source.Expr.countOfMade.lower context .read).run 0 = .ok (lowered, stop) ∧
      lowered.calls = [] ∧ Source.Expr.countOfMade.calls = [⟨6, 7⟩] := by
  have runs : ((Program.ofUnits [.counter]).context? ⟨[]⟩ {} 0).map (fun context =>
      (Source.Expr.countOfMade.lower context .read).run 0) =
      some (.ok (.staticField ⟨7, 8⟩ "Counter" "count", 0)) := by rfl
  obtain ⟨context, known, done⟩ := Option.map_eq_some_iff.mp runs
  refine ⟨?_, context, _, _, known, done, rfl, rfl⟩
  exact List.mem_cons_of_mem _ List.mem_cons_self

end ObjectLowering
