/-
**Building calls mirrors lowering them.**

The receiver that a call goes through and the receiver among its arguments come from one operand,
but each use of it makes a node of its own, and the call takes both.

* `CallParts.Matches`: the parts of a call build what the other ones lower.
* `mirrors_call`: calls of every way; `mirrors_chainCall`, `mirrors_newObject`: construction.
-/

import ObjectLowering.Proofs.Building.Forms

namespace ObjectLowering.Building

open Lowered
open Lowered.Assertion (Entails known)
open Lowering (Context)

variable {context : Context} {routine : Routine} {span : Span}

/-- Steps build what the other ones lower, one by one. -/
abbrev EachMatches (steps : List (BuildM NodeId)) (lowers : List (LowerM Lowered.Expr)) : Prop :=
  List.Forall₂ (fun step lower => Mirrors 0 step lower exprAt) steps lowers

theorem mirrors_argList {steps : List (BuildM NodeId)} {lowers : List (LowerM Lowered.Expr)}
    (mirrors : EachMatches steps lowers) :
    Mirrors 0 (argList steps) (Lowering.argList lowers) argsAt := by
  refine (Mirrors.runEach mirrors).seq fun ids trees => ?_
  rw [← bind_pure (liftM (addExprs ids) : BuildM Window)]
  refine mirrors_addExprs.step 0 (.refl _) fun window _ => .pure (.of_eq (add_zero _))

/-- Arguments behind a receiver are at least one. -/
theorem mirrors_receiverArgs {first : BuildM NodeId} {lower : LowerM Lowered.Expr}
    (receiver : Mirrors 0 first lower exprAt) {steps : List (BuildM NodeId)}
    {lowers : List (LowerM Lowered.Expr)} (mirrors : EachMatches steps lowers) :
    Mirrors 0 (argList (first :: steps)) (Lowering.argList (lower :: lowers))
      fun window trees => argsAt window trees + known (∃ tree others, trees = tree :: others) := by
  unfold argList Lowering.argList
  rw [Lowering.runEach, Lowering.runEach, bind_assoc, bind_assoc]
  refine receiver.seq fun id tree => ?_
  rw [bind_assoc, bind_assoc]
  refine (Mirrors.runEach mirrors).seq fun ids trees => ?_
  rw [pure_bind, pure_bind, ← bind_pure (liftM (addExprs (id :: ids)) : BuildM Window)]
  refine mirrors_addExprs.step 0 (.of_eq ?_) fun window _ => .pure ?_
  · show _ = exprAt id tree + each exprAt ids trees + 0
    abel
  · exact .trans (.of_eq (add_zero _)) (.add_known ⟨tree, trees, rfl⟩ _)

/-! ### Parts of a call -/

/-- The parts of a call build what the other ones lower. -/
structure CallParts.Matches (call : CallParts) (other : Lowering.CallParts) : Prop where
  tag : call.tag = other.tag
  method : call.method = other.method
  receiver : Option.Rel Part.Matches call.receiver other.receiver
  args : EachMatches call.args other.args

variable {call : CallParts} {other : Lowering.CallParts}

/-- Operands that may stop with an error of the program. -/
theorem mirrors_receiverOperand (same : call.Matches other) (site : CallSite) :
    Mirrors 0 (receiverOperand context routine call site)
      (Lowering.receiverOperand context routine other site) operandAt := by
  unfold receiverOperand Lowering.receiverOperand
  rw [same.tag]
  cases call with | mk tag receiver method args =>
  cases other with | mk tag' receiver' method' args' =>
  cases same.receiver with
  | none =>
    dsimp only
    split
    · exact .pure (entails_operandAt .self)
    · exact .fail
  | some part => exact mirrors_operand part _

theorem mirrors_printCall (same : call.Matches other) :
    Mirrors 0 (printCall call) (Lowering.printCall other) exprAt := by
  unfold printCall Lowering.printCall
  rw [same.tag, same.method]
  refine (mirrors_argList same.args).seq fun window trees => ?_
  exact .last makes_print (.of_eq (add_zero _)) fun _ => .refl _

theorem mirrors_virtualSlot (site : CallSite) :
    Mirrors 0 (virtualSlot context span site) (Lowering.virtualSlot context span site)
      fun name slot => known (name = slot) := by
  unfold virtualSlot Lowering.virtualSlot
  cases context.facade.method site.target with
  | none => exact .fail
  | some info =>
    dsimp only
    cases context.facts.vtables.slotFor? site.target.className info.name info.params with
    | none => exact .fail
    | some slot => exact .pure (Entails.known_of rfl)

/-! ### Calls of every way -/

theorem mirrors_unresolvedCall (same : call.Matches other) :
    Mirrors 0 (unresolvedCall context call) (Lowering.unresolvedCall context other) exprAt := by
  unfold unresolvedCall Lowering.unresolvedCall
  rw [same.tag, same.method]
  have others {id : NodeId} {tree : Lowered.Expr} : Mirrors (optionAt id tree)
      (do
        let args ← argList call.args
        addExpr other.tag.span (.unresolvedCall id other.method args))
      (do
        let args ← Lowering.argList other.args
        return .unresolvedCall other.tag.span tree other.method args) exprAt := by
    refine (mirrors_argList same.args).seq fun window trees => ?_
    exact .last makes_unresolvedCall (.of_eq (add_comm ..)) fun _ => .refl _
  by_cases strict : context.options.strict = true
  · rw [if_pos strict, if_pos strict]
    exact fun _ => .fail
  · rw [if_neg strict, if_neg strict]
    cases call with | mk tag receiver method args =>
    cases other with | mk tag' receiver' method' args' =>
    cases same.receiver with
    | none => exact others.entails entails_optionAt_absent
    | some part =>
      refine part.mirrors.seq fun id tree => others.entails ?_
      rw [add_zero]
      exact exprAt_entails_optionAt id tree

theorem mirrors_receiverEffect {part : Option Part} {source : Option Lowering.Part}
    (same : Option.Rel Part.Matches part source) :
    Mirrors 0 (receiverEffect part) (Lowering.receiverEffect source) stmtsAt := by
  cases same with
  | none => exact .pure (.refl 0)
  | some same =>
    unfold receiverEffect Lowering.receiverEffect
    dsimp only
    rw [same.expr]
    split
    · exact .pure (.refl 0)
    · refine same.mirrors.seq fun value tree => ?_
      refine .make 0 makes_eval (.refl _) fun stmt => ?_
      rw [add_zero, ← stmtsAt_singleton stmt]
      exact .pure (.refl _)

theorem mirrors_staticCall (same : call.Matches other) (site : CallSite) :
    Mirrors 0 (staticCall call site) (Lowering.staticCall other site) exprAt := by
  unfold staticCall Lowering.staticCall
  rw [same.tag]
  refine (mirrors_receiverEffect same.receiver).seq fun effect stmts => ?_
  refine (mirrors_argList same.args).seq fun window trees => ?_
  refine .make (stmtsAt effect stmts) makes_qualifiedCall (.of_eq (by abel)) fun made => ?_
  exact mirrors_blockExpr.entails (.of_eq (add_comm ..))

/-- The receiver that a call goes through and the one among its arguments come from one operand. -/
theorem mirrors_directCall (same : call.Matches other) (site : CallSite) :
    Mirrors 0 (directCall context routine call site)
      (Lowering.directCall context routine other site) exprAt := by
  unfold directCall Lowering.directCall
  have viaSuper : call.receiver.any (·.expr.isSuper) = other.receiver.any (·.expr.isSuper) := by
    cases call with | mk tag receiver method args =>
    cases other with | mk tag' receiver' method' args' =>
    cases same.receiver with
    | none => rfl
    | some part => exact congrArg Source.Expr.isSuper part.expr
  rw [same.tag, viaSuper]
  dsimp only
  by_cases isSuper : other.receiver.any (·.expr.isSuper) = true
  · rw [if_pos isSuper, if_pos isSuper]
    refine (mirrors_receiverArgs (mirrors_use .self) same.args).seq fun window trees => ?_
    rw [add_zero, ← add_zero (known _), ← add_assoc]
    refine .known fun _ => ?_
    exact .last makes_qualifiedCall (.of_eq (add_zero _)) fun _ => .refl _
  · rw [if_neg isSuper, if_neg isSuper]
    refine (mirrors_receiverOperand same site).seq ?_
    rintro ⟨decl, receiver⟩ ⟨stmts, reuse⟩
    refine .known fun sameReceiver => ?_
    refine (mirrors_use sameReceiver).seq fun through tree => ?_
    refine (mirrors_receiverArgs (mirrors_use sameReceiver) same.args).seq fun window trees => ?_
    refine .known fun ⟨first, others, nonempty⟩ => ?_
    cases nonempty
    refine .make (stmtsAt decl stmts) makes_directCall (.of_eq (by dsimp only; abel)) fun made => ?_
    exact mirrors_blockExpr.entails (.of_eq (add_comm ..))

/-- **A call through a vtable**: behind the check of its receiver. -/
theorem mirrors_virtualCall (same : call.Matches other) (site : CallSite) :
    Mirrors 0 (virtualCall context routine call site)
      (Lowering.virtualCall context routine other site) exprAt := by
  unfold virtualCall Lowering.virtualCall
  rw [same.tag]
  refine (mirrors_virtualSlot site).seq fun slot _ => ?_
  rw [← zero_add (known _)]
  refine .known fun sameSlot => ?_
  cases sameSlot
  refine (mirrors_receiverOperand same site).seq ?_
  rintro ⟨decl, receiver⟩ ⟨stmts, reuse⟩
  refine .known fun sameReceiver => ?_
  refine (mirrors_nullCheck sameReceiver).seq fun check checked => ?_
  refine (mirrors_use sameReceiver).seq fun through tree => ?_
  refine (mirrors_receiverArgs (mirrors_use sameReceiver) same.args).seq fun window trees => ?_
  refine .known fun ⟨first, others, nonempty⟩ => ?_
  cases nonempty
  refine .make (stmtsAt check checked + stmtsAt decl stmts) makes_virtualCall
    (.of_eq (by dsimp only; abel)) fun made => ?_
  refine .of_fact (fun _ fact => length_eq_of_each fact.2.2) fun sameDecl =>
    mirrors_blockExpr.entails (.of_eq ?_)
  rw [stmtsAt_append sameDecl]
  abel

/-- **Calls are built as they are lowered**, whatever the way to their target. -/
theorem mirrors_call (same : call.Matches other) :
    Mirrors 0 (buildCall context routine call) (Lowering.lowerCall context routine other)
      exprAt := by
  unfold buildCall Lowering.lowerCall
  have receiver : call.receiver.map (·.expr) = other.receiver.map (·.expr) := by
    cases call with | mk tag receiver method args =>
    cases other with | mk tag' receiver' method' args' =>
    cases same.receiver with
    | none => rfl
    | some part => exact congrArg some part.expr
  rw [same.tag, same.method, receiver]
  split
  · exact mirrors_printCall same
  · cases context.sites.get? other.tag.id with
    | none => exact mirrors_unresolvedCall same
    | some site =>
      dsimp only
      cases context.facade.dispatch other.tag.id with
      | none => exact .fail
      | some kind =>
        cases kind with
        | static => exact mirrors_staticCall same site
        | direct => exact mirrors_directCall same site
        | «virtual» => exact mirrors_virtualCall same site

/-! ### Construction -/

variable {steps : List (BuildM NodeId)} {lowers : List (LowerM Lowered.Expr)}

theorem mirrors_chainCall (target : ChainTarget) (mirrors : EachMatches steps lowers) :
    Mirrors 0 (chainCall context routine span target steps)
      (Lowering.chainCall context routine span target lowers) exprAt := by
  refine (mirrors_receiverArgs (mirrors_use .self) mirrors).seq fun window trees => ?_
  refine .known fun ⟨first, others, nonempty⟩ => ?_
  cases nonempty
  exact .last makes_initCall (.of_eq (add_zero _)) fun _ => .refl _

theorem mirrors_newObject (className : Name) (mirrors : EachMatches steps lowers) :
    Mirrors 0 (buildNewObject span className steps)
      (Lowering.lowerNewObject span className lowers) exprAt := by
  have object : Mirrors 0 (liftM (addExpr span (.alloc className)))
      (pure (.alloc span className)) exprAt :=
    .last (makes_alloc span className) (.refl 0) fun _ => .refl _
  refine (mirrors_receiverArgs object mirrors).seq fun window trees => ?_
  refine .known fun ⟨first, others, nonempty⟩ => ?_
  cases nonempty
  exact .last makes_initCall (.of_eq (add_zero _)) fun _ => .refl _

end ObjectLowering.Building
