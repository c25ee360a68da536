/-
**Lowering without null checks gives the erased trees.**

Whether null checks are made is asked in two places: before the length of an array is read, and
before a call through the vtable. Every other form is lowered from the erased trees of its parts,
with the same temporaries.

* `erases_virtualCall`: the receiver of a call through the vtable goes unchecked.
* `erases_lowerCall`, `erases_chainCall`, `erases_lowerNewObject`, `erases_memberAccess`: the forms.
* **`Source.Expr.erases_lower`**, **`Source.Stmt.erases_lower`**: the two runs on whole trees.
-/

import ObjectLowering.Lowering.Class
import ObjectLowering.Proofs.Checks.Erased

namespace ObjectLowering

namespace Lowering

open Lowered (Expr Stmt)

variable {context : Context}

/-! ### Calls -/

section Calls

variable {tag : Source.Tag} {method : Name} {receiver receivers : Option Part}
  {args others : List (LowerM Expr)} {site : CallSite}

theorem erases_receiverArgs (span : Span) {prepared : List Stmt × Operand}
    (ready : Ready context prepared) (passed : EachErases args others) :
    Erases Expr.uncheckedEach (fun args => args.length ≤ maxListLength ∧ Expr.AllShort args)
      (receiverArgs (context.withNullChecks true) span prepared.2 args)
      (receiverArgs (context.withNullChecks false) span prepared.2.unchecked others) :=
  erases_argList (.cons (ready.erases span) passed)

/-- The receivers are written alike, if they are. -/
theorem map_expr_of_erases (written : Option.Rel PartErases receiver receivers) :
    receiver.map (·.expr) = receivers.map (·.expr) := by
  cases written with
  | none => rfl
  | some part => exact congrArg some part.expr

theorem erases_printCall (passed : EachErases args others) :
    Erases Expr.unchecked Tidy (printCall ⟨tag, receiver, method, args⟩)
      (printCall ⟨tag, receivers, method, others⟩) :=
  (erases_argList passed).bind fun _ short => .pure ⟨short, rfl⟩ rfl

theorem erases_unresolvedCall (written : Option.Rel PartErases receiver receivers)
    (passed : EachErases args others) :
    Erases Expr.unchecked Tidy
      (unresolvedCall (context.withNullChecks true) ⟨tag, receiver, method, args⟩)
      (unresolvedCall (context.withNullChecks false) ⟨tag, receivers, method, others⟩) := by
  unfold unresolvedCall
  dsimp only
  rw [strict_withNullChecks, strict_withNullChecks]
  split
  · exact ⟨rfl, Ensures.bind .fail fun _ (never : False) => never.elim⟩
  · cases written with
    | none =>
      have absent : Erases Expr.unchecked Expr.Short (pure .absent) (pure .absent) :=
        .pure trivial rfl
      refine absent.bind fun object short => ?_
      exact (erases_argList passed).bind fun _ few => .pure ⟨⟨short, few⟩, rfl⟩ rfl
    | some part =>
      refine part.erases.bind fun object tidy => ?_
      exact (erases_argList passed).bind fun _ few => .pure ⟨⟨tidy.short, few⟩, rfl⟩ rfl

theorem erases_receiverEffect (written : Option.Rel PartErases receiver receivers) :
    Erases Stmt.withoutNullChecks (fun effect => Stmt.AllShort effect ∧ effect.length ≤ 1)
      (receiverEffect receiver) (receiverEffect receivers) := by
  cases written with
  | none => exact .pure ⟨trivial, Nat.zero_le 1⟩ rfl
  | some part =>
    unfold receiverEffect
    dsimp only
    rw [part.expr]
    split
    · exact .pure ⟨trivial, Nat.zero_le 1⟩ rfl
    · refine part.erases.bind fun value tidy => .pure ⟨⟨tidy.short, trivial⟩, Nat.le_refl 1⟩ ?_
      have kept : (Stmt.eval value).isNullCheck = false := tidy.isNullCheck
      rw [Stmt.withoutNullChecks, kept]
      rfl

theorem erases_staticCall (written : Option.Rel PartErases receiver receivers)
    (passed : EachErases args others) :
    Erases Expr.unchecked Tidy (staticCall ⟨tag, receiver, method, args⟩ site)
      (staticCall ⟨tag, receivers, method, others⟩ site) := by
  refine (erases_receiverEffect written).bind fun effect ⟨before, few⟩ => ?_
  refine (erases_argList passed).bind fun values short => ?_
  have called : Tidy (.qualifiedCall tag.span site.target.className site.mangled values) :=
    ⟨short, rfl⟩
  exact erases_blockExpr tag.span before called (.inl (Nat.le_trans few (by decide)))

theorem erases_receiverOperand (routine : Routine)
    (written : Option.Rel PartErases receiver receivers) :
    Erases uncheckedOperand (Ready context)
      (receiverOperand (context.withNullChecks true) routine ⟨tag, receiver, method, args⟩ site)
      (receiverOperand (context.withNullChecks false) routine ⟨tag, receivers, method, others⟩
        site) := by
  unfold receiverOperand
  cases written with
  | none =>
    dsimp only
    split
    · exact .pure ready_self rfl
    · exact .fail
  | some part => exact erases_operand part (.class routine.className)

theorem erases_directCall (routine : Routine) (written : Option.Rel PartErases receiver receivers)
    (passed : EachErases args others) :
    Erases Expr.unchecked Tidy
      (directCall (context.withNullChecks true) routine ⟨tag, receiver, method, args⟩ site)
      (directCall (context.withNullChecks false) routine ⟨tag, receivers, method, others⟩
        site) := by
  have isSuper := congrArg (Option.any (·.isSuper)) (map_expr_of_erases written)
  rw [Option.any_map, Option.any_map] at isSuper
  unfold directCall
  dsimp only
  rw [isSuper]
  split
  · exact (erases_receiverArgs tag.span ready_self passed).bind fun values short =>
      .pure ⟨short, rfl⟩ rfl
  · refine (erases_receiverOperand routine written).bind fun prepared ready => ?_
    refine (ready.erases tag.span).bind fun object tidy => ?_
    refine (erases_receiverArgs tag.span ready passed).bind fun values short => ?_
    have called : Tidy (.directCall tag.span object site.mangled values) :=
      ⟨⟨tidy.short, short⟩, rfl⟩
    exact erases_blockExpr tag.span ready.short called (.inl (Nat.le_trans ready.few (by decide)))

/-- **A call through the vtable loses the check of its receiver**, and nothing else. -/
theorem erases_virtualCall (routine : Routine) (written : Option.Rel PartErases receiver receivers)
    (passed : EachErases args others) :
    Erases Expr.unchecked Tidy
      (virtualCall (context.withNullChecks true) routine ⟨tag, receiver, method, args⟩ site)
      (virtualCall (context.withNullChecks false) routine ⟨tag, receivers, method, others⟩
        site) := by
  have slot : Erases id (fun _ => True) (virtualSlot context tag.span site)
      (virtualSlot context tag.span site) := .same fun _ _ _ _ => ⟨rfl, trivial⟩
  unfold virtualCall
  dsimp only
  rw [virtualSlot_withOptions, virtualSlot_withOptions]
  refine slot.bind fun slot _ => ?_
  refine (erases_receiverOperand routine written).bind fun prepared ready => ?_
  refine erases_checked tag.span ready fun check object checkShort few none tidy => ?_
  refine (erases_receiverArgs tag.span ready passed).bind fun values short => ?_
  have called : Tidy (.virtualCall tag.span object slot values) := ⟨⟨tidy.short, short⟩, rfl⟩
  have fits : (prepared.1 ++ check).length ≤ maxListLength := by
    have limit : 2 ≤ maxListLength := by decide
    have one := ready.few
    rw [List.length_append]
    omega
  have erases := erases_blockExpr tag.span (allShort_append ready.short checkShort) called
    (.inl fits)
  rw [withoutNullChecks_append, none] at erases
  exact erases

/-- **A call is erased with its parts.** -/
theorem erases_lowerCall (routine : Routine) (written : Option.Rel PartErases receiver receivers)
    (passed : EachErases args others) :
    Erases Expr.unchecked Tidy
      (lowerCall (context.withNullChecks true) routine ⟨tag, receiver, method, args⟩)
      (lowerCall (context.withNullChecks false) routine ⟨tag, receivers, method, others⟩) := by
  unfold lowerCall
  dsimp only
  rw [map_expr_of_erases written, isConsoleOutput_withOptions, isConsoleOutput_withOptions,
    sites_withOptions, sites_withOptions, facade_withOptions, facade_withOptions]
  split
  · exact erases_printCall passed
  · split
    · exact erases_unresolvedCall written passed
    · split
      · exact .fail
      · exact erases_staticCall written passed
      · exact erases_directCall routine written passed
      · exact erases_virtualCall routine written passed

end Calls

theorem erases_chainCall (routine : Routine) (span : Span) (target : ChainTarget)
    {args others : List (LowerM Expr)} (passed : EachErases args others) :
    Erases Expr.unchecked Tidy
      (chainCall (context.withNullChecks true) routine span target args)
      (chainCall (context.withNullChecks false) routine span target others) :=
  (erases_receiverArgs span ready_self passed).bind fun _ short => .pure ⟨short, rfl⟩ rfl

theorem erases_lowerNewObject (span : Span) (className : Name) {args others : List (LowerM Expr)}
    (passed : EachErases args others) :
    Erases Expr.unchecked Tidy (lowerNewObject span className args)
      (lowerNewObject span className others) := by
  have made : Erases Expr.unchecked Tidy (pure (.alloc span className) : LowerM Expr)
      (pure (.alloc span className)) := .pure ⟨trivial, rfl⟩ rfl
  exact (erases_argList (.cons made passed)).bind fun _ short => .pure ⟨short, rfl⟩ rfl

theorem erases_memberAccess (tag : Source.Tag) (name : Name) {receiver receivers : Part}
    (part : PartErases receiver receivers) :
    Erases Expr.unchecked Tidy (memberAccess (context.withNullChecks true) tag receiver name)
      (memberAccess (context.withNullChecks false) tag receivers name) := by
  unfold memberAccess
  rw [part.expr, staticOwner?_withOptions, staticOwner?_withOptions, facade_withOptions,
    facade_withOptions]
  split
  · exact .pure ⟨trivial, rfl⟩ rfl
  · split
    · exact erases_arrayLength part tag.span
    · exact part.erases.bind fun object tidy => .pure ⟨tidy.short, rfl⟩ rfl

/-- A bare identifier has nothing to erase. -/
theorem erases_identifier (tag : Source.Tag) (name : Name) :
    Erases Expr.unchecked Tidy (pure (identifier context tag name))
      (pure (identifier context tag name)) := by
  unfold identifier fieldRef
  split
  · split <;> exact .pure ⟨trivial, rfl⟩ rfl
  · exact .pure ⟨trivial, rfl⟩ rfl

end Lowering

open Lowering

variable {context : Context} {routine : Routine}

/-- A part of an expression lowers alike again if it is pure. -/
theorem Lowering.PartErases.of_lower {expr : Source.Expr}
    (erases : Erases Lowered.Expr.unchecked Tidy
      (expr.lower (context.withNullChecks true) routine)
      (expr.lower (context.withNullChecks false) routine)) :
    PartErases ⟨expr, expr.lower (context.withNullChecks true) routine⟩
      ⟨expr, expr.lower (context.withNullChecks false) routine⟩ :=
  ⟨rfl, erases, expr.steady_lower _ routine⟩

mutual

/-- **Without null checks an expression is lowered to the erased tree.** -/
theorem Source.Expr.erases_lower : ∀ expr : Source.Expr,
    Erases Lowered.Expr.unchecked Tidy (expr.lower (context.withNullChecks true) routine)
      (expr.lower (context.withNullChecks false) routine)
  | .int .. | .float .. | .bool .. | .char .. | .str .. | .null _ | .this _ | .super _ =>
    .pure ⟨trivial, rfl⟩ rfl
  | .ident tag name => erases_identifier tag name
  | .field tag receiver name => erases_memberAccess tag name (.of_lower receiver.erases_lower)
  | .call tag none method args =>
    erases_lowerCall routine .none (Source.Expr.erases_lowerEach args)
  | .call tag (some receiver) method args =>
    erases_lowerCall routine (.some (.of_lower receiver.erases_lower))
      (Source.Expr.erases_lowerEach args)
  | .chain tag target args =>
    erases_chainCall routine tag.span target (Source.Expr.erases_lowerEach args)
  | .newObject tag className args =>
    erases_lowerNewObject tag.span className (Source.Expr.erases_lowerEach args)
  | .newArray tag element dims extra =>
    erases_lowerNewArray tag.span element extra (Source.Expr.erases_lowerEach dims)
  | .index tag array position =>
    erases_readElement (.of_lower array.erases_lower) (.of_lower position.erases_lower) tag.span
  | .assign tag target value => by
    rw [lower.eq_def, lower.eq_def]
    dsimp only
    split
    · rename_i array position
      exact erases_store (.of_lower array.erases_lower) (.of_lower position.erases_lower)
        (.of_lower value.erases_lower) tag.span
    · exact target.erases_lower.bind fun _ left => value.erases_lower.bind fun _ right =>
        .pure ⟨⟨left.short, right.short⟩, rfl⟩ rfl
  | .binary tag op left right =>
    left.erases_lower.bind fun _ first => right.erases_lower.bind fun _ second =>
      .pure ⟨⟨first.short, second.short⟩, rfl⟩ rfl
  | .unary tag op operand => by
    rw [lower.eq_def, lower.eq_def]
    dsimp only
    split
    · rename_i array position _
      exact erases_updateElement (.of_lower array.erases_lower) (.of_lower position.erases_lower)
        tag.span op
    · rename_i inner _ _ _
      exact inner.erases_lower.bind fun _ tidy => .pure ⟨tidy.short, rfl⟩ rfl
  | .cast _ _ operand | .instanceOf _ operand _ =>
    operand.erases_lower.bind fun _ tidy => .pure ⟨tidy.short, rfl⟩ rfl

theorem Source.Expr.erases_lowerEach : ∀ exprs : List Source.Expr,
    EachErases (Source.Expr.lowerEach (context.withNullChecks true) routine exprs)
      (Source.Expr.lowerEach (context.withNullChecks false) routine exprs)
  | [] => .nil
  | expr :: rest => .cons expr.erases_lower (Source.Expr.erases_lowerEach rest)

end

theorem Source.Expr.erases_lowerOption (expr : Option Source.Expr) :
    Erases Lowered.Expr.unchecked Lowered.Expr.Short
      (Source.Expr.lowerOption (context.withNullChecks true) routine expr)
      (Source.Expr.lowerOption (context.withNullChecks false) routine expr) := by
  cases expr with
  | none => exact .pure trivial rfl
  | some expr => exact expr.erases_lower.mono fun _ tidy => tidy.short

/-- What a bare `return` hands back has nothing to erase. -/
theorem Lowering.unchecked_implicitResult (context : Context) (span : Span) (mode : Mode) :
    (implicitResult context span mode).Short ∧
      (implicitResult context span mode).unchecked = implicitResult context span mode := by
  cases mode <;> exact ⟨trivial, rfl⟩

/-- Statements of a list that is numbered as it stands. -/
theorem Lowering.erases_blockStmt {stmts : List Lowered.Stmt}
    (short : ∀ stmt ∈ stmts, stmt.Short) :
    Erases Lowered.Stmt.unchecked Lowered.Stmt.Short (blockStmt stmts)
      (blockStmt (stmts.map (·.unchecked))) := by
  refine (Erases.checkLength _ (List.length_map _)).bind fun _ few => .pure ?_ ?_
  · exact ⟨few, Lowered.Stmt.allShort_iff.mpr short⟩
  · rw [Lowered.Stmt.unchecked, Lowered.Stmt.uncheckedEach_eq_map]

mutual

/-- **Without null checks a statement is lowered to the erased tree.** -/
theorem Source.Stmt.erases_lower : ∀ stmt : Source.Stmt,
    Erases Lowered.Stmt.unchecked Lowered.Stmt.Short
      (stmt.lower (context.withNullChecks true) routine)
      (stmt.lower (context.withNullChecks false) routine)
  | .eval _ expr => expr.erases_lower.bind fun _ tidy => .pure tidy.short rfl
  | .localVar _ _ _ init =>
    (Source.Expr.erases_lowerOption init).bind fun _ short => .pure short rfl
  | .block _ body => (Erases.runEach (Source.Stmt.erases_lowerEach body)).bind fun _ short =>
    erases_blockStmt short
  | .branch _ cond yes none =>
    cond.erases_lower.bind fun _ test => yes.erases_lower.bind fun _ first =>
      .pure ⟨test.short, first, trivial⟩ rfl
  | .branch _ cond yes (some no) =>
    cond.erases_lower.bind fun _ test => yes.erases_lower.bind fun _ first =>
      no.erases_lower.bind fun _ second => .pure ⟨test.short, first, second⟩ rfl
  | .whileLoop _ cond body =>
    cond.erases_lower.bind fun _ test => body.erases_lower.bind fun _ below =>
      .pure ⟨test.short, below⟩ rfl
  | .forLoop _ init cond update body => by
    refine (Erases.runEach (Source.Stmt.erases_lowerEach init)).bind fun first inits => ?_
    refine (Erases.checkLength _ (List.length_map _)).bind fun _ few => ?_
    refine (Source.Expr.erases_lowerOption cond).bind fun test short => ?_
    refine (erases_argList (Source.Expr.erases_lowerEach update)).bind fun second updates => ?_
    refine body.erases_lower.bind fun below last => .pure ?_ ?_
    · exact ⟨⟨few, Lowered.Stmt.allShort_iff.mpr inits⟩, short, updates, last⟩
    · rw [Lowered.Stmt.unchecked, Lowered.Stmt.uncheckedEach_eq_map]
  | .ret span none => by
    obtain ⟨short, fixed⟩ := unchecked_implicitResult context span routine.mode
    exact .pure short (congrArg Lowered.Stmt.ret fixed.symm)
  | .ret _ (some value) => value.erases_lower.bind fun _ tidy => .pure tidy.short rfl

theorem Source.Stmt.erases_lowerEach : ∀ stmts : List Source.Stmt,
    List.Forall₂ (Erases Lowered.Stmt.unchecked Lowered.Stmt.Short)
      (Source.Stmt.lowerEach (context.withNullChecks true) routine stmts)
      (Source.Stmt.lowerEach (context.withNullChecks false) routine stmts)
  | [] => .nil
  | stmt :: rest => .cons stmt.erases_lower (Source.Stmt.erases_lowerEach rest)

end

end ObjectLowering
