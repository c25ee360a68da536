/-
**A step that checks against `null`, beside the same step that does not.**

The unchecked step comes out as the checked one, with the null checks erased from its result. Both
count temporaries alike and fail alike, since a null check takes no temporary and only reads a value
that is read again right behind it. Along the way every list of a result is seen to be short.

* `Lowering.Erases`: one step beside the other.
* `Lowering.Ready`: what preparing an operand gives, and what using it gives.
* `erases_checked`: a null check in front of a use comes to nothing.
* `erases_blockExpr`: a block is erased with its statements.
* `erases_slot`, `erases_store`, `erases_lowerNewArray`, `erases_arrayLength`: arrays.
-/

import ObjectLowering.Proofs.Checks.Unchecked
import ObjectLowering.Proofs.Lowering.PureOperands

namespace ObjectLowering.Lowering

open Lowered (Expr Stmt)

/-! ### Two runs -/

/-- The unchecked step comes out as the checked one, with its result changed; the results of the
checked one have the property. -/
structure Erases {α β : Type} (change : α → β) (known : α → Prop) (checked : LowerM α)
    (unchecked : LowerM β) : Prop where
  follows : unchecked = change <$> checked
  ensures : Ensures checked known

namespace Erases

variable {α β γ δ : Type} {change : α → β} {after : γ → δ} {known : α → Prop} {result : γ → Prop}
  {checked : LowerM α} {unchecked : LowerM β} {next : α → LowerM γ} {other : β → LowerM δ}

theorem pure {value : α} {erased : β} (holds : known value) (same : erased = change value) :
    Erases change known (pure value) (pure erased) :=
  ⟨by rw [same, map_pure], .pure holds⟩

theorem bind (first : Erases change known checked unchecked)
    (second : ∀ value, known value → Erases after result (next value) (other (change value))) :
    Erases after result (checked >>= next) (unchecked >>= other) := by
  refine ⟨funext fun start => ?_,
    first.ensures.bind fun value holds => (second value holds).ensures⟩
  show (unchecked >>= other).run start = (after <$> (checked >>= next)).run start
  rw [first.follows, bind_map_left, map_bind, StateT.run_bind, StateT.run_bind]
  cases here : checked.run start with
  | error failure => rfl
  | ok reached =>
    have holds := first.ensures start reached.1 reached.2 here
    exact congrArg (fun step : LowerM δ => step.run reached.2) (second reached.1 holds).follows

theorem fail {error : LoweringError} : Erases change known (fail error) (fail error) :=
  ⟨rfl, .fail⟩

/-- A step that comes out alike in both runs. -/
theorem same {change : α → α}
    (fixed : Ensures checked fun value => change value = value ∧ known value) :
    Erases change known checked checked := by
  refine ⟨funext fun start => ?_, fixed.mono fun _ => And.right⟩
  show checked.run start = (change <$> checked).run start
  rw [StateT.run_map]
  cases here : checked.run start with
  | error failure => rfl
  | ok reached =>
    have alike := (fixed start reached.1 reached.2 here).1
    exact congrArg (fun value => Except.ok (value, reached.2)) alike.symm

theorem mono {weaker : α → Prop} (erases : Erases change known checked unchecked)
    (implies : ∀ value, known value → weaker value) : Erases change weaker checked unchecked :=
  ⟨erases.follows, erases.ensures.mono implies⟩

theorem checkLength {ι κ : Type} (kind : NodeKind) {items : List ι} {others : List κ}
    (same : others.length = items.length) :
    Erases id (fun _ => items.length ≤ maxListLength) (checkLength kind items)
      (checkLength kind others) := by
  refine ⟨?_, fun start value stop done => ?_⟩
  · unfold Lowering.checkLength
    rw [same, id_map]
  · unfold Lowering.checkLength checkListLength at done
    split at done
    · rename_i passed
      split at passed
      · assumption
      · cases passed
    · cases done

theorem runEach {checks unchecks : List (LowerM α)} {change : α → α}
    (each : List.Forall₂ (Erases change known) checks unchecks) :
    Erases (List.map change) (fun values => ∀ value ∈ values, known value) (runEach checks)
      (runEach unchecks) := by
  induction each with
  | nil => exact pure (fun _ member => nomatch member) rfl
  | cons first _ others =>
    refine first.bind fun value here => others.bind fun rest there => .pure ?_ rfl
    exact List.forall_mem_cons.mpr ⟨here, there⟩

theorem inRoutine (erases : Erases change known checked unchecked) :
    inRoutine unchecked = change <$> inRoutine checked ∧
      ∀ value, inRoutine checked = .ok value → known value := by
  refine ⟨?_, fun value done => erases.ensures.of_inRoutine done⟩
  show (·.1) <$> unchecked.run 0 = change <$> (·.1) <$> checked.run 0
  rw [erases.follows, StateT.run_map]
  cases checked.run 0 <;> rfl

end Erases

/-- The context with null checks asked for, or not. -/
abbrev Context.withNullChecks (context : Context) (nullChecks : Bool) : Context :=
  context.withOptions { context.options with nullChecks }

variable {context : Context}

theorem arrayChecks_withNullChecks (nullChecks : Bool) :
    (context.withNullChecks nullChecks).options.arrayChecks = context.options.arrayChecks := rfl

theorem strict_withNullChecks (nullChecks : Bool) :
    (context.withNullChecks nullChecks).options.strict = context.options.strict := rfl

/-- What a lowered expression is: its lists are short, and it is no null check itself. -/
structure Tidy (expr : Expr) : Prop where
  short : expr.Short
  isNullCheck : expr.isNullCheck = false

/-! ### Values behind statements -/

theorem tidy_behind {span : Span} {stmts : List Stmt} {result : Expr} (tidy : Tidy result)
    (few : stmts.length ≤ maxListLength) (before : Stmt.AllShort stmts) :
    Tidy (behind span stmts result) := by
  refine ⟨Lowered.short_behind few before tidy.short, ?_⟩
  unfold behind
  split
  · exact tidy.isNullCheck
  · rfl

theorem unchecked_behind (span : Span) (stmts : List Stmt) (result : Expr) :
    (behind span stmts result).unchecked =
      behind span (Stmt.withoutNullChecks stmts) result.unchecked := by
  unfold behind
  split
  · rename_i none
    rw [List.isEmpty_iff.mp none]
    rfl
  · rw [Expr.unchecked]
    rfl

/-- A list within the limit makes a block, or no block. -/
theorem blockExpr_of_short (span : Span) {stmts : List Stmt} (few : stmts.length ≤ maxListLength)
    (result : Expr) : blockExpr span stmts result = pure (behind span stmts result) := by
  unfold blockExpr behind
  split
  · rfl
  · unfold Lowering.checkLength checkListLength
    rw [if_pos few]
    rfl

/-- **A block is erased with its statements**, if it is short or has no null check. -/
theorem erases_blockExpr (span : Span) {stmts : List Stmt} {result : Expr}
    (before : Stmt.AllShort stmts) (tidy : Tidy result)
    (fits : stmts.length ≤ maxListLength ∨ ∀ stmt ∈ stmts, stmt.isNullCheck = false) :
    Erases Expr.unchecked Tidy (blockExpr span stmts result)
      (blockExpr span (Stmt.withoutNullChecks stmts) result.unchecked) := by
  by_cases few : stmts.length ≤ maxListLength
  · have fewer := Nat.le_trans (Stmt.length_withoutNullChecks_le stmts) few
    rw [blockExpr_of_short span few, blockExpr_of_short span fewer]
    exact .pure (tidy_behind tidy few before) (unchecked_behind span stmts result).symm
  · -- Without a null check the list is refused in both runs.
    have none := fits.resolve_left few
    have count : (Stmt.withoutNullChecks stmts).length = stmts.length := by
      rw [Stmt.withoutNullChecks_eq_map, List.length_map,
        List.filter_eq_self.mpr fun stmt inside => by rw [none stmt inside]; rfl]
    have isEmpty : (Stmt.withoutNullChecks stmts).isEmpty = stmts.isEmpty := by
      rw [Bool.eq_iff_iff, List.isEmpty_iff_length_eq_zero, List.isEmpty_iff_length_eq_zero, count]
    unfold blockExpr
    rw [isEmpty]
    split
    · exact .pure tidy rfl
    · rename_i filled
      refine (Erases.checkLength _ count).bind fun _ holds =>
        .pure ⟨⟨holds, before, tidy.short⟩, rfl⟩ ?_
      rw [Expr.unchecked, behind, isEmpty, if_neg filled]

@[simp]
theorem withoutNullChecks_append (stmts others : List Stmt) :
    Stmt.withoutNullChecks (stmts ++ others) =
      Stmt.withoutNullChecks stmts ++ Stmt.withoutNullChecks others := by
  simp only [Stmt.withoutNullChecks_eq_map, List.filter_append, List.map_append]

theorem allShort_append {stmts others : List Stmt} (first : Stmt.AllShort stmts)
    (second : Stmt.AllShort others) : Stmt.AllShort (stmts ++ others) :=
  Stmt.allShort_iff.mpr <|
    List.forall_mem_append.mpr ⟨Stmt.allShort_iff.mp first, Stmt.allShort_iff.mp second⟩

/-- A temporary is declared with the erased value. -/
theorem erases_bindTemp (type : Ty) {value : Expr} (short : value.Short) :
    Erases (fun bound => (bound.1.unchecked, bound.2))
      (fun bound => bound.1.Short ∧ bound.1.isNullCheck = false)
      (bindTemp type value) (bindTemp type value.unchecked) := by
  have fresh : Erases id (fun _ => True) freshTemp freshTemp :=
    .same fun _ _ _ _ => ⟨rfl, trivial⟩
  exact fresh.bind fun name _ => .pure ⟨short, rfl⟩ rfl

/-- Lists of steps that are erased pair by pair. -/
abbrev EachErases : List (LowerM Expr) → List (LowerM Expr) → Prop :=
  List.Forall₂ (Erases Expr.unchecked Tidy)

theorem erases_argList {checks unchecks : List (LowerM Expr)} (each : EachErases checks unchecks) :
    Erases Expr.uncheckedEach (fun args => args.length ≤ maxListLength ∧ Expr.AllShort args)
      (argList checks) (argList unchecks) := by
  refine (Erases.runEach each).bind fun values tidy => ?_
  refine (Erases.checkLength _ (List.length_map _)).bind fun _ few => .pure ?_ ?_
  · exact ⟨few, Expr.allShort_iff.mpr fun value inside => (tidy value inside).short⟩
  · exact (Expr.uncheckedEach_eq_map values).symm

/-! ### Operands -/

/-- The same expression with the steps that lower it in both runs; a pure one lowers alike again. -/
structure PartErases (checked unchecked : Part) : Prop where
  expr : checked.expr = unchecked.expr
  erases : Erases Expr.unchecked Tidy checked.lower unchecked.lower
  steady : checked.expr.isPure = true → Steady checked.lower

/-- The operand with erased uses. -/
def Operand.unchecked : Operand → Operand
  | .reread lower => .reread (Expr.unchecked <$> lower)
  | .temp name => .temp name
  | .self => .self

/-- The operand with erased uses, behind erased statements. -/
def uncheckedOperand (prepared : List Stmt × Operand) : List Stmt × Operand :=
  (Stmt.withoutNullChecks prepared.1, prepared.2.unchecked)

/-- An operand is prepared by one statement at most. It can be used again and again, and what its
uses give is tidy. -/
structure Ready (context : Context) (prepared : List Stmt × Operand) : Prop where
  short : Stmt.AllShort prepared.1
  few : prepared.1.length ≤ 1
  uses : ∀ span, Ensures (prepared.2.use context span) Tidy
  steady : ∀ lower, prepared.2 = .reread lower → Steady lower

theorem ready_self : Ready context ([], .self) :=
  ⟨trivial, Nat.zero_le 1, fun _ => .pure ⟨trivial, rfl⟩, fun _ other => nomatch other⟩

theorem Ready.erases {prepared : List Stmt × Operand} (ready : Ready context prepared)
    (span : Span) : Erases Expr.unchecked Tidy
      (prepared.2.use (context.withNullChecks true) span)
      (prepared.2.unchecked.use (context.withNullChecks false) span) := by
  obtain ⟨stmts, use⟩ := prepared
  have uses := ready.uses span
  cases use with
  | reread lower => exact ⟨rfl, uses⟩
  | temp name => exact .pure ⟨trivial, rfl⟩ rfl
  | self => exact .pure ⟨trivial, rfl⟩ rfl

section Prepared

variable {checked unchecked : Part} (part : PartErases checked unchecked) (fallback : Ty)

include part

theorem erases_readOnce : Erases uncheckedOperand (Ready context)
    (readOnce (context.withNullChecks true) checked fallback)
    (readOnce (context.withNullChecks false) unchecked fallback) := by
  unfold readOnce
  rw [part.expr]
  split
  · exact .pure ready_self rfl
  · refine part.erases.bind fun value tidy => ?_
    refine (erases_bindTemp _ tidy.short).bind fun bound ⟨short, isDecl⟩ => .pure ?_ ?_
    · exact ⟨⟨short, trivial⟩, Nat.le_refl 1, fun _ => .pure ⟨trivial, rfl⟩,
        fun _ other => nomatch other⟩
    · simp [uncheckedOperand, Operand.unchecked, Stmt.withoutNullChecks, isDecl]

theorem erases_operand : Erases uncheckedOperand (Ready context)
    (operand (context.withNullChecks true) checked fallback)
    (operand (context.withNullChecks false) unchecked fallback) := by
  unfold operand
  rw [part.expr]
  split
  · rename_i pure
    rw [Bool.and_eq_true, ← part.expr] at pure
    refine .pure ⟨trivial, Nat.zero_le 1, fun _ => part.erases.ensures, ?_⟩ ?_
    · rintro lower ⟨⟩
      exact part.steady pure.1
    · rw [part.erases.follows]
      rfl
  · exact erases_readOnce part fallback

theorem erases_operandBefore (later : Source.Expr) : Erases uncheckedOperand (Ready context)
    (operandBefore (context.withNullChecks true) checked fallback later)
    (operandBefore (context.withNullChecks false) unchecked fallback later) := by
  unfold operandBefore
  rw [part.expr]
  split
  · exact erases_operand part fallback
  · exact erases_readOnce part fallback

end Prepared

/-- A step that comes out alike from every count need not run twice. -/
theorem steady_twice {α β : Type} {step : LowerM α} (steady : Steady step)
    (next : α → α → LowerM β) :
    (step >>= fun first => step >>= next first) = step >>= fun value => next value value := by
  obtain ⟨outcome, runs⟩ := steady
  funext start
  show (step >>= fun first => step >>= next first).run start =
    (step >>= fun value => next value value).run start
  rw [StateT.run_bind, StateT.run_bind, runs]
  cases outcome with
  | error failure => rfl
  | ok value =>
    show (step >>= next value).run start = _
    rw [StateT.run_bind, runs]
    rfl

/-- **A null check in front of a use comes to nothing**: the use behind it gives the same again. -/
theorem erases_checked {γ δ : Type} {after : γ → δ} {result : γ → Prop} (span : Span)
    {prepared : List Stmt × Operand} (ready : Ready context prepared)
    {next : List Stmt → Expr → LowerM γ} {other : List Stmt → Expr → LowerM δ}
    (rest : ∀ check value, Stmt.AllShort check → check.length ≤ 1 →
      Stmt.withoutNullChecks check = [] → Tidy value →
      Erases after result (next check value) (other [] value.unchecked)) :
    Erases after result
      (nullCheck (context.withNullChecks true) span prepared.2 >>= fun check =>
        prepared.2.use (context.withNullChecks true) span >>= next check)
      (nullCheck (context.withNullChecks false) span prepared.2.unchecked >>= fun check =>
        prepared.2.unchecked.use (context.withNullChecks false) span >>= other check) := by
  have without : nullCheck (context.withNullChecks false) span prepared.2.unchecked = pure [] := rfl
  rw [without, pure_bind]
  cases isSelf : prepared.2.isSelf with
  | true =>
    have skipped : nullCheck (context.withNullChecks true) span prepared.2 = pure [] := by
      unfold nullCheck
      rw [isSelf, Bool.or_true]
      rfl
    rw [skipped, pure_bind]
    exact (ready.erases span).bind fun value tidy => rest [] value trivial (Nat.zero_le 1) rfl tidy
  | false =>
    have checks : nullCheck (context.withNullChecks true) span prepared.2 =
        prepared.2.use (context.withNullChecks true) span >>= fun value =>
          pure [checkStmt span .notNull [value]] := by
      unfold nullCheck
      rw [isSelf]
      rfl
    have steady : Steady (prepared.2.use (context.withNullChecks true) span) :=
      steady_use span ready.steady
    rw [checks, bind_assoc]
    simp only [pure_bind]
    rw [steady_twice steady fun value => next [checkStmt span .notNull [value]]]
    refine (ready.erases span).bind fun value tidy => ?_
    have one : 1 ≤ maxListLength := by decide
    exact rest _ value ⟨⟨one, tidy.short, trivial⟩, trivial⟩ (Nat.le_refl 1) rfl tidy

/-! ### Arrays -/

/-- Filling the levels of an array needs no null check. -/
theorem erases_fillLevels (span : Span) (leaf : Ty) (size : Name) (names : List Name) :
    Erases (fun levels => (Stmt.withoutNullChecks levels.1, levels.2.unchecked))
      (fun levels => (Stmt.AllShort levels.1 ∧ levels.1.length ≤ 2 ∧
        ∀ stmt ∈ levels.1, stmt.isNullCheck = false) ∧ Tidy levels.2)
      (fillLevels span leaf size names) (fillLevels span leaf size names) := by
  induction names generalizing size with
  | nil => exact .pure ⟨⟨trivial, Nat.zero_le 2, fun _ member => nomatch member⟩, trivial, rfl⟩ rfl
  | cons next rest step =>
    have erasesDecl (type : Ty) (value : Expr) (short : value.Short)
        (fixed : value.unchecked = value) :
        Erases (fun bound => (bound.1.unchecked, bound.2))
          (fun bound => bound.1.Short ∧ bound.1.isNullCheck = false)
          (bindTemp type value) (bindTemp type value) := by
      have erases := erases_bindTemp type short
      rwa [fixed] at erases
    refine (erasesDecl _ (.arrayAlloc span _ (.localVar span size)) trivial rfl).bind ?_
    rintro ⟨arrayDecl, array⟩ ⟨arrayShort, arrayPlain⟩
    refine (erasesDecl .int (.int span 0) trivial rfl).bind ?_
    rintro ⟨counterDecl, counter⟩ ⟨counterShort, _⟩
    refine (step next).bind fun levels known => ?_
    obtain ⟨⟨short, few, plain⟩, tidy⟩ := known
    have kept : Stmt.withoutNullChecks levels.1 = Stmt.uncheckedEach levels.1 := by
      rw [Stmt.withoutNullChecks_eq_map, Stmt.uncheckedEach_eq_map,
        List.filter_eq_self.mpr fun stmt inside => by rw [plain stmt inside]; rfl]
    have limit : 3 ≤ maxListLength := by decide
    have one : 1 ≤ maxListLength := by decide
    refine .pure ⟨⟨⟨arrayShort, ?_, trivial⟩, Nat.le_refl 2, ?_⟩, trivial, rfl⟩ ?_
    · refine ⟨⟨one, counterShort, trivial⟩, ⟨trivial, trivial⟩, ⟨one, trivial, trivial⟩, ?_, ?_⟩
      · rw [List.length_append, List.length_singleton]
        omega
      · exact allShort_append short ⟨⟨⟨trivial, trivial⟩, tidy.short⟩, trivial⟩
    · rw [List.forall_mem_cons, List.forall_mem_singleton]
      exact ⟨arrayPlain, rfl⟩
    · have loop : (fillLoop span array counter size counterDecl levels.1 levels.2).unchecked =
          fillLoop span array counter size counterDecl.unchecked
            (Stmt.withoutNullChecks levels.1) levels.2.unchecked := by
        rw [kept]
        simp [fillLoop, Stmt.unchecked, Stmt.uncheckedEach_eq_map, Expr.unchecked,
          Expr.uncheckedEach]
      have plainLoop : (fillLoop span array counter size counterDecl levels.1
          levels.2).isNullCheck = false := rfl
      simp only [Stmt.withoutNullChecks, arrayPlain, plainLoop, loop, Expr.unchecked,
        Bool.false_eq_true, if_false]

theorem short_checkedLength (context : Context) (span : Span) {size : Expr} (short : size.Short) :
    (checkedLength context span size).Short ∧
      (checkedLength context span size).unchecked = checkedLength context span size.unchecked := by
  have one : 1 ≤ maxListLength := by decide
  unfold checkedLength
  split
  · exact ⟨⟨one, short, trivial⟩, rfl⟩
  · exact ⟨short, rfl⟩

theorem erases_bindDimension (span : Span) {checked unchecked : LowerM Expr}
    (erases : Erases Expr.unchecked Tidy checked unchecked) :
    Erases (fun bound => (bound.1.unchecked, bound.2))
      (fun bound => bound.1.Short ∧ bound.1.isNullCheck = false)
      (bindDimension (context.withNullChecks true) span checked)
      (bindDimension (context.withNullChecks false) span unchecked) := by
  refine erases.bind fun size tidy => ?_
  have size := short_checkedLength context span tidy.short
  have binds := erases_bindTemp .int size.1
  rw [size.2] at binds
  exact binds

theorem erases_lowerNewArray (span : Span) (element : Ty) (extra : Nat)
    {checks unchecks : List (LowerM Expr)} (each : EachErases checks unchecks) :
    Erases Expr.unchecked Tidy
      (lowerNewArray (context.withNullChecks true) span element checks extra)
      (lowerNewArray (context.withNullChecks false) span element unchecks extra) := by
  cases each with
  | nil => exact .fail
  | cons dim rest =>
    cases rest with
    | nil =>
      refine dim.bind fun size tidy => ?_
      have size := short_checkedLength context span tidy.short
      exact .pure ⟨size.1, rfl⟩ (congrArg (Expr.arrayAlloc span _) size.2.symm)
    | cons next others =>
      refine (erases_bindDimension span dim).bind fun outer outerKnown => ?_
      have bound : EachErases _ _ := .cons next others
      refine (Erases.runEach (List.forall₂_map_left_iff.mpr (List.forall₂_map_right_iff.mpr
        (bound.imp fun _ _ => erases_bindDimension span)))).bind fun inner innerKnown => ?_
      have sizes : (inner.map fun bound => (bound.1.unchecked, bound.2)).map (·.2) =
          inner.map (·.2) := by rw [List.map_map]; rfl
      rw [sizes]
      refine (erases_fillLevels span _ outer.2 (inner.map (·.2))).bind fun levels known => ?_
      obtain ⟨⟨short, few, plain⟩, tidy⟩ := known
      -- However many dimensions there are, no null check is among the statements.
      have plainAll :
          ∀ stmt ∈ outer.1 :: inner.map (·.1) ++ levels.1, stmt.isNullCheck = false := by
        rw [List.cons_append, List.forall_mem_cons, List.forall_mem_append, List.forall_mem_map]
        exact ⟨outerKnown.2, fun bound inside => (innerKnown bound inside).2, plain⟩
      have shortAll : Stmt.AllShort (outer.1 :: inner.map (·.1) ++ levels.1) := by
        rw [Stmt.allShort_iff, List.cons_append, List.forall_mem_cons, List.forall_mem_append,
          List.forall_mem_map]
        exact ⟨outerKnown.1, fun bound inside => (innerKnown bound inside).1,
          Stmt.allShort_iff.mp short⟩
      have erases := erases_blockExpr span shortAll tidy (.inr plainAll)
      have bounds : Stmt.withoutNullChecks (inner.map (·.1)) =
          (inner.map fun bound => (bound.1.unchecked, bound.2)).map (·.1) := by
        rw [Stmt.withoutNullChecks_eq_map, List.filter_eq_self.mpr, List.map_map, List.map_map]
        · rfl
        · exact List.forall_mem_map.mpr fun bound inside => by rw [(innerKnown bound inside).2]; rfl
      rw [List.cons_append, Stmt.withoutNullChecks, outerKnown.2, withoutNullChecks_append,
        bounds] at erases
      exact erases

section Elements

variable {array arrays position positions value values : Part}
  (arrayPart : PartErases array arrays) (positionPart : PartErases position positions)

include arrayPart positionPart

theorem erases_slot (span : Span) :
    Erases (fun element => (Stmt.withoutNullChecks element.1, element.2.unchecked))
      (fun element => (Stmt.AllShort element.1 ∧ element.1.length ≤ 3) ∧ Tidy element.2)
      (slot (context.withNullChecks true) span array position)
      (slot (context.withNullChecks false) span arrays positions) := by
  unfold slot
  rw [positionPart.expr, arrayChecks_withNullChecks, arrayChecks_withNullChecks]
  refine (erases_operandBefore arrayPart .object positions.expr).bind fun first ready => ?_
  dsimp only
  split
  · refine (ready.erases span).bind fun arrayExpr arrayTidy => ?_
    refine positionPart.erases.bind fun positionExpr positionTidy => .pure ?_ rfl
    exact ⟨⟨ready.short, Nat.le_trans ready.few (by decide)⟩,
      ⟨arrayTidy.short, positionTidy.short⟩, rfl⟩
  · refine (erases_operand positionPart .int).bind fun second readyToo => ?_
    refine (ready.erases span).bind fun checkedArray checkedArrayTidy => ?_
    refine (readyToo.erases span).bind fun checkedPosition checkedPositionTidy => ?_
    refine (ready.erases span).bind fun arrayExpr arrayTidy => ?_
    refine (readyToo.erases span).bind fun positionExpr positionTidy => ?_
    have two : 2 ≤ maxListLength := by decide
    have check : Stmt.AllShort [checkStmt span .arrayAccess [checkedArray, checkedPosition]] :=
      ⟨⟨two, checkedArrayTidy.short, checkedPositionTidy.short, trivial⟩, trivial⟩
    have short := allShort_append (allShort_append ready.short readyToo.short) check
    refine .pure ⟨⟨short, ?_⟩, ⟨arrayTidy.short, positionTidy.short⟩, rfl⟩ ?_
    · have one := ready.few
      have another := readyToo.few
      rw [List.length_append, List.length_append, List.length_singleton]
      omega
    · rw [withoutNullChecks_append, withoutNullChecks_append]
      rfl

theorem erases_readElement (span : Span) : Erases Expr.unchecked Tidy
    (readElement (context.withNullChecks true) span array position)
    (readElement (context.withNullChecks false) span arrays positions) :=
  (erases_slot arrayPart positionPart span).bind fun _ ⟨⟨short, few⟩, tidy⟩ =>
    erases_blockExpr span short tidy (.inl (Nat.le_trans few (by decide)))

theorem erases_updateElement (span : Span) (op : UnaryOp) : Erases Expr.unchecked Tidy
    (updateElement (context.withNullChecks true) span op array position)
    (updateElement (context.withNullChecks false) span op arrays positions) :=
  (erases_slot arrayPart positionPart span).bind fun element ⟨⟨short, few⟩, tidy⟩ => by
    have updated : Tidy (.unary span op element.2) := ⟨tidy.short, rfl⟩
    exact erases_blockExpr span short updated (.inl (Nat.le_trans few (by decide)))

theorem erases_store (valuePart : PartErases value values) (span : Span) :
    Erases Expr.unchecked Tidy
      (store (context.withNullChecks true) span array position value)
      (store (context.withNullChecks false) span arrays positions values) := by
  have limit : 4 ≤ maxListLength := by decide
  unfold store
  rw [valuePart.expr, arrayPart.expr]
  dsimp only
  simp only [typeOr_withOptions, storedType_withOptions]
  refine (erases_operandBefore arrayPart _ values.expr).bind fun first ready => ?_
  refine (erases_operandBefore positionPart .int values.expr).bind fun second readyToo => ?_
  have one := ready.few
  have another := readyToo.few
  have before := allShort_append ready.short readyToo.short
  dsimp only [uncheckedOperand]
  rw [arrayChecks_withNullChecks, arrayChecks_withNullChecks]
  split
  · refine (ready.erases span).bind fun arrayExpr arrayTidy => ?_
    refine (readyToo.erases span).bind fun positionExpr positionTidy => ?_
    refine valuePart.erases.bind fun stored storedTidy => ?_
    have assigned : Tidy (.assign span (.index span arrayExpr positionExpr) stored) :=
      ⟨⟨⟨arrayTidy.short, positionTidy.short⟩, storedTidy.short⟩, rfl⟩
    have few : (first.1 ++ second.1).length ≤ maxListLength := by
      rw [List.length_append]
      omega
    have erases := erases_blockExpr span before assigned (.inl few)
    rwa [withoutNullChecks_append] at erases
  · refine valuePart.erases.bind fun stored storedTidy => ?_
    refine (erases_bindTemp _ storedTidy.short).bind fun bound ⟨declShort, declPlain⟩ => ?_
    refine (ready.erases span).bind fun checkedArray checkedArrayTidy => ?_
    refine (readyToo.erases span).bind fun checkedPosition checkedPositionTidy => ?_
    refine (ready.erases span).bind fun arrayExpr arrayTidy => ?_
    refine (readyToo.erases span).bind fun positionExpr positionTidy => ?_
    have assigned : Tidy (.assign span (.index span arrayExpr positionExpr)
        (.localVar span bound.2)) := ⟨⟨⟨arrayTidy.short, positionTidy.short⟩, trivial⟩, rfl⟩
    have three : 3 ≤ maxListLength := by decide
    have check : (checkStmt span .arrayStore
        [checkedArray, checkedPosition, .localVar span bound.2]).Short :=
      ⟨three, checkedArrayTidy.short, checkedPositionTidy.short, trivial, trivial⟩
    have few : (first.1 ++ second.1 ++ [bound.1, checkStmt span .arrayStore
        [checkedArray, checkedPosition, .localVar span bound.2]]).length ≤ maxListLength := by
      rw [List.length_append, List.length_append, List.length_cons, List.length_singleton]
      omega
    have behind : Stmt.AllShort [bound.1, checkStmt span .arrayStore
        [checkedArray, checkedPosition, .localVar span bound.2]] := ⟨declShort, check, trivial⟩
    have erases := erases_blockExpr span (allShort_append before behind) assigned (.inl few)
    rw [withoutNullChecks_append, withoutNullChecks_append, Stmt.withoutNullChecks, declPlain]
      at erases
    exact erases

end Elements

theorem erases_arrayLength {array arrays : Part} (part : PartErases array arrays) (span : Span) :
    Erases Expr.unchecked Tidy (arrayLength (context.withNullChecks true) span array)
      (arrayLength (context.withNullChecks false) span arrays) := by
  refine (erases_operand part .object).bind fun prepared ready => ?_
  refine erases_checked span ready fun check value short few none tidy => ?_
  have one := ready.few
  have measured : Tidy (.length span value) := ⟨tidy.short, rfl⟩
  have fits : (prepared.1 ++ check).length ≤ maxListLength := by
    have limit : 2 ≤ maxListLength := by decide
    rw [List.length_append]
    omega
  have erases := erases_blockExpr span (allShort_append ready.short short) measured (.inl fits)
  rw [withoutNullChecks_append, none] at erases
  exact erases

end ObjectLowering.Lowering
