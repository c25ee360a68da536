/-
**Every form puts its accesses behind checks.**

Where checks are asked for, lowering an element, a store, a length or a call through the vtable puts
the check in front of the access, with trees that equal those of the access. The trees are made anew
for each use, from a literal, the receiver, a temporary or a pure expression, so they are the same.

* `Lowering.Counts` speaks of the results of a step, whose count does not fall.
* `Lowering.Reuses` says of an operand that all its uses give one tree.
* `guards_readElement`, `guards_updateElement`, `guards_store`, `guards_arrayLength`: elements and
  lengths of arrays.
* `guards_memberAccess`, `guards_lowerCall`, `guards_chainCall`, `guards_lowerNewObject`: the other
  forms, among them **`guards_virtualCall`**.
-/

import ObjectLowering.Proofs.Checks.Guarded
import ObjectLowering.Proofs.Lowering.Ensures
import ObjectLowering.Proofs.Lowering.PureOperands

namespace ObjectLowering.Lowering

open Lowered (Expr Stmt Scope Guard)

/-! ### Steps that count on -/

/-- The count of temporaries does not fall, and a result of the step has the property. -/
def Counts {α : Type} (step : LowerM α) (property : α → Prop) : Prop :=
  ∀ start value stop, step.run start = .ok (value, stop) → start ≤ stop ∧ property value

namespace Counts

variable {α β : Type} {step : LowerM α} {next : α → LowerM β} {property other : α → Prop}
  {result : β → Prop}

theorem mono (counts : Counts step property) (weaker : ∀ value, property value → other value) :
    Counts step other := fun start value stop done =>
  (counts start value stop done).imp_right (weaker value)

theorem ensures (counts : Counts step property) : Ensures step property :=
  fun start value stop done => (counts start value stop done).2

theorem pure {value : α} (known : property value) : Counts (pure value) property := by
  intro start found stop done
  cases done
  exact ⟨Nat.le_refl _, known⟩

theorem fail {error : LoweringError} : Counts (fail error) property := by
  intro start found stop done
  cases done

theorem bind (first : Counts step property)
    (second : ∀ value, property value → Counts (next value) result) :
    Counts (step >>= next) result := by
  intro start value stop done
  obtain ⟨middle, count, here, there⟩ := run_of_bind done
  obtain ⟨grown, known⟩ := first start middle count here
  obtain ⟨more, reached⟩ := second middle known count value stop there
  exact ⟨Nat.le_trans grown more, reached⟩

/-- A step whose result is known. -/
theorem bind_eq {value : α} (first : Counts step (· = value))
    (second : Counts (next value) result) : Counts (step >>= next) result :=
  first.bind fun _ same => same ▸ second

theorem checkLength {ι : Type} (kind : NodeKind) (items : List ι) :
    Counts (checkLength kind items) fun _ => True := by
  unfold Lowering.checkLength
  split
  · exact pure trivial
  · intro start found stop done
    cases done

/-- Steps that run one after the other, all alike. -/
theorem runAll {steps : List (LowerM α)} (each : ∀ step ∈ steps, Counts step property) :
    Counts (runEach steps) fun values => ∀ value ∈ values, property value := by
  induction steps with
  | nil => exact pure fun _ member => nomatch member
  | cons step rest induct =>
    rw [List.forall_mem_cons] at each
    exact each.1.bind fun first here => (induct each.2).bind fun others there =>
      pure (List.forall_mem_cons.mpr ⟨here, there⟩)

end Counts

/-- Both kinds of checks are asked for. -/
structure Context.Checks (context : Context) : Prop where
  nulls : context.options.nullChecks = true
  arrays : context.options.arrayChecks = true

/-- An expression in which every access is behind its check, wherever it stands. -/
def IsGuarded (context : Context) (expr : Expr) : Prop :=
  ∀ scope, expr.Guarded context.options.selfParam scope .none

/-- A statement in which every access is behind its check, wherever it stands. -/
def IsGuardedStmt (context : Context) (stmt : Stmt) : Prop :=
  ∀ scope, stmt.Guarded context.options.selfParam scope .none

/-- Statements in which every access is behind its check, wherever they stand. -/
def AreGuarded (context : Context) (stmts : List Stmt) : Prop :=
  ∀ scope, Stmt.AllGuarded context.options.selfParam scope .none stmts

/-- The step lowers to guarded expressions. -/
abbrev Guards (context : Context) (step : LowerM Expr) : Prop := Counts step (IsGuarded context)

variable {context : Context}

theorem AreGuarded.append {stmts others : List Stmt} (first : AreGuarded context stmts)
    (second : AreGuarded context others) : AreGuarded context (stmts ++ others) := fun scope =>
  Stmt.allGuarded_append.mpr ⟨first scope, second _⟩

theorem areGuarded_nil : AreGuarded context [] := fun _ => trivial

theorem areGuarded_cons {stmt : Stmt} {rest : List Stmt} (first : IsGuardedStmt context stmt)
    (others : AreGuarded context rest) : AreGuarded context (stmt :: rest) := fun scope =>
  Stmt.allGuarded_cons.mpr ⟨first scope, others _⟩

theorem areGuarded_of_forall {stmts : List Stmt}
    (each : ∀ stmt ∈ stmts, IsGuardedStmt context stmt) : AreGuarded context stmts := by
  induction stmts with
  | nil => exact fun _ => trivial
  | cons stmt rest step =>
    rw [List.forall_mem_cons] at each
    exact areGuarded_cons each.1 (step each.2)

theorem allGuarded_of_forall {exprs : List Expr} (each : ∀ expr ∈ exprs, IsGuarded context expr)
    (scope : Scope) : Expr.AllGuarded context.options.selfParam scope exprs := by
  induction exprs with
  | nil => exact trivial
  | cons expr rest step =>
    rw [List.forall_mem_cons] at each
    exact ⟨each.1 scope, step each.2⟩

theorem guards_blockExpr (span : Span) {stmts : List Stmt} {result : Expr}
    (before : AreGuarded context stmts)
    (value : ∀ scope : Scope,
      result.Guarded context.options.selfParam (scope.after stmts) (.behind stmts)) :
    Guards context (blockExpr span stmts result) := by
  unfold blockExpr
  split
  · rename_i none
    rw [List.isEmpty_iff.mp none] at value
    exact .pure value
  · exact (Counts.checkLength _ _).bind fun _ _ => .pure fun scope => ⟨before scope, value scope⟩

/-- A value that needs nothing to be vouched for. -/
theorem guards_blockExpr_of_isGuarded (span : Span) {stmts : List Stmt} {result : Expr}
    (before : AreGuarded context stmts) (value : IsGuarded context result) :
    Guards context (blockExpr span stmts result) :=
  guards_blockExpr span before fun _ => Expr.Guarded.mono _ (value _)

theorem counts_argList {steps : List (LowerM Expr)} (each : ∀ step ∈ steps, Guards context step) :
    Counts (argList steps) fun args => ∀ arg ∈ args, IsGuarded context arg :=
  (Counts.runAll each).bind fun _ known => (Counts.checkLength _ _).bind fun _ _ => .pure known

/-! ### Operands -/

/-- Lowering the part gives guarded trees, and the same one again if it is pure. -/
structure Part.Guards (context : Context) (part : Part) : Prop where
  lower : Lowering.Guards context part.lower
  again : part.expr.isPure = true → Steady part.lower

/-- Guarded statements prepare an operand, all whose uses give one guarded tree. -/
structure Reuses (context : Context) (prepared : List Stmt × Operand) : Prop where
  before : AreGuarded context prepared.1
  use : ∀ span, ∃ tree, IsGuarded context tree ∧
    Counts (prepared.2.use context span) (· = tree)

variable {part array position value : Part}

theorem reuses_self : Reuses context ([], .self) :=
  ⟨fun _ => trivial, fun span => ⟨selfExpr context span, fun _ => trivial, .pure rfl⟩⟩

theorem counts_bindTemp (type : Ty) (value : Expr) :
    Counts (bindTemp type value) fun bound => bound.1 = .localVar type bound.2 value := by
  intro start bound stop done
  cases done
  exact ⟨Nat.le_succ _, rfl⟩

/-- A pure part gives one tree whenever it is lowered. -/
theorem reuses_reread (guards : part.Guards context) (isPure : part.expr.isPure = true) :
    Reuses context ([], .reread part.lower) := by
  refine ⟨fun _ => trivial, fun _ => ?_⟩
  obtain ⟨outcome, runs⟩ := guards.again isPure
  cases outcome with
  | error failure =>
    refine ⟨.absent, fun _ => trivial, fun start value stop done => ?_⟩
    cases (runs start).symm.trans done
  | ok tree =>
    refine ⟨tree, (guards.lower 0 tree 0 (runs 0)).2, fun start value stop done => ?_⟩
    cases (runs start).symm.trans done
    exact ⟨Nat.le_refl _, rfl⟩

theorem counts_readOnce (fallback : Ty) (guards : part.Guards context) :
    Counts (readOnce context part fallback) fun prepared =>
      Reuses context prepared ∧ prepared.2.isSelf = part.expr.isReceiver := by
  unfold readOnce
  split
  · rename_i own
    exact .pure ⟨reuses_self, own.symm⟩
  · rename_i other
    refine guards.lower.bind fun value guarded => ?_
    refine (counts_bindTemp _ value).bind fun bound declared => .pure ⟨⟨?_, ?_⟩, ?_⟩
    · exact areGuarded_cons (fun scope => declared ▸ guarded scope) fun _ => trivial
    · exact fun span => ⟨.localVar span bound.2, fun _ => trivial, .pure rfl⟩
    · exact ((Bool.not_eq_true _).mp other).symm

theorem counts_operand (fallback : Ty) (guards : part.Guards context) :
    Counts (operand context part fallback) fun prepared =>
      Reuses context prepared ∧ prepared.2.isSelf = part.expr.isReceiver := by
  unfold operand
  split
  · rename_i again
    rw [Bool.and_eq_true, Bool.not_eq_true'] at again
    exact .pure ⟨reuses_reread guards again.1, again.2.symm⟩
  · exact counts_readOnce fallback guards

theorem counts_operandBefore (fallback : Ty) (later : Source.Expr) (guards : part.Guards context) :
    Counts (operandBefore context part fallback later) (Reuses context) := by
  unfold operandBefore
  split
  · exact (counts_operand fallback guards).mono fun _ => And.left
  · exact (counts_readOnce fallback guards).mono fun _ => And.left

/-- A value other than the receiver is checked with the tree of its uses. -/
theorem counts_nullCheck (checks : context.Checks) (span : Span) {value : Operand} {tree : Expr}
    (uses : Counts (value.use context span) (· = tree)) :
    Counts (nullCheck context span value) fun stmts =>
      stmts = if value.isSelf then [] else [checkStmt span .notNull [tree]] := by
  unfold nullCheck
  rw [checks.nulls, Bool.not_true, Bool.false_or]
  split
  · exact .pure rfl
  · exact uses.bind_eq (.pure rfl)

theorem areGuarded_checkStmt (span : Span) (kind : Lowered.CheckKind) {args : List Expr}
    (each : ∀ arg ∈ args, IsGuarded context arg) :
    AreGuarded context [checkStmt span kind args] := fun scope => allGuarded_of_forall each scope

/-! ### Elements of arrays -/

/-- An element behind its check. -/
structure IsSlot (context : Context) (element : List Stmt × Expr) : Prop where
  before : AreGuarded context element.1
  value : ∀ scope, element.2.Guarded context.options.selfParam scope (.behind element.1)
  isAccess : ∃ array position, Guard.behind element.1 = .access array position

theorem counts_slot (checks : context.Checks) (span : Span) (first : array.Guards context)
    (second : position.Guards context) :
    Counts (slot context span array position) (IsSlot context) := by
  unfold slot
  refine (counts_operandBefore .object position.expr first).bind ?_
  rintro ⟨arrayDecl, arrayUse⟩ reusesArray
  dsimp only
  rw [checks.arrays, if_neg (by decide)]
  refine (counts_operand .int second).bind ?_
  rintro ⟨positionDecl, positionUse⟩ ⟨reusesPosition, _⟩
  obtain ⟨arrayTree, arrayGuarded, arrayUses⟩ := reusesArray.use span
  obtain ⟨positionTree, positionGuarded, positionUses⟩ := reusesPosition.use span
  refine arrayUses.bind_eq (positionUses.bind_eq (arrayUses.bind_eq (positionUses.bind_eq ?_)))
  have check := areGuarded_checkStmt span .arrayAccess
    (List.forall_mem_cons.mpr ⟨arrayGuarded, List.forall_mem_singleton.mpr positionGuarded⟩)
  have vouched := Guard.behind_append (arrayDecl ++ positionDecl)
    (checkStmt span .arrayAccess [arrayTree, positionTree])
  refine .pure ⟨(reusesArray.before.append reusesPosition.before).append check, fun scope => ?_,
    _, _, vouched⟩
  exact ⟨vouched, arrayGuarded scope, positionGuarded scope⟩

theorem guards_readElement (checks : context.Checks) (span : Span) (first : array.Guards context)
    (second : position.Guards context) :
    Guards context (readElement context span array position) :=
  (counts_slot checks span first second).bind fun _ element =>
    guards_blockExpr span element.before fun _ => element.value _

theorem guards_updateElement (checks : context.Checks) (span : Span) (op : UnaryOp)
    (first : array.Guards context) (second : position.Guards context) :
    Guards context (updateElement context span op array position) := by
  refine (counts_slot checks span first second).bind fun element known => ?_
  refine guards_blockExpr span known.before fun scope => ?_
  have value := known.value (scope.after element.1)
  obtain ⟨_, _, isAccess⟩ := known.isAccess
  rw [isAccess] at value ⊢
  exact value

theorem guards_store (checks : context.Checks) (span : Span) (first : array.Guards context)
    (second : position.Guards context) (third : value.Guards context) :
    Guards context (store context span array position value) := by
  unfold store
  refine (counts_operandBefore _ value.expr first).bind ?_
  rintro ⟨arrayDecl, arrayUse⟩ reusesArray
  refine (counts_operandBefore .int value.expr second).bind ?_
  rintro ⟨positionDecl, positionUse⟩ reusesPosition
  dsimp only
  rw [checks.arrays, if_neg (by decide)]
  refine third.lower.bind fun stored storedGuarded => ?_
  refine (counts_bindTemp _ stored).bind ?_
  rintro ⟨decl, temp⟩ declared
  dsimp only at declared ⊢
  obtain ⟨arrayTree, arrayGuarded, arrayUses⟩ := reusesArray.use span
  obtain ⟨positionTree, positionGuarded, positionUses⟩ := reusesPosition.use span
  -- The check and the element use both operands, so each is used twice.
  refine arrayUses.bind_eq (positionUses.bind_eq (arrayUses.bind_eq (positionUses.bind_eq ?_)))
  have temporary : IsGuarded context (.localVar span temp) := fun _ => trivial
  have check := areGuarded_checkStmt span .arrayStore (List.forall_mem_cons.mpr ⟨arrayGuarded,
    List.forall_mem_cons.mpr ⟨positionGuarded, List.forall_mem_singleton.mpr temporary⟩⟩)
  have kept : IsGuardedStmt context decl := fun scope => declared ▸ storedGuarded scope
  have before := (reusesArray.before.append reusesPosition.before).append
    (areGuarded_cons kept check)
  refine guards_blockExpr span before fun scope => ⟨trivial, .inr (.inl ?_)⟩
  refine ⟨arrayTree, positionTree, ?_, ?_, rfl, arrayGuarded _, positionGuarded _⟩
  · rw [List.append_cons]
    exact Guard.behind_append _ _
  · rw [Scope.after_append, declared]
    rfl

/-- The receiver of a routine is an object, so its length is never asked for. -/
theorem guards_arrayLength (checks : context.Checks) (span : Span) (first : array.Guards context)
    (other : array.expr.isReceiver = false) :
    Guards context (arrayLength context span array) := by
  unfold arrayLength
  refine (counts_operand .object first).bind ?_
  rintro ⟨decl, arrayUse⟩ ⟨reuses, own⟩
  obtain ⟨tree, guarded, uses⟩ := reuses.use span
  refine (counts_nullCheck checks span uses).bind_eq (uses.bind_eq ?_)
  dsimp only at own ⊢
  rw [own, other, if_neg Bool.false_ne_true]
  have check := areGuarded_checkStmt span .notNull (List.forall_mem_singleton.mpr guarded)
  exact guards_blockExpr span (reuses.before.append check) fun _ =>
    ⟨Guard.behind_append _ _, guarded _⟩

/-! ### Members -/

theorem isGuarded_identifier (tag : Source.Tag) (name : Name) :
    IsGuarded context (identifier context tag name) := by
  intro scope
  unfold identifier fieldRef
  split
  · split <;> exact trivial
  · exact trivial

theorem guards_memberAccess (checks : context.Checks) {part : Part} (tag : Source.Tag)
    (name : Name) (guards : part.Guards context)
    (isObject : part.expr.isReceiver = true →
      (context.facade.exprType part.expr.id).any (·.isArray) = false) :
    Guards context (memberAccess context tag part name) := by
  unfold memberAccess
  split
  · exact .pure fun _ => trivial
  · split
    · rename_i isLength
      rw [Bool.and_eq_true] at isLength
      refine guards_arrayLength checks tag.span guards ?_
      rw [Bool.eq_false_iff]
      intro own
      exact Bool.false_ne_true ((isObject own).symm.trans isLength.2)
    · exact guards.lower.bind fun _ guarded => .pure guarded

/-! ### Calls -/

/-- The receiver of a call, if it has one, and its arguments lower to guarded expressions. -/
structure CallParts.Guards (context : Context) (parts : CallParts) : Prop where
  receives : ∀ part, parts.receiver = some part → part.Guards context
  passes : ∀ step ∈ parts.args, Lowering.Guards context step

variable {parts : CallParts} {site : CallSite}

theorem counts_receiverArgs (span : Span) {value : Operand} {tree : Expr}
    (guarded : IsGuarded context tree) (uses : Counts (value.use context span) (· = tree))
    {steps : List (LowerM Expr)} (each : ∀ step ∈ steps, Guards context step) :
    Counts (receiverArgs context span value steps) fun args =>
      ∀ arg ∈ args, IsGuarded context arg :=
  counts_argList (List.forall_mem_cons.mpr ⟨uses.mono fun _ same => same ▸ guarded, each⟩)

theorem counts_receiverOperand (routine : Routine) (guards : parts.Guards context) :
    Counts (receiverOperand context routine parts site) (Reuses context) := by
  unfold receiverOperand
  split
  · rename_i part written
    exact (counts_operand _ (guards.receives part written)).mono fun _ => And.left
  · split
    · exact .pure reuses_self
    · exact .fail

theorem guards_printCall (guards : parts.Guards context) : Guards context (printCall parts) :=
  (counts_argList guards.passes).bind fun _ guarded => .pure (allGuarded_of_forall guarded)

theorem guards_unresolvedCall (guards : parts.Guards context) :
    Guards context (unresolvedCall context parts) := by
  have onward (receiver : Expr) (before : IsGuarded context receiver) : Guards context (do
      let args ← argList parts.args
      return .unresolvedCall parts.tag.span receiver parts.method args) :=
    (counts_argList guards.passes).bind fun _ guarded =>
      .pure fun scope => ⟨before scope, allGuarded_of_forall guarded scope⟩
  unfold unresolvedCall
  dsimp only
  split
  · exact Counts.bind .fail fun _ (never : False) => never.elim
  · split
    · rename_i part written
      exact (guards.receives part written).lower.bind onward
    · exact onward .absent fun _ => trivial

theorem counts_receiverEffect {receiver : Option Part}
    (guards : ∀ part, receiver = some part → part.Guards context) :
    Counts (receiverEffect receiver) (AreGuarded context) := by
  unfold receiverEffect
  split
  · exact .pure fun _ => trivial
  · split
    · exact .pure fun _ => trivial
    · exact (guards _ rfl).lower.bind fun _ guarded => .pure guarded

theorem guards_staticCall (guards : parts.Guards context) :
    Guards context (staticCall parts site) :=
  (counts_receiverEffect guards.receives).bind fun _ before =>
    (counts_argList guards.passes).bind fun _ guarded =>
      guards_blockExpr_of_isGuarded _ before (allGuarded_of_forall guarded)

theorem guards_directCall (routine : Routine) (guards : parts.Guards context) :
    Guards context (directCall context routine parts site) := by
  unfold directCall
  dsimp only
  split
  · have own : IsGuarded context (selfExpr context parts.tag.span) := fun _ => trivial
    have uses : Counts (Operand.self.use context parts.tag.span) (· = _) := .pure rfl
    exact (counts_receiverArgs _ own uses guards.passes).bind fun _ guarded =>
      .pure (allGuarded_of_forall guarded)
  · refine (counts_receiverOperand routine guards).bind fun prepared reuses => ?_
    obtain ⟨tree, guarded, uses⟩ := reuses.use parts.tag.span
    refine uses.bind_eq ((counts_receiverArgs _ guarded uses guards.passes).bind ?_)
    exact fun _ passed => guards_blockExpr_of_isGuarded _ reuses.before
      fun scope => ⟨guarded scope, allGuarded_of_forall passed scope⟩

theorem counts_virtualSlot (span : Span) :
    Counts (virtualSlot context span site) fun _ => True := by
  unfold virtualSlot
  split
  · exact .fail
  · split
    · exact .fail
    · exact .pure trivial

theorem isReceiver_of_isSelf {span : Span} {value : Operand} {tree : Expr}
    (own : value.isSelf = true) (uses : Counts (value.use context span) (· = tree)) :
    tree.IsReceiver context.options.selfParam := by
  cases value with
  | self =>
    rw [← (uses 0 (selfExpr context span) 0 rfl).2]
    exact rfl
  | reread | temp => cases own

/-- **A call through the vtable is of the receiver parameter or behind a check.** -/
theorem guards_virtualCall (checks : context.Checks) (routine : Routine)
    (guards : parts.Guards context) :
    Guards context (virtualCall context routine parts site) := by
  unfold virtualCall
  refine (counts_virtualSlot parts.tag.span).bind fun slot _ => ?_
  refine (counts_receiverOperand routine guards).bind ?_
  rintro ⟨decl, receiver⟩ reuses
  obtain ⟨tree, guarded, uses⟩ := reuses.use parts.tag.span
  refine (counts_nullCheck checks _ uses).bind_eq (uses.bind_eq ?_)
  refine (counts_receiverArgs _ guarded uses guards.passes).bind fun args passed => ?_
  dsimp only
  split
  · rename_i own
    rw [List.append_nil]
    exact guards_blockExpr _ reuses.before fun scope =>
      ⟨.inl (isReceiver_of_isSelf own uses), guarded _, allGuarded_of_forall passed _⟩
  · have check := areGuarded_checkStmt parts.tag.span .notNull
      (List.forall_mem_singleton.mpr guarded)
    exact guards_blockExpr _ (reuses.before.append check) fun scope =>
      ⟨.inr (Guard.behind_append _ _), guarded _, allGuarded_of_forall passed _⟩

theorem guards_lowerCall (checks : context.Checks) (routine : Routine)
    (guards : parts.Guards context) : Guards context (lowerCall context routine parts) := by
  unfold lowerCall
  split
  · exact guards_printCall guards
  · split
    · exact guards_unresolvedCall guards
    · split
      · exact .fail
      · exact guards_staticCall guards
      · exact guards_directCall routine guards
      · exact guards_virtualCall checks routine guards

theorem guards_chainCall (routine : Routine) (span : Span) (target : ChainTarget)
    {steps : List (LowerM Expr)} (each : ∀ step ∈ steps, Guards context step) :
    Guards context (chainCall context routine span target steps) := by
  have own : IsGuarded context (selfExpr context span) := fun _ => trivial
  have uses : Counts (Operand.self.use context span) (· = _) := .pure rfl
  exact (counts_receiverArgs span own uses each).bind fun _ guarded =>
    .pure (allGuarded_of_forall guarded)

theorem guards_lowerNewObject (span : Span) (className : Name) {steps : List (LowerM Expr)}
    (each : ∀ step ∈ steps, Guards context step) :
    Guards context (lowerNewObject span className steps) := by
  have made : Guards context (pure (.alloc span className)) := .pure fun _ => trivial
  exact (counts_argList (List.forall_mem_cons.mpr ⟨made, each⟩)).bind fun _ guarded =>
    .pure (allGuarded_of_forall guarded)

end ObjectLowering.Lowering
