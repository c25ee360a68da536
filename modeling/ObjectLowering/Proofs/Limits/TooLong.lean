/-
**When a list is too long for lowering.**

Lowering numbers its lists, and a list of more than `maxListLength` items ends it. Whether that
happens depends on the lengths of a few lists alone: the temporaries, checks and effects in front of
a value are never many. So each form has a condition, and finds a list too long only where the
condition fails, and has a result only where it holds.

* `Lowering.Limits` says this of a step.
* `Limits.bind` puts the conditions of two steps together; `Limits.last` and `Limits.first` are for
  steps of which one needs no room.
* `Part.Limited` is an operand, for which nothing pure needs room.
* `limits_slot`, `limits_store`, `limits_lowerNewArray`: arrays; `limits_lowerCall`,
  `limits_chainCall`, `limits_lowerNewObject`: calls.
-/

import ObjectLowering.Proofs.Lowering.Ensures

namespace ObjectLowering

namespace Lowering

open Lowered (Expr Stmt)

/-! ### Steps and their conditions -/

/-- Whatever the count of temporaries, the step has a result only where there is room, and that has
the property; it finds a list too long only where there is no room. -/
structure Limits {α : Type} (room : Prop) (step : LowerM α) (property : α → Prop) : Prop where
  ensures : Ensures step fun value => room ∧ property value
  overflows : ∀ start refusal, step.run start = .error (.listTooLong refusal) → ¬room

/-- The step has the condition, whatever its result. -/
abbrev LimitsAny {α : Type} (room : Prop) (step : LowerM α) : Prop :=
  Limits room step fun _ => True

namespace Limits

variable {α β ι : Type} {room other : Prop} {step : LowerM α} {next : α → LowerM β}
  {property weaker : α → Prop} {result : β → Prop}

theorem pure {value : α} (known : property value) : Limits True (pure value) property :=
  ⟨.pure ⟨trivial, known⟩, fun _ _ failed => by cases failed⟩

theorem fail {error : LoweringError} : Limits room (fail error) property :=
  ⟨.fail, fun _ _ failed => by cases failed⟩

theorem mono (limits : Limits room step property)
    (weakens : ∀ value, property value → weaker value) : Limits room step weaker :=
  ⟨limits.ensures.mono fun value known => ⟨known.1, weakens value known.2⟩, limits.overflows⟩

theorem of_iff (limits : Limits room step property) (same : room ↔ other) :
    Limits other step property := by
  rw [← same]
  exact limits

/-- What a step ensures anyway is known of its results, too. -/
theorem also (limits : Limits room step property) (ensures : Ensures step weaker) :
    Limits room step fun value => property value ∧ weaker value := by
  refine ⟨fun start value stop done => ?_, limits.overflows⟩
  obtain ⟨known, here⟩ := limits.ensures start value stop done
  exact ⟨known, here, ensures start value stop done⟩

theorem bind (first : Limits room step property)
    (second : ∀ value, property value → Limits other (next value) result) :
    Limits (room ∧ other) (step >>= next) result := by
  constructor
  · intro start value stop done
    obtain ⟨reached, middle, here, there⟩ := run_of_bind done
    have before := first.ensures start reached middle here
    have behind := (second reached before.2).ensures middle value stop there
    exact ⟨⟨before.1, behind.1⟩, behind.2⟩
  · intro start refusal failed both
    rw [StateT.run_bind] at failed
    cases here : step.run start with
    | error failure =>
      rw [here] at failed
      cases failed
      exact first.overflows start refusal here both.1
    | ok reached =>
      rw [here] at failed
      have known := first.ensures start reached.1 reached.2 here
      exact (second reached.1 known.2).overflows reached.2 refusal failed both.2

/-- What is behind a step needs no room. -/
theorem last (first : Limits room step property)
    (second : ∀ value, property value → Limits True (next value) result) :
    Limits room (step >>= next) result :=
  (first.bind second).of_iff (and_iff_left trivial)

/-- What is in front of a step needs no room. -/
theorem first (first : Limits True step property)
    (second : ∀ value, property value → Limits room (next value) result) :
    Limits room (step >>= next) result :=
  (first.bind second).of_iff (and_iff_right trivial)

theorem checkLength (kind : NodeKind) (items : List ι) :
    LimitsAny (items.length ≤ maxListLength) (checkLength kind items) := by
  unfold Lowering.checkLength checkListLength
  by_cases few : items.length ≤ maxListLength
  · rw [if_pos few]
    exact (pure trivial).of_iff (iff_of_true trivial few)
  · rw [if_neg few]
    exact ⟨fun _ _ _ done => (nomatch done), fun _ _ _ => few⟩

/-- Steps that run one after the other have the conditions of all. -/
theorem runEach {items : List ι} {step : ι → LowerM α} {room : ι → Prop} {property : ι → α → Prop}
    (each : ∀ item ∈ items, Limits (room item) (step item) (property item)) :
    Limits (∀ item ∈ items, room item) (runEach (items.map step))
      (List.Forall₂ property items) := by
  induction items with
  | nil => exact (pure List.Forall₂.nil).of_iff (iff_of_true trivial (List.forall_mem_nil _))
  | cons item rest induct =>
    rw [List.forall_mem_cons] at each
    refine (each.1.bind fun first here => ?_).of_iff List.forall_mem_cons.symm
    exact (induct each.2).last fun others there => pure (.cons here there)

end Limits

/-! ### Lists and operands -/

variable {context : Context} {routine : Routine} {span : Span}

theorem limits_checkLength {ι : Type} {items : List ι} (kind : NodeKind)
    (short : items.length ≤ maxListLength) : LimitsAny True (checkLength kind items) :=
  (Limits.checkLength kind items).of_iff (iff_true_intro short)

theorem limits_blockExpr (stmts : List Stmt) (result : Expr) :
    LimitsAny (stmts.length ≤ maxListLength) (blockExpr span stmts result) := by
  unfold blockExpr
  split
  · rename_i none
    rw [List.isEmpty_iff.mp none]
    exact (Limits.pure trivial).of_iff (iff_true_intro (Nat.zero_le _)).symm
  · exact (Limits.checkLength .loweredStmt stmts).last fun _ _ => .pure trivial

/-- A few statements in front of a value are not too many. -/
theorem limits_blockExpr_few {stmts : List Stmt} (few : stmts.length ≤ 4) (result : Expr) :
    LimitsAny True (blockExpr span stmts result) :=
  (limits_blockExpr stmts result).of_iff (iff_true_intro (Nat.le_trans few (by decide)))

theorem limits_bindTemp (type : Ty) (value : Expr) : LimitsAny True (bindTemp type value) :=
  ⟨fun _ _ _ _ => ⟨trivial, trivial⟩, fun _ _ failed => by cases failed⟩

section Lists

variable {ι : Type} {items : List ι} {step : ι → LowerM Expr} {room : ι → Prop}

theorem limits_argList (each : ∀ item ∈ items, LimitsAny (room item) (step item)) :
    LimitsAny ((∀ item ∈ items, room item) ∧ items.length ≤ maxListLength)
      (argList (items.map step)) := by
  refine (Limits.runEach each).bind fun values known => ?_
  rw [known.length_eq]
  exact (Limits.checkLength _ values).last fun _ _ => .pure trivial

/-- One argument stands in front of the others. -/
theorem limits_argList_cons {front : LowerM Expr} (free : LimitsAny True front)
    (each : ∀ item ∈ items, LimitsAny (room item) (step item)) :
    LimitsAny ((∀ item ∈ items, room item) ∧ items.length + 1 ≤ maxListLength)
      (argList (front :: items.map step)) := by
  have run : Limits (∀ item ∈ items, room item) (runEach (front :: items.map step))
      fun values => values.length = items.length + 1 :=
    free.first fun first _ => (Limits.runEach each).last fun others known => .pure <| by
      rw [List.length_cons, known.length_eq]
  refine run.bind fun values known => ?_
  rw [← known]
  exact (Limits.checkLength _ values).last fun _ _ => .pure trivial

end Lists

/-- An operand has the condition, and needs no room if it is pure. -/
structure Part.Limited (room : Prop) (part : Part) : Prop where
  lowers : LimitsAny room part.lower
  plain : part.expr.isPure = true → room

/-- At most one statement stands in front of an operand, whose uses need no room. -/
structure FewBefore (context : Context) (prepared : List Stmt × Operand) : Prop where
  few : prepared.1.length ≤ 1
  uses : ∀ span, LimitsAny True (prepared.2.use context span)

variable {part array position value : Part} {room first second third : Prop}

theorem fewBefore_self : FewBefore context ([], .self) :=
  ⟨Nat.zero_le _, fun _ => .pure trivial⟩

theorem limits_readOnce (fallback : Ty) (limited : part.Limited room) :
    Limits room (readOnce context part fallback) (FewBefore context) := by
  unfold readOnce
  split
  · rename_i own
    have free := iff_true_intro (limited.plain (isPure_of_isReceiver own))
    exact (Limits.pure fewBefore_self).of_iff free.symm
  · refine limited.lowers.last fun lowered _ => ?_
    refine (limits_bindTemp _ lowered).first fun bound _ => .pure ?_
    exact ⟨Nat.le_refl _, fun _ => .pure trivial⟩

theorem limits_operand (fallback : Ty) (limited : part.Limited room) :
    Limits room (operand context part fallback) (FewBefore context) := by
  unfold operand
  split
  · rename_i again
    have free := iff_true_intro (limited.plain ((Bool.and_eq_true _ _).mp again).1)
    refine (Limits.pure ?_).of_iff free.symm
    exact ⟨Nat.zero_le _, fun _ => limited.lowers.of_iff free⟩
  · exact limits_readOnce fallback limited

theorem limits_operandBefore (fallback : Ty) (later : Source.Expr) (limited : part.Limited room) :
    Limits room (operandBefore context part fallback later) (FewBefore context) := by
  unfold operandBefore
  split
  · exact limits_operand fallback limited
  · exact limits_readOnce fallback limited

theorem limits_nullCheck {prepared : List Stmt × Operand} (ready : FewBefore context prepared) :
    Limits True (nullCheck context span prepared.2) fun check => check.length ≤ 1 := by
  unfold nullCheck
  split
  · exact .pure (Nat.zero_le _)
  · exact (ready.uses span).first fun _ _ => .pure (Nat.le_refl _)

/-! ### Arrays -/

theorem limits_slot (ofArray : array.Limited first) (ofPosition : position.Limited second) :
    Limits (first ∧ second) (slot context span array position) fun element =>
      element.1.length ≤ 3 := by
  unfold slot
  refine (limits_operandBefore .object position.expr ofArray).bind fun prepared ready => ?_
  dsimp only
  split
  · refine (ready.uses span).first fun _ _ => ofPosition.lowers.last fun _ _ => .pure ?_
    exact Nat.le_trans ready.few (by decide)
  · refine (limits_operand .int ofPosition).last fun preparedToo readyToo => ?_
    refine (ready.uses span).first fun _ _ => (readyToo.uses span).first fun _ _ => ?_
    refine (ready.uses span).first fun _ _ => (readyToo.uses span).first fun _ _ => .pure ?_
    have few := ready.few
    have fewToo := readyToo.few
    simp only [List.length_append, List.length_singleton]
    omega

theorem limits_readElement (ofArray : array.Limited first) (ofPosition : position.Limited second) :
    LimitsAny (first ∧ second) (readElement context span array position) :=
  (limits_slot ofArray ofPosition).last fun element few =>
    limits_blockExpr_few (Nat.le_trans few (by decide)) element.2

theorem limits_updateElement (op : UnaryOp) (ofArray : array.Limited first)
    (ofPosition : position.Limited second) :
    LimitsAny (first ∧ second) (updateElement context span op array position) :=
  (limits_slot ofArray ofPosition).last fun _ few =>
    limits_blockExpr_few (Nat.le_trans few (by decide)) _

theorem limits_store (ofArray : array.Limited first) (ofPosition : position.Limited second)
    (ofValue : value.Limited third) :
    LimitsAny ((first ∧ second) ∧ third) (store context span array position value) := by
  unfold store
  refine ((limits_operandBefore _ _ ofArray).bind fun prepared ready => ?_).of_iff and_assoc.symm
  refine (limits_operandBefore .int _ ofPosition).bind fun preparedToo readyToo => ?_
  have few := ready.few
  have fewToo := readyToo.few
  dsimp only
  split
  · refine (ready.uses span).first fun _ _ => (readyToo.uses span).first fun _ _ => ?_
    refine ofValue.lowers.last fun _ _ => ?_
    refine limits_blockExpr_few ?_ _
    rw [List.length_append]
    omega
  · refine ofValue.lowers.last fun _ _ => (limits_bindTemp _ _).first fun _ _ => ?_
    refine (ready.uses span).first fun _ _ => (readyToo.uses span).first fun _ _ => ?_
    refine (ready.uses span).first fun _ _ => (readyToo.uses span).first fun _ _ => ?_
    refine limits_blockExpr_few ?_ _
    simp only [List.length_append, List.length_cons, List.length_nil]
    omega

theorem limits_arrayLength (ofArray : array.Limited room) :
    LimitsAny room (arrayLength context span array) := by
  unfold arrayLength
  refine (limits_operand .object ofArray).last fun prepared ready => ?_
  refine (limits_nullCheck ready).first fun check fewToo => ?_
  refine (ready.uses span).first fun _ _ => limits_blockExpr_few ?_ _
  have few := ready.few
  rw [List.length_append]
  omega

/-- A level is made by two statements, unless it is the last. -/
theorem limits_fillLevels (leaf : Ty) (size : Name) (sizes : List Name) :
    Limits True (fillLevels span leaf size sizes) fun level =>
      level.1.length = if sizes.isEmpty then 0 else 2 := by
  induction sizes generalizing size with
  | nil => exact .pure rfl
  | cons next rest step =>
    refine (limits_bindTemp _ _).first fun _ _ => (limits_bindTemp _ _).first fun _ _ => ?_
    exact (step next).first fun _ _ => .pure rfl

theorem limits_bindDimension {dim : LowerM Expr} (limits : LimitsAny room dim) :
    LimitsAny room (bindDimension context span dim) :=
  limits.last fun _ _ => limits_bindTemp _ _

/-- Two statements that fill the outer level follow the lengths of several dimensions. -/
theorem limits_lowerNewArray {ι : Type} {items : List ι} {step : ι → LowerM Expr} {room : ι → Prop}
    (element : Ty) (extra : Nat) (each : ∀ item ∈ items, LimitsAny (room item) (step item)) :
    LimitsAny ((∀ item ∈ items, room item) ∧
        (2 ≤ items.length → items.length + 2 ≤ maxListLength))
      (lowerNewArray context span element (items.map step) extra) := by
  unfold lowerNewArray
  cases items with
  | nil => exact .fail
  | cons item others =>
    rw [List.forall_mem_cons] at each
    cases others with
    | nil =>
      refine (each.1.last fun _ _ => .pure trivial).of_iff ?_
      simp
    | cons next rest =>
      have dims : ∀ item ∈ next :: rest,
          LimitsAny (room item) (bindDimension context span (step item)) :=
        fun item inside => limits_bindDimension (each.2 item inside)
      rw [List.forall_mem_cons, and_assoc]
      refine (limits_bindDimension each.1).bind fun decl _ => ?_
      dsimp only
      rw [← List.map_cons, List.map_map]
      refine (Limits.runEach dims).bind fun bound known => ?_
      refine (limits_fillLevels _ _ _).first fun level two => ?_
      refine (limits_blockExpr _ _).of_iff ?_
      have several : (bound.map (·.2)).isEmpty = false := by
        rw [List.isEmpty_map, List.isEmpty_eq_false_iff, ← List.length_pos_iff_ne_nil,
          ← known.length_eq]
        exact Nat.succ_pos _
      rw [several, if_neg Bool.false_ne_true] at two
      have same := known.length_eq
      simp only [List.length_append, List.length_cons, List.length_map] at same ⊢
      omega

/-! ### Calls -/

/-- A receiver that may be missing has the condition. -/
def ReceiverLimited (room : Prop) (receiver : Option Part) : Prop :=
  match receiver with
  | none => room
  | some part => part.Limited room

/-- Whether lowering puts the receiver in front of the arguments of a call. -/
def handsReceiver (context : Context) (tag : Source.Tag) (receiver : Option Source.Expr)
    (method : Name) : Bool :=
  !isConsoleOutput context receiver method && (context.sites.get? tag.id).isSome &&
    match context.facade.dispatch tag.id with
    | some .direct | some .virtual => true
    | _ => false

section Calls

variable {ι : Type} {items : List ι} {step : ι → LowerM Expr} {room : ι → Prop} {received : Prop}
  {parts : CallParts} {site : CallSite}

theorem limits_receiverOperand (receives : ReceiverLimited received parts.receiver) :
    Limits received (receiverOperand context routine parts site) (FewBefore context) := by
  unfold receiverOperand
  cases written : parts.receiver with
  | some part =>
    rw [written] at receives
    exact limits_operand _ receives
  | none =>
    rw [written] at receives
    dsimp only
    split
    · exact (Limits.pure fewBefore_self).of_iff (iff_true_intro receives).symm
    · exact .fail

theorem limits_receiverEffect {receiver : Option Part}
    (receives : ReceiverLimited received receiver) :
    Limits received (receiverEffect receiver) fun effect => effect.length ≤ 1 := by
  unfold receiverEffect
  cases receiver with
  | none =>
    refine (Limits.pure ?_).of_iff (iff_true_intro receives).symm
    exact Nat.zero_le _
  | some part =>
    have receives : part.Limited received := receives
    dsimp only
    split
    · rename_i isPure
      refine (Limits.pure ?_).of_iff (iff_true_intro (receives.plain isPure)).symm
      exact Nat.zero_le _
    · exact receives.lowers.last fun _ _ => .pure (Nat.le_refl _)

variable (each : ∀ item ∈ items, LimitsAny (room item) (step item))
  (passes : parts.args = items.map step)

include each passes

theorem limits_printCall : LimitsAny ((∀ item ∈ items, room item) ∧ items.length ≤ maxListLength)
    (printCall parts) := by
  unfold printCall
  rw [passes]
  exact (limits_argList each).last fun _ _ => .pure trivial

theorem limits_unresolvedCall (receives : ReceiverLimited received parts.receiver) :
    LimitsAny (received ∧ (∀ item ∈ items, room item) ∧ items.length ≤ maxListLength)
      (unresolvedCall context parts) := by
  have onward (receiver : Expr) :
      LimitsAny ((∀ item ∈ items, room item) ∧ items.length ≤ maxListLength) (do
        let args ← argList parts.args
        return Expr.unresolvedCall parts.tag.span receiver parts.method args) := by
    rw [passes]
    exact (limits_argList each).last fun _ _ => .pure trivial
  unfold unresolvedCall
  dsimp only
  split
  · exact Limits.fail.bind fun _ (never : False) => never.elim
  · cases written : parts.receiver with
    | some part =>
      rw [written] at receives
      exact receives.lowers.bind fun receiver _ => onward receiver
    | none =>
      rw [written] at receives
      exact (onward .absent).of_iff (and_iff_right receives).symm

theorem limits_staticCall (receives : ReceiverLimited received parts.receiver) :
    LimitsAny (received ∧ (∀ item ∈ items, room item) ∧ items.length ≤ maxListLength)
      (staticCall parts site) := by
  unfold staticCall
  rw [passes]
  refine (limits_receiverEffect receives).bind fun effect few => ?_
  exact (limits_argList each).last fun _ _ =>
    limits_blockExpr_few (Nat.le_trans few (by decide)) _

theorem limits_directCall (receives : ReceiverLimited received parts.receiver) :
    LimitsAny (received ∧ (∀ item ∈ items, room item) ∧ items.length + 1 ≤ maxListLength)
      (directCall context routine parts site) := by
  unfold directCall receiverArgs
  dsimp only
  rw [passes]
  split
  · rename_i isSuper
    have free : received := by
      obtain ⟨part, written, isSuper⟩ := (Option.any_eq_true _ _).mp isSuper
      rw [written] at receives
      exact Part.Limited.plain receives (isPure_of_isSuper isSuper)
    refine ((limits_argList_cons (.pure trivial) each).last fun _ _ => .pure trivial).of_iff ?_
    exact (and_iff_right free).symm
  · refine (limits_receiverOperand receives).bind fun prepared ready => ?_
    refine (ready.uses _).first fun _ _ => ?_
    exact (limits_argList_cons (ready.uses _) each).last fun _ _ =>
      limits_blockExpr_few (Nat.le_trans ready.few (by decide)) _

theorem limits_virtualCall (receives : ReceiverLimited received parts.receiver) :
    LimitsAny (received ∧ (∀ item ∈ items, room item) ∧ items.length + 1 ≤ maxListLength)
      (virtualCall context routine parts site) := by
  have slot : LimitsAny True (virtualSlot context parts.tag.span site) := by
    unfold virtualSlot
    split
    · exact .fail
    · split
      · exact .fail
      · exact .pure trivial
  unfold virtualCall receiverArgs
  rw [passes]
  refine slot.first fun _ _ => ?_
  refine (limits_receiverOperand receives).bind fun prepared ready => ?_
  refine (limits_nullCheck ready).first fun check fewToo => ?_
  refine (ready.uses _).first fun _ _ => ?_
  refine (limits_argList_cons (ready.uses _) each).last fun _ _ => limits_blockExpr_few ?_ _
  have few := ready.few
  rw [List.length_append]
  omega

/-- **A call has room for its receiver in front of its arguments**, where lowering puts it there. -/
theorem limits_lowerCall (receives : ReceiverLimited received parts.receiver)
    (short : items.length ≤ maxListLength) :
    LimitsAny (received ∧ (∀ item ∈ items, room item) ∧
        (handsReceiver context parts.tag (parts.receiver.map (·.expr)) parts.method = true →
          items.length + 1 ≤ maxListLength))
      (lowerCall context routine parts) := by
  unfold lowerCall handsReceiver
  cases prints : isConsoleOutput context (parts.receiver.map (·.expr)) parts.method with
  | true =>
    obtain ⟨_, named, isPure⟩ := isPure_of_isConsoleOutput prints
    obtain ⟨part, written, rfl⟩ := Option.map_eq_some_iff.mp named
    have free : received := by
      rw [written] at receives
      exact Part.Limited.plain receives isPure
    refine (limits_printCall each passes).of_iff ?_
    simp [free, short]
  | false =>
    rw [if_neg Bool.false_ne_true]
    cases context.sites.get? parts.tag.id with
    | none =>
      refine (limits_unresolvedCall each passes receives).of_iff ?_
      simp [short]
    | some site =>
      cases context.facade.dispatch parts.tag.id with
      | none => exact .fail
      | some kind =>
        cases kind with
        | static =>
          refine (limits_staticCall each passes receives).of_iff ?_
          simp [short]
        | direct =>
          refine (limits_directCall each passes receives).of_iff ?_
          simp
        | virtual =>
          refine (limits_virtualCall each passes receives).of_iff ?_
          simp

end Calls

section Construction

variable {ι : Type} {items : List ι} {step : ι → LowerM Expr} {room : ι → Prop}
  (each : ∀ item ∈ items, LimitsAny (room item) (step item))

include each

theorem limits_chainCall (target : ChainTarget) :
    LimitsAny ((∀ item ∈ items, room item) ∧ items.length + 1 ≤ maxListLength)
      (chainCall context routine span target (items.map step)) :=
  (limits_argList_cons (.pure trivial) each).last fun _ _ => .pure trivial

theorem limits_lowerNewObject (className : Name) :
    LimitsAny ((∀ item ∈ items, room item) ∧ items.length + 1 ≤ maxListLength)
      (lowerNewObject span className (items.map step)) :=
  (limits_argList_cons (.pure trivial) each).last fun _ _ => .pure trivial

end Construction

end Lowering

end ObjectLowering
