/-
**What a lowering ensures about its result.**

Lowering counts temporaries and may fail. `Ensures` speaks of the runs that come to a result, from
any count, and of nothing but that result. A failure ensures everything.

* `Context.withOptions`: what lowering reads, but for its options.
* `Ensures.bind` takes a sequence of steps apart.
* `Ensures.runEach`: a list of steps ensures what they ensure one by one; `Ensures.runAll`: what
  they all ensure.
* `Fixed` is a value that stands fast before anything later runs.
* `ensures_operand`, `ensures_operandBefore`: when a value that is used more than once is fixed.
-/

import Mathlib.Data.List.Forall2
import ObjectLowering.Program
import ObjectLowering.Proofs.Lowering.Success

namespace ObjectLowering

/-- What lowering the unit at a position of a program reads: the true facade and all facts. -/
def Program.context? (program : Program) (names : NameTable) (options : LoweringOptions)
    (index : Nat) : Option Lowering.Context :=
  (program.facts names options).toOption.bind fun facts =>
    (program.parts .unchanged)[index]?.map fun (_, facade) =>
      ⟨facade, facts.mangle.sites index, facts, options⟩

namespace Lowering

/-! ### Other options -/

/-- The context with other options. -/
def Context.withOptions (context : Context) (options : LoweringOptions) : Context :=
  { context with options }

section Options

variable (context : Context) (options : LoweringOptions)

@[simp]
theorem facade_withOptions : (context.withOptions options).facade = context.facade := rfl

@[simp]
theorem sites_withOptions : (context.withOptions options).sites = context.sites := rfl

@[simp]
theorem facts_withOptions : (context.withOptions options).facts = context.facts := rfl

@[simp]
theorem typeOr_withOptions (expr : Source.Expr) (fallback : Ty) :
    typeOr (context.withOptions options) expr fallback = typeOr context expr fallback := rfl

@[simp]
theorem storedType_withOptions (type : Ty) (expr : Source.Expr) :
    storedType (context.withOptions options) type expr = storedType context type expr := rfl

@[simp]
theorem staticOwner?_withOptions (id receiver : NodeId) :
    staticOwner? (context.withOptions options) id receiver = staticOwner? context id receiver := rfl

@[simp]
theorem isConsoleOutput_withOptions (receiver : Option Source.Expr) (method : Name) :
    isConsoleOutput (context.withOptions options) receiver method =
      isConsoleOutput context receiver method := rfl

@[simp]
theorem virtualSlot_withOptions (span : Span) (site : CallSite) :
    virtualSlot (context.withOptions options) span site = virtualSlot context span site := rfl

end Options

/-! ### Results -/

/-- Whatever the count of temporaries, a result of the step has the property. -/
def Ensures {α : Type} (step : LowerM α) (property : α → Prop) : Prop :=
  ∀ start value stop, step.run start = .ok (value, stop) → property value

namespace Ensures

variable {α β : Type} {step : LowerM α} {next : α → LowerM β} {property other : α → Prop}
  {result : β → Prop}

theorem mono (ensures : Ensures step property) (weaker : ∀ value, property value → other value) :
    Ensures step other := fun start value stop done => weaker value (ensures start value stop done)

theorem pure {value : α} (known : property value) : Ensures (pure value) property := by
  intro start found stop done
  cases done
  exact known

theorem fail {error : LoweringError} : Ensures (fail error) property := by
  intro start found stop done
  cases done

theorem bind (first : Ensures step property)
    (second : ∀ value, property value → Ensures (next value) result) :
    Ensures (step >>= next) result := by
  intro start value stop done
  obtain ⟨middle, count, here, there⟩ := run_of_bind done
  exact second middle (first start middle count here) count value stop there

theorem after (second : ∀ value, Ensures (next value) result) : Ensures (step >>= next) result :=
  bind (fun _ _ _ _ => trivial) fun value (_ : True) => second value

/-- Steps that run one after the other ensure of their results what each ensures of its own. -/
theorem runEach {ι : Type} {steps : List (LowerM α)} {items : List ι} {property : ι → α → Prop}
    (each : List.Forall₂ (fun step item => Ensures step (property item)) steps items) :
    Ensures (runEach steps) (List.Forall₂ property items) := by
  induction each with
  | nil => exact pure .nil
  | cons first _ others =>
    exact first.bind fun _ here => others.bind fun _ there => pure (.cons here there)

/-- Steps that all ensure the same. -/
theorem runAll {steps : List (LowerM α)} (each : ∀ step ∈ steps, Ensures step property) :
    Ensures (Lowering.runEach steps) fun values => ∀ value ∈ values, property value := by
  induction steps with
  | nil => exact pure (List.forall_mem_nil _)
  | cons step rest induct =>
    rw [List.forall_mem_cons] at each
    exact each.1.bind fun first here => (induct each.2).bind fun others there =>
      pure (List.forall_mem_cons.mpr ⟨here, there⟩)

theorem ignoreLength {ι : Type} {kind : NodeKind} {items : List ι}
    (ensures : Ensures step property) : Ensures (do checkLength kind items; step) property :=
  .after fun _ => ensures

/-- A routine has what its step ensures. -/
theorem of_inRoutine (ensures : Ensures step property) {value : α}
    (done : inRoutine step = .ok value) : property value := by
  obtain ⟨⟨_, stop⟩, ran, rfl⟩ := ok_of_map done
  exact ensures 0 _ stop ran

end Ensures

/-! ### Values behind statements -/

/-- What a value behind statements is. -/
def behind (span : Span) (stmts : List Lowered.Stmt) (result : Lowered.Expr) : Lowered.Expr :=
  if stmts.isEmpty then result else .block span stmts result

theorem ensures_blockExpr (span : Span) (stmts : List Lowered.Stmt) (result : Lowered.Expr) :
    Ensures (blockExpr span stmts result) fun lowered => lowered = behind span stmts result := by
  unfold blockExpr behind
  split
  · exact .pure rfl
  · exact .after fun _ => .pure rfl

theorem ensures_bindTemp (type : Ty) (value : Lowered.Expr) :
    Ensures (bindTemp type value) fun bound => bound.1 = .localVar type bound.2 value :=
  .after fun _ => .pure rfl

/-! ### Pure expressions -/

theorem isPure_of_isConstant {expr : Source.Expr} (constant : expr.isConstant = true) :
    expr.isPure = true := by
  cases expr <;> first | rfl | cases constant

theorem isPure_of_isReceiver {expr : Source.Expr} (own : expr.isReceiver = true) :
    expr.isPure = true := by
  cases expr <;> first | rfl | cases own

theorem isPure_of_isSuper {expr : Source.Expr} (named : expr.isSuper = true) :
    expr.isPure = true := by
  cases expr <;> first | rfl | cases named

/-- What stands before a console output is `System.out`. -/
theorem isPure_of_isConsoleOutput {context : Context} {receiver : Option Source.Expr}
    {method : Name} (output : isConsoleOutput context receiver method = true) :
    ∃ expr, receiver = some expr ∧ expr.isPure = true := by
  unfold isConsoleOutput at output
  rw [Bool.and_eq_true] at output
  obtain ⟨_, shape⟩ := output
  split at shape
  · exact ⟨_, rfl, rfl⟩
  · cases shape

/-! ### Operands -/

/-- Whether a value that is used more than once may be evaluated again at each use: it is neither a
literal, which nothing changes, nor the receiver, which is named. -/
def isReread (expr : Source.Expr) : Bool :=
  expr.isPure && !expr.isConstant && !expr.isReceiver

/-- A value that stands fast: a literal, the receiver, or a temporary that was declared with it. -/
inductive Fixed (part : Part) (property : Lowered.Expr → Prop) : List Lowered.Stmt → Operand → Prop
  | literal (constant : part.expr.isConstant = true) : Fixed part property [] (.reread part.lower)
  | receiver (own : part.expr.isReceiver = true) : Fixed part property [] .self
  | temp {type : Ty} {name : Name} {value : Lowered.Expr} (evaluated : property value) :
    Fixed part property [.localVar type name value] (.temp name)

section Operands

variable {part : Part} {property : Lowered.Expr → Prop} (context : Context) (fallback : Ty)

theorem ensures_readOnce (lowers : Ensures part.lower property) :
    Ensures (readOnce context part fallback) fun prepared =>
      Fixed part property prepared.1 prepared.2 := by
  unfold readOnce
  split
  · rename_i own
    exact .pure (.receiver own)
  · refine lowers.bind ?_
    intro value evaluated
    refine (ensures_bindTemp _ value).bind fun bound declared => .pure ?_
    show Fixed part property [bound.1] (.temp bound.2)
    rw [declared]
    exact .temp evaluated

theorem ensures_operand (lowers : Ensures part.lower property) :
    Ensures (operand context part fallback) fun prepared =>
      if isReread part.expr then prepared = ([], .reread part.lower)
      else Fixed part property prepared.1 prepared.2 := by
  unfold operand
  by_cases again : (part.expr.isPure && !part.expr.isReceiver) = true
  · rw [if_pos again]
    refine .pure ?_
    cases constant : part.expr.isConstant with
    | false =>
      rw [if_pos (by unfold isReread; simpa [constant] using again)]
    | true =>
      rw [if_neg (by unfold isReread; simp [constant])]
      exact .literal constant
  · rw [if_neg again]
    have fixed : ¬isReread part.expr = true := by
      unfold isReread
      intro reread
      apply again
      simp only [Bool.and_eq_true] at reread ⊢
      exact ⟨reread.1.1, reread.2⟩
    refine (ensures_readOnce context fallback lowers).mono ?_
    intro _ known
    rwa [if_neg fixed]

/-- **A value is fixed before something else runs**, unless both may be evaluated again. -/
theorem ensures_operandBefore (lowers : Ensures part.lower property) (later : Source.Expr) :
    Ensures (operandBefore context part fallback later) fun prepared =>
      if later.isPure && isReread part.expr then prepared = ([], .reread part.lower)
      else Fixed part property prepared.1 prepared.2 := by
  unfold operandBefore
  by_cases unhurried : (later.isPure || part.expr.isConstant) = true
  · rw [if_pos unhurried]
    refine (ensures_operand context fallback lowers).mono ?_
    intro prepared known
    have same : (later.isPure && isReread part.expr) = isReread part.expr := by
      unfold isReread
      cases isPure : later.isPure with
      | true => rfl
      | false =>
        rw [isPure, Bool.false_or] at unhurried
        simp [unhurried]
    rwa [same]
  · rw [if_neg unhurried]
    rw [Bool.or_eq_true, not_or, Bool.not_eq_true, Bool.not_eq_true] at unhurried
    refine (ensures_readOnce context fallback lowers).mono ?_
    intro prepared known
    rwa [unhurried.1, Bool.false_and, if_neg Bool.false_ne_true]

end Operands

end Lowering

end ObjectLowering
