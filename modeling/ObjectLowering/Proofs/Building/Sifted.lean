/-
**A step that refuses open calls, beside the same step that keeps them.**

Two steps are run on one arena, which has no call without a target. The strict one comes to exactly
those results of the lenient one whose arena has no such call either. An arena only grows, so a call
without a target that was added once is seen in the end; that is why nothing has to be known of the
numbers that the steps give.

* `Building.Keeps` is about a step that comes out alike in both runs.
* `Building.Narrows`, `Building.Sifts`: one step beside the other, outside of routines and within.
* `Operand.Sifts`: an operand that is used alike in both runs.
* `sifts_operand`, `sifts_nullCheck`: operands and what is done with them.
-/

import ObjectLowering.Building.Class
import ObjectLowering.Proofs.Building.Nodes
import ObjectLowering.Proofs.Lowering.Ensures

namespace ObjectLowering

namespace Lowered

/-- Whether a node is a call without a target. -/
def Node.isOpenCall : Node → Bool
  | .unresolvedCall .. => true
  | _ => false

namespace FlatArena

/-- No node is a call without a target. -/
def Closed (arena : FlatArena) : Prop := ∀ node ∈ arena.exprs, node.2.isOpenCall = false

variable {arena later : FlatArena}

theorem closed_empty : Closed .empty := fun _ member => (nomatch member)

/-- What an arena has, every later one has, too. -/
theorem Extends.closed (grown : arena.Extends later) (closed : later.Closed) : arena.Closed := by
  intro node member
  obtain ⟨id, inside, found⟩ := Array.getElem_of_mem member
  have here : arena.expr? id = some node := by
    show arena.exprs[id]? = some node
    rw [Array.getElem?_eq_getElem inside, found]
  have there : later.exprs[id]? = some node := grown.expr id node here
  exact closed node (Array.mem_of_getElem? there)

theorem Closed.addExpr (closed : arena.Closed) {expr : Span × Node}
    (other : expr.2.isOpenCall = false) : Closed (arena.addExpr expr).2 := by
  intro node member
  rcases Array.mem_push.mp member with before | rfl
  · exact closed node before
  · exact other

/-- A call without a target is seen. -/
theorem not_closed_addExpr {expr : Span × Node} (isOpen : expr.2.isOpenCall = true) :
    ¬Closed (arena.addExpr expr).2 := fun closed =>
  Bool.false_ne_true ((closed expr Array.mem_push_self).symm.trans isOpen)

end FlatArena

end Lowered

namespace Building

open Lowered (CheckKind FlatArena FlatStmt Node)
open Lowering (Context)

variable {α β γ δ : Type}

/-! ### One step in both runs -/

/-- A step that only adds to an arena, and no call without a target. -/
def Keeps (step : ArenaM α) : Prop :=
  ∀ arena made later, step.run arena = .ok (made, later) →
    arena.Extends later ∧ (arena.Closed → later.Closed)

namespace Keeps

variable {step : ArenaM α} {next : α → ArenaM β}

theorem pure (made : α) : Keeps (pure made) := fun _ _ _ done => by
  cases done
  exact ⟨.refl _, id⟩

theorem bind (first : Keeps step) (others : ∀ made, Keeps (next made)) :
    Keeps (step >>= next) := fun _ _ _ done => by
  obtain ⟨_, _, here, there⟩ := run_of_bind done
  have before := first _ _ _ here
  have after := others _ _ _ _ there
  exact ⟨before.1.trans after.1, after.2 ∘ before.2⟩

end Keeps

theorem keeps_addExpr (span : Span) {node : Node} (other : node.isOpenCall = false) :
    Keeps (addExpr span node) := fun _ _ _ done => by
  rw [run_addExpr] at done
  split at done <;> cases done
  exact ⟨FlatArena.extends_addExpr _ _, fun closed => closed.addExpr other⟩

theorem keeps_addStmt (stmt : FlatStmt) : Keeps (addStmt stmt) := fun _ _ _ done => by
  rw [run_addStmt] at done
  split at done <;> cases done
  exact ⟨FlatArena.extends_addStmt _ _, id⟩

theorem keeps_addExprs (ids : List NodeId) : Keeps (addExprs ids) := fun arena _ _ done => by
  rw [run_addExprs] at done
  split at done
  · obtain ⟨_, _, built⟩ := ok_of_map done
    cases built
    refine ⟨FlatArena.extends_addExprList .loweredExpr arena ids, fun closed => ?_⟩
    rw [Arena.addExprList_parts]
    exact closed
  · cases done

theorem keeps_addStmts (ids : List NodeId) : Keeps (addStmts ids) := fun arena _ _ done => by
  rw [run_addStmts] at done
  split at done
  · obtain ⟨_, _, built⟩ := ok_of_map done
    cases built
    refine ⟨FlatArena.extends_addStmtList .loweredStmt arena ids, fun closed => ?_⟩
    rw [Arena.addStmtList_parts]
    exact closed
  · cases done

/-! ### Two runs -/

/-- From an arena without open calls, the strict step comes to those results of the lenient one
whose arena has none either. What the lenient step gives always has a counterpart. -/
structure Narrows (related : α → β → Prop) (strict : ArenaM α) (lenient : ArenaM β) : Prop where
  grows : ∀ {arena other later}, lenient.run arena = .ok (other, later) →
    arena.Extends later ∧ ∃ made, related made other
  keeps : ∀ {arena made later}, arena.Closed → strict.run arena = .ok (made, later) →
    later.Closed ∧ ∃ other, lenient.run arena = .ok (other, later) ∧ related made other
  reaches : ∀ {arena other later}, lenient.run arena = .ok (other, later) → later.Closed →
    ∃ made, strict.run arena = .ok (made, later) ∧ related made other

namespace Narrows

variable {strict : ArenaM α} {lenient : ArenaM β} {middle : α → β → Prop}
  {next : α → ArenaM γ} {go : β → ArenaM δ} {related : γ → δ → Prop}

theorem pure {made : α} {other : β} (known : middle made other) :
    Narrows middle (pure made) (pure other) where
  grows done := by
    cases done
    exact ⟨.refl _, made, known⟩
  keeps closed done := by
    cases done
    exact ⟨closed, other, rfl, known⟩
  reaches done _ := by
    cases done
    exact ⟨made, rfl, known⟩

theorem fail {failure other : BuildFailure} :
    Narrows middle (throw failure) (throw other) where
  grows done := nomatch done
  keeps _ done := nomatch done
  reaches done := nomatch done

/-- A call without a target that the first step adds is still there after the second. -/
theorem bind (first : Narrows middle strict lenient)
    (others : ∀ made other, middle made other → Narrows related (next made) (go other)) :
    Narrows related (strict >>= next) (lenient >>= go) where
  grows done := by
    obtain ⟨other, reached, here, there⟩ := run_of_bind done
    obtain ⟨before, made, known⟩ := first.grows here
    obtain ⟨after, found⟩ := (others made other known).grows there
    exact ⟨before.trans after, found⟩
  keeps closed done := by
    obtain ⟨made, reached, here, there⟩ := run_of_bind done
    obtain ⟨closed, other, ran, known⟩ := first.keeps closed here
    obtain ⟨closed, found, done, related⟩ := (others made other known).keeps closed there
    refine ⟨closed, found, ?_, related⟩
    rw [StateT.run_bind, ran]
    exact done
  reaches done closed := by
    obtain ⟨other, reached, here, there⟩ := run_of_bind done
    obtain ⟨_, guess, known⟩ := first.grows here
    obtain ⟨after, _⟩ := (others guess other known).grows there
    obtain ⟨made, ran, known⟩ := first.reaches here (after.closed closed)
    obtain ⟨found, done, related⟩ := (others made other known).reaches there closed
    refine ⟨found, ?_, related⟩
    rw [StateT.run_bind, ran]
    exact done

/-- A step that gives the same in both runs. -/
theorem seq {strict lenient : ArenaM α} {next go : α → ArenaM γ} {related : γ → γ → Prop}
    (first : Narrows Eq strict lenient) (others : ∀ made, Narrows related (next made) (go made)) :
    Narrows related (strict >>= next) (lenient >>= go) :=
  first.bind fun made _ same => same ▸ others made

theorem same {step : ArenaM α} (keeps : Keeps step) : Narrows Eq step step where
  grows done := ⟨(keeps _ _ _ done).1, _, rfl⟩
  keeps closed done := ⟨(keeps _ _ _ done).2 closed, _, done, rfl⟩
  reaches done _ := ⟨_, done, rfl⟩

/-- Steps of the lenient run before the one that the strict run refuses. -/
theorem refuse {failure : BuildFailure} (first : Narrows middle strict lenient)
    (others : ∀ other, Narrows related (throw failure) (go other)) :
    Narrows related (throw failure) (lenient >>= go) where
  grows done := by
    obtain ⟨other, reached, here, there⟩ := run_of_bind done
    obtain ⟨before, _⟩ := first.grows here
    obtain ⟨after, found⟩ := (others other).grows there
    exact ⟨before.trans after, found⟩
  keeps _ done := nomatch done
  reaches done closed := by
    obtain ⟨other, reached, here, there⟩ := run_of_bind done
    obtain ⟨_, ran, _⟩ := (others other).reaches there closed
    exact nomatch ran

/-- The strict run refuses what the lenient run keeps as a call without a target. -/
theorem openCall {failure : BuildFailure} {span : Span} {node : Node}
    (isOpen : node.isOpenCall = true) : Narrows Eq (throw failure) (addExpr span node) where
  grows done := by
    rw [run_addExpr] at done
    split at done <;> cases done
    exact ⟨FlatArena.extends_addExpr _ _, _, rfl⟩
  keeps _ done := nomatch done
  reaches done closed := by
    rw [run_addExpr] at done
    split at done <;> cases done
    exact absurd closed (FlatArena.not_closed_addExpr isOpen)

theorem mapM {ι : Type} {items : List ι} {strict lenient : ι → ArenaM α}
    (each : ∀ item ∈ items, Narrows Eq (strict item) (lenient item)) :
    Narrows Eq (items.mapM strict) (items.mapM lenient) := by
  induction items with
  | nil => exact pure rfl
  | cons item rest step =>
    rw [List.forall_mem_cons] at each
    rw [List.mapM_cons, List.mapM_cons]
    exact each.1.seq fun made => (step each.2).seq fun others => pure rfl

end Narrows

/-- Whatever the count of temporaries, one step narrows the other and counts as it does. -/
def Sifts (related : α → β → Prop) (strict : BuildM α) (lenient : BuildM β) : Prop :=
  ∀ count, Narrows (fun made other => related made.1 other.1 ∧ made.2 = other.2)
    (strict.run count) (lenient.run count)

namespace Sifts

variable {strict : BuildM α} {lenient : BuildM β} {middle : α → β → Prop}
  {next : α → BuildM γ} {go : β → BuildM δ} {related : γ → δ → Prop}

theorem pure {made : α} {other : β} (known : middle made other) :
    Sifts middle (pure made) (pure other) := fun _ => .pure ⟨known, rfl⟩

theorem fail {error other : LoweringError} :
    Sifts middle (Building.fail error) (Building.fail other) := fun _ => .fail

theorem bind (first : Sifts middle strict lenient)
    (others : ∀ made other, middle made other → Sifts related (next made) (go other)) :
    Sifts related (strict >>= next) (lenient >>= go) := by
  intro count
  rw [StateT.run_bind, StateT.run_bind]
  refine (first count).bind ?_
  rintro ⟨made, counted⟩ ⟨other, alike⟩ ⟨known, same⟩
  cases same
  exact others made other known counted

/-- A step that gives the same in both runs. -/
theorem seq {strict lenient : BuildM α} {next go : α → BuildM γ} {related : γ → γ → Prop}
    (first : Sifts Eq strict lenient) (others : ∀ made, Sifts related (next made) (go made)) :
    Sifts related (strict >>= next) (lenient >>= go) :=
  first.bind fun made _ same => same ▸ others made

theorem lift {strict : ArenaM α} {lenient : ArenaM β} (narrows : Narrows middle strict lenient) :
    Sifts middle (liftM strict) (liftM lenient) := by
  intro count
  show Narrows _ (strict >>= fun made => Pure.pure (made, count))
    (lenient >>= fun other => Pure.pure (other, count))
  exact narrows.bind fun _ _ known => .pure ⟨known, rfl⟩

/-- A step that only adds to the arena. -/
theorem add {step : ArenaM α} (keeps : Keeps step) : Sifts Eq (liftM step) (liftM step) :=
  lift (.same keeps)

theorem runEach {strict lenient : List (BuildM α)}
    (each : List.Forall₂ (Sifts Eq) strict lenient) :
    Sifts Eq (Lowering.runEach strict) (Lowering.runEach lenient) := by
  induction each with
  | nil => exact pure rfl
  | cons first _ others => exact first.seq fun made => others.seq fun rest => pure rfl

theorem refuse {error : LoweringError} (first : Sifts middle strict lenient)
    (others : ∀ other, Sifts related (Building.fail error) (go other)) :
    Sifts related (Building.fail error) (lenient >>= go) := by
  intro count
  rw [StateT.run_bind]
  exact (first count).refuse fun other => others other.1 other.2

theorem openCall {error : LoweringError} {span : Span} {node : Node}
    (isOpen : node.isOpenCall = true) :
    Sifts Eq (Building.fail error) (liftM (addExpr span node)) :=
  lift (.openCall isOpen)

/-- A routine alone counts its temporaries from zero. -/
theorem inRoutine {strict lenient : BuildM α} (sifts : Sifts Eq strict lenient) :
    Narrows Eq (Building.inRoutine strict) (Building.inRoutine lenient) := by
  show Narrows Eq (strict.run 0 >>= fun made => Pure.pure made.1)
    (lenient.run 0 >>= fun made => Pure.pure made.1)
  exact (sifts 0).bind fun _ _ known => .pure known.1

end Sifts

/-! ### Steps that are the same in both runs -/

section Same

variable {span : Span}

theorem keeps_blockExpr (stmts : List NodeId) (result : NodeId) :
    Keeps (blockExpr span stmts result) := by
  unfold blockExpr
  split
  · exact .pure result
  · exact (keeps_addStmts stmts).bind fun _ => keeps_addExpr span rfl

theorem keeps_blockStmt (stmts : List NodeId) : Keeps (blockStmt stmts) :=
  (keeps_addStmts stmts).bind fun _ => keeps_addStmt _

theorem keeps_check (kind : CheckKind) (args : List NodeId) : Keeps (check span kind args) :=
  (keeps_addExprs args).bind fun _ => keeps_addExpr span rfl

theorem keeps_checkStmt (kind : CheckKind) (args : List NodeId) :
    Keeps (checkStmt span kind args) :=
  (keeps_check kind args).bind fun _ => keeps_addStmt _

theorem keeps_selfExpr (context : Context) (span : Span) : Keeps (selfExpr context span) :=
  keeps_addExpr span rfl

theorem keeps_defaultExpr (span : Span) (literal : DefaultLiteral) :
    Keeps (defaultExpr span literal) := by
  cases literal <;> exact keeps_addExpr span rfl

theorem sifts_freshTemp : Sifts Eq freshTemp freshTemp := fun _ => .pure ⟨rfl, rfl⟩

theorem sifts_bindTemp (type : Ty) (value : NodeId) :
    Sifts Eq (bindTemp type value) (bindTemp type value) :=
  sifts_freshTemp.seq fun _ => (Sifts.add (keeps_addStmt _)).seq fun _ => .pure rfl

end Same

/-! ### Operands -/

/-- The context in which calls without a target are refused, or not. -/
abbrev strictly (context : Context) (strict : Bool) : Context :=
  context.withOptions { context.options with strict }

theorem nullChecks_strictly (context : Context) (strict : Bool) :
    (strictly context strict).options.nullChecks = context.options.nullChecks := rfl

theorem arrayChecks_strictly (context : Context) (strict : Bool) :
    (strictly context strict).options.arrayChecks = context.options.arrayChecks := rfl

/-- Parts of one expression that is built alike in both runs. -/
structure Part.Sifts (part other : Part) : Prop where
  expr : part.expr = other.expr
  sifts : Building.Sifts Eq part.build other.build

/-- Operands that are used alike in both runs. -/
inductive Operand.Sifts : Operand → Operand → Prop
  | reread {strict lenient : BuildM NodeId} (sifts : Building.Sifts Eq strict lenient) :
      Sifts (.reread strict) (.reread lenient)
  | temp (name : Name) : Sifts (.temp name) (.temp name)
  | self : Sifts .self .self

/-- What prepares an operand gives the same declarations in both runs. -/
abbrev SiftsOperand (strict lenient : BuildM (List NodeId × Operand)) : Prop :=
  Sifts (fun made other => made.1 = other.1 ∧ made.2.Sifts other.2) strict lenient

variable {context : Context} {part other : Part} {operand used : Operand}

theorem Operand.Sifts.isSelf_eq (same : operand.Sifts used) : operand.isSelf = used.isSelf := by
  cases same <;> rfl

theorem sifts_use (same : operand.Sifts used) (span : Span) :
    Sifts Eq (operand.use (strictly context true) span)
      (used.use (strictly context false) span) := by
  cases same with
  | reread sifts => exact sifts
  | temp name => exact .add (keeps_addExpr span rfl)
  | self => exact .add (keeps_selfExpr context span)

theorem sifts_readOnce (same : part.Sifts other) (fallback : Ty) :
    SiftsOperand (readOnce (strictly context true) part fallback)
      (readOnce (strictly context false) other fallback) := by
  unfold readOnce
  rw [same.expr]
  split
  · exact .pure ⟨rfl, .self⟩
  · exact same.sifts.bind fun value _ same => same ▸
      (sifts_bindTemp _ value).bind fun bound _ alike => alike ▸ .pure ⟨rfl, .temp bound.2⟩

theorem sifts_operand (same : part.Sifts other) (fallback : Ty) :
    SiftsOperand (Building.operand (strictly context true) part fallback)
      (Building.operand (strictly context false) other fallback) := by
  unfold Building.operand
  rw [same.expr]
  split
  · exact .pure ⟨rfl, .reread same.sifts⟩
  · exact sifts_readOnce same fallback

theorem sifts_operandBefore (same : part.Sifts other) (fallback : Ty) (later : Source.Expr) :
    SiftsOperand (operandBefore (strictly context true) part fallback later)
      (operandBefore (strictly context false) other fallback later) := by
  unfold operandBefore
  rw [same.expr]
  split
  · exact sifts_operand same fallback
  · exact sifts_readOnce same fallback

theorem sifts_nullCheck (same : operand.Sifts used) (span : Span) :
    Sifts Eq (nullCheck (strictly context true) span operand)
      (nullCheck (strictly context false) span used) := by
  unfold nullCheck
  rw [same.isSelf_eq, nullChecks_strictly, nullChecks_strictly]
  split
  · exact .pure rfl
  · exact (sifts_use same span).seq fun value =>
      (Sifts.add (keeps_checkStmt .notNull [value])).seq fun check => .pure rfl

end Building

end ObjectLowering
