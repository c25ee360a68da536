/-
**Lowering a pure expression again gives the same tree.**

A pure expression is lowered anew for every use. Nothing that lowering it does depends on the count
of temporaries or on the routine, and it takes no temporary and cannot fail: there are only names,
literals, fields and lengths of arrays in it, whose array is pure again. Whatever the facade
answers, the tree has nothing in it that an evaluation could change something with.

* `Lowering.Steady` says that a step comes out alike from every count and leaves the count alone.
* `Lowering.Reproduces` says that it also succeeds, with a result that has a property;
  `Reproduces.bind` puts such steps one behind the other.
* `Lowered.Expr.onlyReads` are the trees of reads, literals and checks, `Lowering.Rereads` are the
  steps that reproduce one.
* `Lowering.rereads_arrayLength`, `Lowering.rereads_memberAccess`: a member of a pure receiver.
* **`Source.Expr.rereads_lower`**: lowering a pure expression reproduces such a tree;
  `Source.Expr.steady_lower`: so it is steady.
* **`pure_lowers_alike`**: the tree is the same in every routine and from every count.
-/

import ObjectLowering.Lowering.Expr
import ObjectLowering.Proofs.Lowering.Ensures

namespace ObjectLowering

/-! ### Trees that change nothing -/

namespace Lowered

mutual

/-- Whether an expression is made of names, literals, fields, lengths of arrays and checks of such
values: it neither calls nor allocates nor writes, and declares no local. -/
def Expr.onlyReads : Expr → Bool
  | .int .. | .float .. | .bool .. | .char .. | .str .. | .null _ => true
  | .localVar .. | .staticField .. => true
  | .field _ object _ => object.onlyReads
  | .length _ array => array.onlyReads
  | .check _ _ args => Expr.onlyReadsAll args
  | .block _ body result => Stmt.onlyReadsAll body && result.onlyReads
  | _ => false

/-- Whether all expressions only read. -/
def Expr.onlyReadsAll : List Expr → Bool
  | [] => true
  | expr :: rest => expr.onlyReads && Expr.onlyReadsAll rest

/-- Whether a statement evaluates such an expression. -/
def Stmt.onlyReads : Stmt → Bool
  | .eval expr => expr.onlyReads
  | _ => false

/-- Whether all statements only read. -/
def Stmt.onlyReadsAll : List Stmt → Bool
  | [] => true
  | stmt :: rest => stmt.onlyReads && Stmt.onlyReadsAll rest

end

end Lowered

namespace Lowering

/-! ### Steps that come out alike -/

/-- Whatever the count of temporaries, the step comes out alike and leaves the count alone. -/
def Steady {α : Type} (step : LowerM α) : Prop :=
  ∃ outcome : Except LoweringFailure α, ∀ count, step.run count = outcome.map (·, count)

/-- Whatever the count of temporaries, the step comes to one result, which has the property, and
leaves the count alone. -/
def Reproduces {α : Type} (property : α → Prop) (step : LowerM α) : Prop :=
  ∃ value, property value ∧ ∀ count, step.run count = .ok (value, count)

namespace Reproduces

variable {α β : Type} {property : α → Prop} {result : β → Prop} {step : LowerM α}
  {next : α → LowerM β}

theorem pure {value : α} (holds : property value) : Reproduces property (pure value) :=
  ⟨value, holds, fun _ => rfl⟩

theorem bind (first : Reproduces property step)
    (second : ∀ value, property value → Reproduces result (next value)) :
    Reproduces result (step >>= next) := by
  obtain ⟨value, holds, runs⟩ := first
  obtain ⟨outcome, holdsToo, others⟩ := second value holds
  refine ⟨outcome, holdsToo, fun count => ?_⟩
  rw [StateT.run_bind, runs]
  exact others count

theorem steady (reproduces : Reproduces property step) : Steady step := by
  obtain ⟨value, _, runs⟩ := reproduces
  exact ⟨.ok value, runs⟩

end Reproduces

variable {context : Context} {part : Part}

theorem steady_use (span : Span) {value : Operand}
    (again : ∀ lower, value = .reread lower → Steady lower) : Steady (value.use context span) := by
  cases value with
  | reread lower => exact again lower rfl
  | temp name => exact ⟨.ok (.localVar span name), fun _ => rfl⟩
  | self => exact ⟨.ok (selfExpr context span), fun _ => rfl⟩

/-! ### Pure operands -/

/-- The step comes to a tree that only reads. -/
def Rereads (step : LowerM Lowered.Expr) : Prop := Reproduces (·.onlyReads = true) step

/-- A pure value is prepared without a temporary. -/
theorem operand_of_isPure (isPure : part.expr.isPure = true) (fallback : Ty) :
    operand context part fallback =
      pure ([], if part.expr.isReceiver then .self else .reread part.lower) := by
  unfold operand readOnce
  rw [isPure, Bool.true_and]
  cases part.expr.isReceiver <;> rfl

theorem rereads_use (span : Span) (rereads : Rereads part.lower) (receiver : Bool) :
    Rereads ((if receiver then .self else .reread part.lower : Operand).use context span) := by
  cases receiver with
  | true => exact .pure rfl
  | false => exact rereads

/-- A null check in front of a use is at most one check of what only reads. -/
theorem reproduces_nullCheck (span : Span) {value : Operand}
    (uses : Rereads (value.use context span)) :
    Reproduces (fun stmts => stmts.length ≤ 1 ∧ Lowered.Stmt.onlyReadsAll stmts = true)
      (nullCheck context span value) := by
  unfold nullCheck
  split
  · exact .pure ⟨Nat.zero_le 1, rfl⟩
  · refine uses.bind fun tree reads => .pure ⟨Nat.le_refl 1, ?_⟩
    simp [checkStmt, Lowered.Stmt.onlyReadsAll, Lowered.Stmt.onlyReads, Lowered.Expr.onlyReads,
      Lowered.Expr.onlyReadsAll, reads]

theorem rereads_blockExpr (span : Span) {stmts : List Lowered.Stmt} {result : Lowered.Expr}
    (short : stmts.length ≤ 1) (before : Lowered.Stmt.onlyReadsAll stmts = true)
    (reads : result.onlyReads = true) : Rereads (blockExpr span stmts result) := by
  unfold blockExpr
  split
  · exact .pure reads
  · have room : stmts.length ≤ maxListLength := Nat.le_trans short (by decide)
    unfold checkLength checkListLength
    rw [if_pos room]
    refine .pure ?_
    rw [Lowered.Expr.onlyReads, before, reads]
    rfl

theorem rereads_arrayLength (span : Span) (isPure : part.expr.isPure = true)
    (rereads : Rereads part.lower) : Rereads (arrayLength context span part) := by
  have uses : Rereads ((if part.expr.isReceiver then .self else .reread part.lower : Operand).use
      context span) := rereads_use span rereads _
  unfold arrayLength
  rw [operand_of_isPure isPure, pure_bind]
  refine (reproduces_nullCheck span uses).bind fun check ⟨short, before⟩ => ?_
  refine uses.bind fun array reads => ?_
  exact rereads_blockExpr span short before (by rw [Lowered.Expr.onlyReads, reads])

theorem rereads_memberAccess (tag : Source.Tag) (name : Name) (isPure : part.expr.isPure = true)
    (rereads : Rereads part.lower) : Rereads (memberAccess context tag part name) := by
  unfold memberAccess
  split
  · exact .pure rfl
  · split
    · exact rereads_arrayLength tag.span isPure rereads
    · exact rereads.bind fun object reads => .pure (by rw [Lowered.Expr.onlyReads, reads])

theorem onlyReads_identifier (tag : Source.Tag) (name : Name) :
    (identifier context tag name).onlyReads = true := by
  unfold identifier fieldRef
  split
  · split <;> rfl
  · rfl

end Lowering

open Lowering

/-- **Lowering a pure expression always comes to one tree, which only reads**, and takes no
temporary. -/
theorem Source.Expr.rereads_lower (context : Context) (routine : Routine) :
    ∀ expr : Source.Expr, expr.isPure = true → Rereads (expr.lower context routine)
  | .int .., _ | .float .., _ | .bool .., _ | .char .., _ | .str .., _ | .null _, _ => .pure rfl
  | .ident tag name, _ => .pure (onlyReads_identifier tag name)
  | .this _, _ | .super _, _ => .pure rfl
  | .field tag receiver name, isPure =>
    rereads_memberAccess tag name isPure (receiver.rereads_lower context routine isPure)

/-- **Lowering a pure expression is steady**: it takes no temporary, and lowering the expression
again gives the same tree. -/
theorem Source.Expr.steady_lower (context : Context) (routine : Routine) (expr : Source.Expr)
    (isPure : expr.isPure = true) : Steady (expr.lower context routine) :=
  (expr.rereads_lower context routine isPure).steady

/-- The routine does not matter to a pure expression. -/
theorem Source.Expr.lower_of_isPure (context : Context) (routine other : Routine) :
    ∀ expr : Source.Expr, expr.isPure = true →
      expr.lower context routine = expr.lower context other
  | .int .., _ | .float .., _ | .bool .., _ | .char .., _ | .str .., _ | .null _, _ => rfl
  | .ident .., _ | .this _, _ | .super _, _ => rfl
  | .field tag receiver name, isPure =>
    congrArg (fun lower => memberAccess context tag ⟨receiver, lower⟩ name)
      (receiver.lower_of_isPure context routine other isPure)

/-- **A pure expression is lowered to the same tree wherever it stands.** Whatever the facade and
the options, lowering it in any routine and from any count of temporaries comes to one tree, which
reads names, literals, fields and lengths and checks them, and to the same count. -/
theorem pure_lowers_alike (context : Context) {expr : Source.Expr} (isPure : expr.isPure = true) :
    ∃ tree : Lowered.Expr, tree.onlyReads = true ∧
      ∀ routine count, (expr.lower context routine).run count = .ok (tree, count) := by
  obtain ⟨tree, reads, runs⟩ :=
    expr.rereads_lower context ⟨Reserved.empty, none, .static, false⟩ isPure
  refine ⟨tree, reads, fun routine count => ?_⟩
  rw [expr.lower_of_isPure context routine _ isPure]
  exact runs count

/-- The length of an array in a field of the receiver. -/
def Source.Expr.ownLength : Source.Expr :=
  .field ⟨2, 4, 5⟩ (.field ⟨1, 3, 4⟩ (.this ⟨0, 2, 3⟩) "items") "length"

/-- A class with an array and a method that gives its length. -/
def Source.SourceUnit.sized : Source.SourceUnit where
  path := "Sized"
  package := []
  imports := []
  classes := [
    { name := "Sized", parent := none, span := ⟨0, 1⟩
      fields := [
        { name := "items", type := .array .int, init := none, modifiers := {}, span := ⟨1, 2⟩ }]
      methods := [
        { name := "size", params := [], ret := .int, modifiers := {}, span := ⟨7, 8⟩
          body := .block ⟨6, 7⟩ [.ret ⟨5, 6⟩ (some .ownLength)] }] }]
  nodes := #[.this ⟨0, 2, 3⟩, .field ⟨1, 3, 4⟩ (.this ⟨0, 2, 3⟩) "items", .ownLength]
  stmtCount := 2

/-- The length of an array in a field is read behind a check of the field. -/
theorem pure_lowers_alike_length :
    Source.Expr.ownLength.isPure = true ∧
    ∃ context, (Program.ofUnits [.sized]).context? ⟨[]⟩ {} 0 = some context ∧
      ∀ routine count, (Source.Expr.ownLength.lower context routine).run count =
        .ok (.block ⟨4, 5⟩
          [checkStmt ⟨4, 5⟩ .notNull [.field ⟨3, 4⟩ (.localVar ⟨2, 3⟩ "__this") "items"]]
          (.length ⟨4, 5⟩ (.field ⟨3, 4⟩ (.localVar ⟨2, 3⟩ "__this") "items")), count) := by
  have isPure : Source.Expr.ownLength.isPure = true := rfl
  have runs : ((Program.ofUnits [.sized]).context? ⟨[]⟩ {} 0).map (fun context =>
      (Source.Expr.ownLength.lower context ⟨"Sized", none, .static, false⟩).run 0) =
      some (.ok (.block ⟨4, 5⟩
        [checkStmt ⟨4, 5⟩ .notNull [.field ⟨3, 4⟩ (.localVar ⟨2, 3⟩ "__this") "items"]]
        (.length ⟨4, 5⟩ (.field ⟨3, 4⟩ (.localVar ⟨2, 3⟩ "__this") "items")), 0)) := rfl
  obtain ⟨context, known, done⟩ := Option.map_eq_some_iff.mp runs
  obtain ⟨tree, _, alike⟩ := pure_lowers_alike context isPure
  have same := (alike _ 0).symm.trans done
  rw [Except.ok.injEq, Prod.mk.injEq] at same
  exact ⟨isPure, context, known, fun routine count => same.1 ▸ alike routine count⟩

end ObjectLowering
