/-
**Building a source tree mirrors lowering it.**

The proof follows the source tree, as both walks do. At each form the children agree by induction,
and the lemma about the form puts them together: no child is used after its number has gone into a
node, which is why no node is referred to twice.

* **`Source.Expr.mirrors_build`**, **`Source.Stmt.mirrors_build`**: the two walks on whole trees.
* `mirrors_buildBody`: the body of a routine, with the return that it may still need.
-/

import ObjectLowering.Proofs.Building.Arrays
import ObjectLowering.Proofs.Building.Calls

namespace ObjectLowering

open Lowered
open Lowered.Assertion (Entails known)
open Building
open Lowering (Context)

variable {context : Context} {routine : Routine}

namespace Building

theorem makes_fieldRef (span : Span) (field : FieldRef) (name : Name) :
    Makes 0 (fieldRef context span field name)
      (exprAt · (Lowering.fieldRef context span field name)) := by
  unfold fieldRef Lowering.fieldRef
  split
  · exact makes_staticField span _ name
  · exact .make 0 (makes_selfExpr context span) (.of_eq (add_zero 0).symm) fun _ =>
      makes_field.entails (.of_eq (add_zero _))

theorem makes_identifier (tag : Source.Tag) (name : Name) :
    Makes 0 (identifier context tag name) (exprAt · (Lowering.identifier context tag name)) := by
  unfold identifier Lowering.identifier
  rcases context.facade.meaning tag.id with _ | meaning
  · exact makes_localVar tag.span name
  · cases meaning with
    | field field => exact makes_fieldRef tag.span field name
    | _ => exact makes_localVar tag.span name

theorem mirrors_memberAccess (tag : Source.Tag) (name : Name) {part : Part}
    {other : Lowering.Part} (same : part.Matches other) :
    Mirrors 0 (memberAccess context tag part name)
      (Lowering.memberAccess context tag other name) exprAt := by
  unfold memberAccess Lowering.memberAccess
  rw [same.expr]
  cases Lowering.staticOwner? context tag.id other.expr.id with
  | some className => exact .last (makes_staticField tag.span _ name) (.refl 0) fun _ => .refl _
  | none =>
    dsimp only
    split
    · exact mirrors_arrayLength same
    · refine same.mirrors.seq fun object tree => ?_
      exact .last makes_field (.of_eq (add_zero _)) fun _ => .refl _

/-- A node over one expression. -/
theorem mirrors_over {build : BuildM NodeId} {lower : LowerM Lowered.Expr} {span : Span}
    {node : NodeId → Node} {form : Lowered.Expr → Lowered.Expr}
    (mirrors : Mirrors 0 build lower exprAt)
    (makes : ∀ id tree, Makes (exprAt id tree) (addExpr span (node id)) (exprAt · (form tree))) :
    Mirrors 0 (build >>= fun id => liftM (addExpr span (node id)))
      (lower >>= fun tree => pure (form tree)) exprAt :=
  mirrors.seq fun id tree => .last (makes id tree) (.of_eq (add_zero _)) fun _ => .refl _

/-- A node over two expressions, the left one built first. -/
theorem mirrors_both {first second : BuildM NodeId} {left right : LowerM Lowered.Expr} {span : Span}
    {node : NodeId → NodeId → Node} {form : Lowered.Expr → Lowered.Expr → Lowered.Expr}
    (mirrorsLeft : Mirrors 0 first left exprAt) (mirrorsRight : Mirrors 0 second right exprAt)
    (makes : ∀ id other tree more, Makes (exprAt id tree + exprAt other more)
      (addExpr span (node id other)) (exprAt · (form tree more))) :
    Mirrors 0 (first >>= fun id => second >>= fun other => liftM (addExpr span (node id other)))
      (left >>= fun tree => right >>= fun more => pure (form tree more)) exprAt :=
  mirrorsLeft.seq fun id tree => mirrorsRight.seq fun other more =>
    .last (makes id other tree more) (.of_eq (by abel)) fun _ => .refl _

end Building

mutual

/-- **An expression is built as it is lowered.** -/
theorem Source.Expr.mirrors_build : ∀ expr : Source.Expr,
    Mirrors 0 (expr.build context routine) (expr.lower context routine) exprAt
  | .int tag value => .last (makes_int tag.span value) (.refl 0) fun _ => .refl _
  | .float .. | .bool .. | .char .. | .str .. | .null _ =>
    .last (makes_leaf rfl trivial fun _ _ _ => rfl) (.refl 0) fun _ => .refl _
  | .this tag | .super tag =>
    .last (makes_selfExpr context tag.span) (.refl 0) fun _ => .refl _
  | .ident tag name => .last (makes_identifier tag name) (.refl 0) fun _ => .refl _
  | .field tag receiver name => mirrors_memberAccess tag name ⟨rfl, receiver.mirrors_build⟩
  | .call _ none _ args => mirrors_call ⟨rfl, rfl, .none, Source.Expr.mirrors_buildEach args⟩
  | .call _ (some receiver) _ args =>
    mirrors_call ⟨rfl, rfl, .some ⟨rfl, receiver.mirrors_build⟩,
      Source.Expr.mirrors_buildEach args⟩
  | .chain _ target args => mirrors_chainCall target (Source.Expr.mirrors_buildEach args)
  | .newObject _ className args => mirrors_newObject className (Source.Expr.mirrors_buildEach args)
  | .newArray _ element dims extra =>
    mirrors_newArray element extra (Source.Expr.mirrors_buildEach dims)
  | .index _ array position =>
    mirrors_readElement ⟨rfl, array.mirrors_build⟩ ⟨rfl, position.mirrors_build⟩
  | .assign tag target value => by
    have mirrors := target.mirrors_build
    cases target with
    | index _ array position =>
      exact mirrors_store ⟨rfl, array.mirrors_build⟩ ⟨rfl, position.mirrors_build⟩
        ⟨rfl, value.mirrors_build⟩
    | _ => exact mirrors_both mirrors value.mirrors_build fun _ _ _ _ => makes_assign
  | .binary _ _ left right =>
    mirrors_both left.mirrors_build right.mirrors_build fun _ _ _ _ => makes_binary
  | .unary tag op operand => by
    have mirrors := operand.mirrors_build
    rw [build.eq_def, lower.eq_def]
    dsimp only
    cases op.mutates with
    | false => exact mirrors_over mirrors fun _ _ => makes_unary
    | true =>
      cases operand with
      | index _ array position =>
        exact mirrors_updateElement op ⟨rfl, array.mirrors_build⟩ ⟨rfl, position.mirrors_build⟩
      | _ => exact mirrors_over mirrors fun _ _ => makes_unary
  | .cast _ _ operand => mirrors_over operand.mirrors_build fun _ _ => makes_cast
  | .instanceOf _ operand _ => mirrors_over operand.mirrors_build fun _ _ => makes_instanceOf

theorem Source.Expr.mirrors_buildEach : ∀ exprs : List Source.Expr,
    EachMatches (Source.Expr.buildEach context routine exprs)
      (Source.Expr.lowerEach context routine exprs)
  | [] => .nil
  | expr :: rest => .cons expr.mirrors_build (Source.Expr.mirrors_buildEach rest)

end

theorem Source.Expr.mirrors_buildOption (expr : Option Source.Expr) :
    Mirrors 0 (Source.Expr.buildOption context routine expr)
      (Source.Expr.lowerOption context routine expr) optionAt := by
  cases expr with
  | none => exact .pure entails_optionAt_absent
  | some expr => exact expr.mirrors_build.weaken exprAt_entails_optionAt

/-! ### Statements -/

namespace Building

theorem makes_implicitResult (span : Span) (mode : Mode) :
    Makes 0 (implicitResult context span mode)
      (optionAt · (Lowering.implicitResult context span mode)) := by
  cases mode with
  | constructor =>
    exact (makes_selfExpr context span).weaken fun id _ => exprAt_entails_optionAt id _
  | entry => exact (makes_int span 0).weaken fun id _ => exprAt_entails_optionAt id _
  | instanceMethod | static => exact .pure entails_optionAt_absent

end Building

mutual

/-- **A statement is built as it is lowered.** -/
theorem Source.Stmt.mirrors_build : ∀ stmt : Source.Stmt,
    Mirrors 0 (stmt.build context routine) (stmt.lower context routine) stmtAt
  | .eval _ expr => expr.mirrors_build.seq fun _ _ =>
    .last makes_eval (.of_eq (add_zero _)) fun _ => .refl _
  | .localVar _ _ _ init => (Source.Expr.mirrors_buildOption init).seq fun _ _ =>
    .last makes_declaration (.of_eq (add_zero _)) fun _ => .refl _
  | .block _ body => (Mirrors.runEach (Source.Stmt.mirrors_buildEach body)).seq fun _ _ =>
    mirrors_blockStmt.entails (.of_eq (add_zero _))
  | .branch _ cond yes none => by
    refine cond.mirrors_build.seq fun cond test => yes.mirrors_build.seq fun yes first => ?_
    exact .last makes_branch ((Entails.of_eq (by abel)).trans
      ((entails_stmtOptionAt_absent.add _).trans (.of_eq (add_comm ..)))) fun _ => .refl _
  | .branch _ cond yes (some no) => by
    refine cond.mirrors_build.seq fun cond test => yes.mirrors_build.seq fun yes first => ?_
    refine no.mirrors_build.seq fun no second => ?_
    exact .last makes_branch ((Entails.of_eq (by abel)).trans
      (((stmtAt_entails_stmtOptionAt no second).add _).trans (.of_eq (add_comm ..))))
      fun _ => .refl _
  | .whileLoop _ cond body => by
    refine cond.mirrors_build.seq fun cond test => body.mirrors_build.seq fun body looped => ?_
    exact .last makes_whileLoop (.of_eq (by abel)) fun _ => .refl _
  | .forLoop _ init cond update body => by
    refine (Mirrors.runEach (Source.Stmt.mirrors_buildEach init)).seq fun init stmts => ?_
    refine mirrors_addStmts.step 0 (.refl _) fun first _ => ?_
    refine (Source.Expr.mirrors_buildOption cond).seq fun cond test => ?_
    refine (mirrors_argList (Source.Expr.mirrors_buildEach update)).seq fun update trees => ?_
    refine body.mirrors_build.seq fun body looped => ?_
    exact .last makes_forLoop (.of_eq (by abel)) fun _ => .refl _
  | .ret span none => by
    refine .make 0 (makes_implicitResult span routine.mode) (.of_eq (add_zero 0).symm)
      fun value => ?_
    exact .last makes_ret (.of_eq (add_zero _)) fun _ => .refl _
  | .ret _ (some value) => value.mirrors_build.seq fun id tree =>
    .last makes_ret (.trans (.of_eq (add_zero _)) (exprAt_entails_optionAt id tree)) fun _ =>
      .refl _

theorem Source.Stmt.mirrors_buildEach : ∀ stmts : List Source.Stmt,
    List.Forall₂ (fun step lower => Mirrors 0 step lower stmtAt)
      (Source.Stmt.buildEach context routine stmts) (Source.Stmt.lowerEach context routine stmts)
  | [] => .nil
  | stmt :: rest => .cons stmt.mirrors_build (Source.Stmt.mirrors_buildEach rest)

end

/-! ### Bodies -/

namespace Building

variable {ids start : List NodeId} {trees stmts : List Lowered.Stmt} {arena : FlatArena}
  {span : Span}

/-- What was built last is a return exactly if it was lowered to one. -/
theorem getLast_isReturn (fact : (stmtsAt ids trees).fact arena) :
    (ids.getLast?.any fun last => (arena.stmt? last).any (·.isReturn)) =
      trees.getLast?.any (·.isReturn) := by
  induction ids generalizing trees with
  | nil =>
    cases trees with
    | nil => rfl
    | cons _ _ => exact fact.elim
  | cons id ids step =>
    cases trees with
    | nil => exact fact.elim
    | cons tree trees =>
      cases ids with
      | nil =>
        cases trees with
        | nil =>
          obtain ⟨stmt, found, same⟩ := fact.1.2
          simp [found, same]
        | cons _ _ => exact fact.2.elim
      | cons other ids =>
        cases trees with
        | nil => exact fact.2.elim
        | cons more trees =>
          rw [List.getLast?_cons_cons, List.getLast?_cons_cons]
          exact step fact.2

theorem makes_endsInReturn :
    Makes (stmtsAt ids trees) (endsInReturn ids) fun ends =>
      known (ends = trees.getLast?.any (·.isReturn)) + stmtsAt ids trees := by
  intro arena rest meets
  have entails : (stmtsAt ids trees).Entails (known _ + stmtsAt ids trees) :=
    (Entails.add_known (getLast_isReturn meets.2) _).trans (.of_eq (add_comm ..))
  exact ⟨.refl arena, (), rfl, entails arena rest meets⟩

theorem makes_finalReturn :
    Makes (stmtsAt ids trees) (finalReturn context routine span ids) fun final =>
      stmtsAt (ids ++ final) (trees ++ Lowering.finalReturn context routine span trees) := by
  unfold finalReturn Lowering.finalReturn
  refine .make 0 makes_endsInReturn (.of_eq (add_zero _).symm) fun ends => ?_
  rw [add_zero, ← zero_add (known _)]
  refine .known fun same => ?_
  cases same
  rw [zero_add]
  split
  · refine .make (stmtsAt ids trees) (makes_implicitResult span routine.mode)
      (.of_eq (zero_add _).symm) fun value => ?_
    refine .make (stmtsAt ids trees) makes_ret (.refl _) fun stmt => ?_
    refine .of_fact (fun _ fact => length_eq_of_each fact.2) fun same => .pure (.of_eq ?_)
    dsimp only
    rw [stmtsAt_append same, stmtsAt_singleton, add_comm]
  · refine .pure (.of_eq ?_)
    dsimp only
    rw [List.append_nil, List.append_nil]

/-- **The body of a routine is built as it is lowered**, with the return that it may still need. -/
theorem mirrors_buildBody (body : Option Source.Stmt) :
    Mirrors (stmtsAt ids trees) (buildBody context routine span ids body)
      (Lowering.lowerBody context routine span trees body) stmtAt := by
  have each (sources : List Source.Stmt) : List.Forall₂
      (fun step lower => Mirrors 0 step lower stmtAt)
      (sources.map (·.build context routine)) (sources.map (·.lower context routine)) := by
    rw [List.forall₂_map_left_iff, List.forall₂_map_right_iff, List.forall₂_same]
    exact fun stmt _ => stmt.mirrors_build
  refine (Mirrors.runEach (each (Lowering.bodyStmts body))).seq fun built stmts => ?_
  refine .of_fact (fun _ fact => length_eq_of_each fact.2) fun same => ?_
  refine .make 0 (@makes_finalReturn context routine (ids ++ built) (trees ++ stmts) span)
    (.of_eq ?_) fun final => ?_
  · rw [stmtsAt_append same]
    abel
  · exact mirrors_blockStmt.entails (.of_eq (add_zero _))

end Building

end ObjectLowering
