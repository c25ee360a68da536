/-
**Building arrays mirrors lowering them.**

The levels of an array are built by induction over its dimensions. A level owns the head of its loop
while the next level is built, and takes what that level made into the body of the loop.

* `mirrors_fillLevels`, `mirrors_newArray`: new arrays.
* `mirrors_slot`, `mirrors_store`, `mirrors_arrayLength`: elements and lengths behind their checks.
-/

import ObjectLowering.Proofs.Building.Forms

namespace ObjectLowering.Building

open Lowered
open Lowered.Assertion (Entails known)
open Lowering (Context)

variable {context : Context} {span : Span} {id : NodeId} {ids : List NodeId}
  {tree : Lowered.Expr} {stmts : List Lowered.Stmt}

/-! ### New arrays -/

theorem makes_checkedLength (context : Context) :
    Makes (exprAt id tree) (checkedLength context span id)
      (exprAt · (Lowering.checkedLength context span tree)) := by
  unfold checkedLength Lowering.checkedLength
  split
  · rw [← exprsAt_singleton id tree]
    exact makes_check rfl
  · exact .pure (.refl _)

theorem makes_level (span : Span) (element : Ty) (size : Name) :
    Makes 0 (level span element size)
      (exprAt · (.arrayAlloc span element (.localVar span size))) :=
  .make 0 (makes_localVar span size) (.of_eq (add_zero _).symm) fun _ =>
    makes_arrayAlloc.entails (.of_eq (add_zero _))

theorem makes_levelTest (span : Span) (counter size : Name) :
    Makes 0 (levelTest span counter size)
      (exprAt · (.binary span .less (.localVar span counter) (.localVar span size))) := by
  refine .make 0 (makes_localVar span counter) (.of_eq (add_zero _).symm) fun left => ?_
  refine .make _ (makes_localVar span size) (.of_eq (zero_add _).symm) fun right => ?_
  exact makes_binary.entails (.of_eq (by abel))

theorem makes_levelStep (span : Span) (counter : Name) :
    Makes 0 (levelStep span counter)
      (exprAt · (.unary span .postIncrement (.localVar span counter))) :=
  .make 0 (makes_localVar span counter) (.of_eq (add_zero _).symm) fun _ =>
    makes_unary.entails (.of_eq (add_zero _))

/-- The body of the loop over a level takes the statements of the next level and its value. -/
theorem makes_fillBody (array counter : Name) (few : stmts.length < maxListLength) :
    Makes (stmtsAt ids stmts + exprAt id tree) (fillBody span array counter ids id)
      (stmtAt · (.block (stmts ++ [.eval (.assign span
        (.index span (.localVar span array) (.localVar span counter)) tree)]))) := by
  refine .make _ (makes_localVar span array) (.of_eq (zero_add _).symm) fun arrayExpr => ?_
  refine .make _ (makes_localVar span counter) (.of_eq (zero_add _).symm) fun position => ?_
  refine .make (stmtsAt ids stmts + exprAt id tree) makes_index (.of_eq (by abel))
    fun element => ?_
  refine .make (stmtsAt ids stmts) makes_assign (.of_eq (by abel)) fun assign => ?_
  refine .make (stmtsAt ids stmts) makes_eval (.refl _) fun store => ?_
  refine .of_fact (fun _ fact => length_eq_of_each fact.2) fun same => ?_
  refine .make 0 (makes_addStmts ?_) (.of_eq ?_) fun body =>
    makes_body.entails (.of_eq (add_zero _))
  · rw [List.length_append]
    exact few
  · rw [stmtsAt_append same, stmtsAt_singleton]
    abel

/-- The loop takes its body and the head that was built before the next level. -/
theorem makes_fillLoop (array counter size : Name) (decl test step : NodeId)
    (counterDecl : Lowered.Stmt) (tree : Lowered.Expr) (few : stmts.length < maxListLength) :
    Makes (stmtsAt ids stmts + exprAt id tree +
        (exprAt step (.unary span .postIncrement (.localVar span counter)) +
          (exprAt test (.binary span .less (.localVar span counter) (.localVar span size)) +
            stmtAt decl counterDecl)))
      (fillLoop span array counter decl test step ids id)
      (stmtAt · (Lowering.fillLoop span array counter size counterDecl stmts tree)) := by
  refine .make _ (makes_fillBody array counter few) (.refl _) fun body => ?_
  have one : 1 ≤ maxListLength := by decide
  unfold Lowering.fillLoop
  dsimp only
  generalize Lowered.Stmt.block _ = looped, Lowered.Expr.unary _ _ _ = update,
    Lowered.Expr.binary _ _ _ _ = cond
  refine .make (exprAt test cond + exprAt step update + stmtAt body looped)
    (@makes_addStmts [decl] [counterDecl] one) (.of_eq ?_) fun init => ?_
  · rw [stmtsAt_singleton decl counterDecl]
    abel
  refine .make (bodyAt init [counterDecl] + exprAt test cond + stmtAt body looped)
    (@makes_addExprs [step] [update] one) (.of_eq ?_) fun window => ?_
  · rw [exprsAt_singleton step update]
    abel
  refine makes_forLoop.entails (.trans (.of_eq ?_) (.trans
    ((exprAt_entails_optionAt test cond).add
      (bodyAt init [counterDecl] + argsAt window [update] + stmtAt body looped)) (.of_eq ?_))) <;>
    abel

/-- The statements that make a level, two at most, and the level itself. -/
def levelAt (made : List NodeId × NodeId) (tree : List Lowered.Stmt × Lowered.Expr) : Assertion :=
  stmtsAt made.1 tree.1 + exprAt made.2 tree.2 + known (tree.1.length ≤ 2)

/-- **The levels of an array.** -/
theorem mirrors_fillLevels (leaf : Ty) (size : Name) (names : List Name) :
    Mirrors 0 (fillLevels span leaf size names) (Lowering.fillLevels span leaf size names)
      levelAt := by
  induction names generalizing size with
  | nil =>
    refine .make 0 (makes_level span leaf size) (.of_eq (add_zero 0).symm) fun array => ?_
    refine .pure (.trans (.of_eq ?_) (.add_known (Nat.zero_le 2) _))
    show _ = (0 : Assertion) + _
    abel
  | cons next rest step =>
    unfold fillLevels Lowering.fillLevels
    refine .make 0 (makes_level span _ size) (.of_eq (add_zero 0).symm) fun made => ?_
    refine (mirrors_bindTemp _).step 0 (.refl _) ?_
    rintro ⟨arrayDecl, array⟩ ⟨arrayStmt, named⟩
    refine .known fun same => ?_
    cases same
    refine .make _ (makes_int span 0) (.of_eq (zero_add _).symm) fun start => ?_
    refine (mirrors_bindTemp _).step _ (.refl _) ?_
    rintro ⟨counterDecl, counter⟩ ⟨counterStmt, named⟩
    refine .known fun same => ?_
    cases same
    refine .make _ (makes_levelTest span counter size) (.of_eq (zero_add _).symm) fun test => ?_
    refine .make _ (makes_levelStep span counter) (.of_eq (zero_add _).symm) fun update => ?_
    refine (step next).seq ?_
    rintro ⟨stmts, value⟩ ⟨others, tree⟩
    refine .known fun few => ?_
    refine .make (stmtAt arrayDecl arrayStmt) (makes_fillLoop array counter size counterDecl test
      update counterStmt tree (Nat.lt_of_le_of_lt few (by decide))) (.of_eq ?_) fun loop => ?_
    · dsimp only
      abel
    refine .make _ (makes_localVar span array) (.of_eq (zero_add _).symm) fun result => ?_
    refine .pure (.trans (.of_eq ?_) (.add_known (Nat.le_refl 2) _))
    show _ = stmtAt arrayDecl arrayStmt + (stmtAt loop _ + 0) + _
    dsimp only [Lowering.fillLoop]
    abel

theorem mirrors_bindDimension {dim : BuildM NodeId} {lower : LowerM Lowered.Expr}
    (mirrors : Mirrors 0 dim lower exprAt) :
    Mirrors 0 (bindDimension context span dim) (Lowering.bindDimension context span lower)
      tempAt := by
  refine mirrors.seq fun size tree => ?_
  refine .make 0 (makes_checkedLength context) (.refl _) fun size => ?_
  exact (mirrors_bindTemp .int).entails (.of_eq (add_zero _))

/-- The temporaries of several dimensions: the same names, and their declarations. -/
theorem each_tempAt {bound : List (NodeId × Name)} {trees : List (Lowered.Stmt × Name)} :
    (each tempAt bound trees).Entails (stmtsAt (bound.map (·.1)) (trees.map (·.1)) +
      known (bound.map (·.2) = trees.map (·.2))) := by
  induction bound generalizing trees with
  | nil =>
    cases trees with
    | nil => exact .add_known rfl 0
    | cons _ _ => exact fun _ _ meets => meets.2.elim
  | cons temp bound step =>
    cases trees with
    | nil => exact fun _ _ meets => meets.2.elim
    | cons tree trees =>
      show (tempAt temp tree + each tempAt bound trees).Entails _
      rw [add_comm]
      refine (step.add _).trans fun arena rest ⟨accounts, fact⟩ => ?_
      refine ⟨?_, ⟨fact.2.1, fact.1.1⟩, ?_⟩
      · convert accounts using 1
        show {Reference.stmt temp.1} + (stmtsAt _ _).loose + 0 + rest =
          (stmtsAt _ _).loose + 0 + ({Reference.stmt temp.1} + 0) + rest
        abel
      · show temp.2 :: bound.map (·.2) = tree.2 :: trees.map (·.2)
        rw [show temp.2 = tree.2 from fact.2.2, show bound.map (·.2) = _ from fact.1.2]

theorem mirrors_bindDimensions {dims : List (BuildM NodeId)}
    {lowers : List (LowerM Lowered.Expr)}
    (mirrors : List.Forall₂ (fun dim lower => Mirrors 0 dim lower exprAt) dims lowers) :
    Mirrors 0 (Lowering.runEach (dims.map (bindDimension context span)))
      (Lowering.runEach (lowers.map (Lowering.bindDimension context span)))
      fun bound trees => stmtsAt (bound.map (·.1)) (trees.map (·.1)) +
        known (bound.map (·.2) = trees.map (·.2)) := by
  have each : List.Forall₂ (fun step lower => Mirrors 0 step lower tempAt)
      (dims.map (bindDimension context span)) (lowers.map (Lowering.bindDimension context span)) :=
    List.forall₂_map_left_iff.mpr (List.forall₂_map_right_iff.mpr
      (mirrors.imp fun _ _ mirrors => mirrors_bindDimension mirrors))
  exact (Mirrors.runEach each).weaken fun _ _ => each_tempAt

/-- **New arrays are built as they are lowered.** -/
theorem mirrors_newArray (element : Ty) (extra : Nat) {dims : List (BuildM NodeId)}
    {lowers : List (LowerM Lowered.Expr)}
    (mirrors : List.Forall₂ (fun dim lower => Mirrors 0 dim lower exprAt) dims lowers) :
    Mirrors 0 (buildNewArray context span element dims extra)
      (Lowering.lowerNewArray context span element lowers extra) exprAt := by
  cases mirrors with
  | nil => exact .fail
  | cons first others =>
    cases others with
    | nil =>
      refine first.seq fun size tree => ?_
      refine .make 0 (makes_checkedLength context) (.refl _) fun size => ?_
      exact .last makes_arrayAlloc (.of_eq (add_zero _)) fun _ => .refl _
    | @cons next _ rest _ second others =>
      refine (mirrors_bindDimension first).seq ?_
      rintro ⟨decl, size⟩ ⟨stmt, named⟩
      refine .known fun same => ?_
      cases same
      refine (mirrors_bindDimensions (.cons second others)).seq fun bound trees => ?_
      refine .known fun same => ?_
      rw [same]
      refine (mirrors_fillLevels _ size _).seq ?_
      rintro ⟨stmts, array⟩ ⟨filled, tree⟩
      refine .known fun _ => ?_
      refine .of_fact (fun _ fact => length_eq_of_each fact.2.1) fun same => ?_
      refine mirrors_blockExpr.entails (.of_eq ?_)
      rw [stmtsAt_append (congrArg (· + 1) same)]
      show _ = stmtAt decl stmt + stmtsAt _ _ + stmtsAt stmts filled + exprAt array tree
      dsimp only
      abel

/-! ### Elements -/

variable {part place value : Part} {other position stored : Lowering.Part}

/-- An element with the statements in front of it. -/
def elementAt (made : List NodeId × NodeId) (tree : List Lowered.Stmt × Lowered.Expr) :
    Assertion :=
  stmtsAt made.1 tree.1 + exprAt made.2 tree.2

/-- An element is made of an array and a position that are used once more. -/
theorem mirrors_element {array position : Operand} {other place : Lowering.Operand}
    (sameArray : array.Matches other) (samePosition : position.Matches place)
    {α : Type} {next : NodeId → BuildM α} {β : Type} {g : Lowered.Expr → LowerM β}
    {after : α → β → Assertion} {before : Assertion}
    (others : ∀ id tree, Mirrors (exprAt id tree + before) (next id) (g tree) after) :
    Mirrors before (element context span array position >>= next)
      (do
        let arrayExpr ← other.use context span
        let positionExpr ← place.use context span
        g (.index span arrayExpr positionExpr)) after := by
  unfold element
  rw [bind_assoc]
  refine (mirrors_use sameArray).seq fun arrayExpr arrayTree => ?_
  rw [bind_assoc]
  refine (mirrors_use samePosition).seq fun positionExpr positionTree => ?_
  exact .make before makes_index (.of_eq (by abel)) fun id => others id _

theorem mirrors_slot (sameArray : part.Matches other) (samePlace : place.Matches position) :
    Mirrors 0 (slot context span part place) (Lowering.slot context span other position)
      elementAt := by
  unfold slot Lowering.slot
  rw [samePlace.expr]
  refine (mirrors_operandBefore sameArray .object position.expr).seq ?_
  rintro ⟨decl, use⟩ ⟨stmts, reuse⟩
  refine .known fun same => ?_
  dsimp only
  by_cases unchecked : (!context.options.arrayChecks) = true
  · rw [if_pos unchecked, if_pos unchecked]
    refine (mirrors_use same).seq fun array tree => ?_
    refine samePlace.mirrors.seq fun index found => ?_
    refine .make (stmtsAt decl stmts) makes_index (.of_eq (by abel)) fun id => ?_
    exact .pure (.of_eq (add_comm ..))
  · rw [if_neg unchecked, if_neg unchecked]
    refine (mirrors_operand samePlace .int).seq ?_
    rintro ⟨placeDecl, placeUse⟩ ⟨placeStmts, placeReuse⟩
    refine .known fun samePlace => ?_
    refine (mirrors_use same).seq fun array tree => ?_
    refine (mirrors_use samePlace).seq fun index found => ?_
    refine .make (stmtsAt placeDecl placeStmts + stmtsAt decl stmts)
      (@makes_checkStmt span [array, index] [tree, found] .arrayAccess rfl) (.of_eq ?_)
      fun check => ?_
    · show _ = exprAt array tree + (exprAt index found + 0) + _
      dsimp only
      abel
    refine mirrors_element (g := fun element =>
      Pure.pure (stmts ++ placeStmts ++ [Lowering.checkStmt span .arrayAccess [tree, found]],
        element)) same samePlace fun id element => ?_
    refine .of_fact (fun _ fact => And.intro (length_eq_of_each fact.2.2.2)
      (length_eq_of_each fact.2.2.1)) fun ⟨sameDecl, samePlaceDecl⟩ => .pure (.of_eq ?_)
    show _ = stmtsAt (decl ++ placeDecl ++ [check]) _ + exprAt id element
    rw [stmtsAt_append (by simp [sameDecl, samePlaceDecl]), stmtsAt_append sameDecl,
      stmtsAt_singleton]
    abel

theorem mirrors_readElement (sameArray : part.Matches other) (samePlace : place.Matches position) :
    Mirrors 0 (readElement context span part place)
      (Lowering.readElement context span other position) exprAt := by
  refine (mirrors_slot sameArray samePlace).seq ?_
  rintro ⟨ids, id⟩ ⟨stmts, tree⟩
  exact mirrors_blockExpr.entails (.of_eq (add_zero _))

theorem mirrors_updateElement (op : UnaryOp) (sameArray : part.Matches other)
    (samePlace : place.Matches position) :
    Mirrors 0 (updateElement context span op part place)
      (Lowering.updateElement context span op other position) exprAt := by
  refine (mirrors_slot sameArray samePlace).seq ?_
  rintro ⟨ids, id⟩ ⟨stmts, tree⟩
  rw [add_zero, show elementAt (ids, id) (stmts, tree) = exprAt id tree + stmtsAt ids stmts from
    add_comm ..]
  refine .make _ makes_unary (.refl _) fun update => ?_
  exact mirrors_blockExpr.entails (.of_eq (add_comm ..))

/-- **Elements are stored alike**: behind the check of the stored value where elements are checked,
else in one step. -/
theorem mirrors_store (sameArray : part.Matches other) (samePlace : place.Matches position)
    (sameValue : value.Matches stored) :
    Mirrors 0 (store context span part place value)
      (Lowering.store context span other position stored) exprAt := by
  unfold store Lowering.store
  rw [sameArray.expr, sameValue.expr]
  refine (mirrors_operandBefore sameArray _ stored.expr).seq ?_
  rintro ⟨decl, use⟩ ⟨stmts, reuse⟩
  refine .known fun same => ?_
  refine (mirrors_operandBefore samePlace .int stored.expr).seq ?_
  rintro ⟨placeDecl, placeUse⟩ ⟨placeStmts, placeReuse⟩
  refine .known fun samePlace => ?_
  refine .of_fact (fun _ fact => length_eq_of_each fact.2.1) fun sameDecl => ?_
  dsimp only
  rw [show stmtsAt placeDecl placeStmts + (stmtsAt decl stmts + 0) =
    stmtsAt (decl ++ placeDecl) (stmts ++ placeStmts) by rw [stmtsAt_append sameDecl]; abel]
  generalize decl ++ placeDecl = decls, stmts ++ placeStmts = before
  by_cases unchecked : (!context.options.arrayChecks) = true
  · rw [if_pos unchecked, if_pos unchecked]
    refine mirrors_element (g := fun element => do
      let stored ← stored.lower
      Lowering.blockExpr span before (.assign span element stored)) same samePlace
      fun id element => ?_
    refine sameValue.mirrors.seq fun found tree => ?_
    refine .make (stmtsAt decls before) makes_assign (.of_eq (by abel)) fun assign => ?_
    exact mirrors_blockExpr.entails (.of_eq (add_comm ..))
  · rw [if_neg unchecked, if_neg unchecked]
    refine sameValue.mirrors.seq fun found tree => ?_
    refine (mirrors_bindTemp _).step _ (.refl _) ?_
    rintro ⟨tempDecl, temp⟩ ⟨tempStmt, named⟩
    refine .known fun sameTemp => ?_
    cases sameTemp
    refine (mirrors_use same).seq fun array arrayTree => ?_
    refine (mirrors_use samePlace).seq fun index indexTree => ?_
    refine .make _ (makes_localVar span temp) (.of_eq (zero_add _).symm) fun again => ?_
    refine .make (stmtAt tempDecl tempStmt + stmtsAt decls before)
      (@makes_checkStmt span [array, index, again] [arrayTree, indexTree, .localVar span temp]
        .arrayStore rfl) (.of_eq ?_) fun check => ?_
    · show _ = exprAt array arrayTree + (exprAt index indexTree + (exprAt again _ + 0)) + _
      dsimp only
      abel
    refine mirrors_element (g := fun element => Lowering.blockExpr span
      (before ++ [tempStmt, Lowering.checkStmt span .arrayStore [arrayTree, indexTree,
        .localVar span temp]]) (.assign span element (.localVar span temp))) same samePlace
      fun id element => ?_
    refine .make _ (makes_localVar span temp) (.of_eq (zero_add _).symm) fun last => ?_
    refine .make (stmtAt check _ + (stmtAt tempDecl tempStmt + stmtsAt decls before)) makes_assign
      (.of_eq (by abel)) fun assign => ?_
    refine .of_fact (fun _ fact => length_eq_of_each fact.2.2.2) fun sameDecls =>
      mirrors_blockExpr.entails (.of_eq ?_)
    rw [stmtsAt_append sameDecls]
    show _ = stmtsAt decls before + (stmtAt tempDecl tempStmt + (stmtAt check _ + 0)) + _
    abel

/-- **Lengths are read alike**, behind the check of the array. -/
theorem mirrors_arrayLength (same : part.Matches other) :
    Mirrors 0 (arrayLength context span part) (Lowering.arrayLength context span other)
      exprAt := by
  refine (mirrors_operand same .object).seq ?_
  rintro ⟨decl, use⟩ ⟨stmts, reuse⟩
  refine .known fun same => ?_
  refine (mirrors_nullCheck same).seq fun check checked => ?_
  refine (mirrors_use same).seq fun array tree => ?_
  refine .make (stmtsAt check checked + stmtsAt decl stmts) makes_length (.of_eq (by abel))
    fun length => ?_
  refine .of_fact (fun _ fact => length_eq_of_each fact.2.2) fun sameDecl =>
    mirrors_blockExpr.entails (.of_eq ?_)
  rw [stmtsAt_append sameDecl]
  abel

end ObjectLowering.Building
