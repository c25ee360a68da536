/-
**What adding one node or list makes.**

A node takes the numbers and windows that it refers to and reads as the tree of what they read as.
One lemma for each shape of node covers all forms of that shape: no child, one, two, arguments,
a receiver with arguments, statements with a result.

* `Building.makes_leaf`, `makes_over`, `makes_both`, `makes_args`, `makes_call`: expressions.
* `Building.makes_eval`, …: one lemma for each form of statement.
* `Building.mirrors_addExprs`, `Building.mirrors_addStmts`: storing a list is refused where lowering
  refuses its length.
-/

import ObjectLowering.Proofs.Building.Agreement

namespace ObjectLowering.Building

open Lowered
open Lowered.Assertion (Entails known)

variable {id : NodeId} {ids : List NodeId} {window : Window} {span : Span} {node : Node}
  {tree inner left right : Lowered.Expr} {trees : List Lowered.Expr} {stmt : Lowered.Stmt}
  {stmts : List Lowered.Stmt} {flat : FlatStmt} {before : Assertion}

/-! ### Requests -/

theorem run_addExpr (span : Span) (node : Node) (arena : FlatArena) :
    (addExpr span node).run arena =
      if arena.count .loweredExpr < numberCapacity then
        .ok (arena.exprs.size, (arena.addExpr (span, node)).2)
      else .error (.refused (.nodesFull .loweredExpr (arena.count .loweredExpr))) := by
  unfold addExpr ask StateT.run Arena.storeNode
  by_cases room : arena.count .loweredExpr < numberCapacity
  · simp only [if_pos room, Arena.addExpr]
  · simp only [if_neg room]

theorem run_addStmt (stmt : FlatStmt) (arena : FlatArena) :
    (addStmt stmt).run arena =
      if arena.count .loweredStmt < numberCapacity then
        .ok (arena.stmts.size, (arena.addStmt stmt).2)
      else .error (.refused (.nodesFull .loweredStmt (arena.count .loweredStmt))) := by
  unfold addStmt ask StateT.run Arena.storeNode
  by_cases room : arena.count .loweredStmt < numberCapacity
  · simp only [if_pos room, Arena.addStmt]
  · simp only [if_neg room]

theorem run_addExprs (ids : List NodeId) (arena : FlatArena) :
    (addExprs ids).run arena =
      if ids.isEmpty ∨ arena.storedCount .loweredExpr < numberCapacity then
        ((arena.addExprList .loweredExpr ids).1.mapError (.refused <| .listTooLong ·)).map
          (·, (arena.addExprList .loweredExpr ids).2)
      else .error (.refused (.listsFull .loweredExpr (arena.storedCount .loweredExpr))) := by
  unfold addExprs ask StateT.run Arena.storeList Arena.addList
  by_cases room : ids.isEmpty = true ∨ arena.storedCount .loweredExpr < numberCapacity
  · simp only [if_pos room, NodeKind.isExpr, if_true]
    cases (arena.addExprList .loweredExpr ids).1 <;> rfl
  · simp only [if_neg room]

theorem run_addStmts (ids : List NodeId) (arena : FlatArena) :
    (addStmts ids).run arena =
      if ids.isEmpty ∨ arena.storedCount .loweredStmt < numberCapacity then
        ((arena.addStmtList .loweredStmt ids).1.mapError (.refused <| .listTooLong ·)).map
          (·, (arena.addStmtList .loweredStmt ids).2)
      else .error (.refused (.listsFull .loweredStmt (arena.storedCount .loweredStmt))) := by
  unfold addStmts ask StateT.run Arena.storeList Arena.addList
  by_cases room : ids.isEmpty = true ∨ arena.storedCount .loweredStmt < numberCapacity
  · simp only [if_pos room, NodeKind.isExpr, Bool.false_eq_true, if_false]
    cases (arena.addStmtList .loweredStmt ids).1 <;> rfl
  · simp only [if_neg room]

/-! ### Expressions -/

/-- A node takes what it refers to and reads as its tree. -/
theorem makes_addExpr (owns : before.loose = node.references)
    (fact : ∀ arena : FlatArena, before.fact arena → node.Whole ∧
      ∀ final depth, arena.Sees final (depth - 1) →
        node.tree span (final.readExpr depth) (final.readExprs depth) (final.readStmts depth) =
          tree) :
    Makes before (addExpr span node) (exprAt · tree) := by
  intro arena rest ⟨accounts, holds⟩
  obtain ⟨whole, reads⟩ := fact arena holds
  rw [owns] at accounts
  rw [run_addExpr]
  by_cases room : arena.count .loweredExpr < numberCapacity
  · rw [if_pos room]
    exact ⟨FlatArena.extends_addExpr _ _, (), rfl, accounts.addExpr whole,
      FlatArena.readsExpr_addExpr reads⟩
  · rw [if_neg room]
    trivial

/-- A node that refers to nothing. -/
theorem makes_leaf (owns : node.references = 0) (whole : node.Whole)
    (reads : ∀ exprOf listOf bodyOf, node.tree span exprOf listOf bodyOf = tree) :
    Makes 0 (addExpr span node) (exprAt · tree) :=
  makes_addExpr owns.symm fun _ _ => ⟨whole, fun _ _ _ => reads _ _ _⟩

/-- A node with one child. -/
theorem makes_over (owns : node.references = {.expr id}) (whole : node.Whole)
    (reads : ∀ exprOf listOf bodyOf, exprOf id = inner →
      node.tree span exprOf listOf bodyOf = tree) :
    Makes (exprAt id inner) (addExpr span node) (exprAt · tree) :=
  makes_addExpr owns.symm fun _ holds => ⟨whole, fun _ _ sees =>
    reads _ _ _ (holds _ _ sees.deeper)⟩

/-- A node with two children. -/
theorem makes_both {other : NodeId} (owns : node.references = {.expr id} + {.expr other})
    (whole : node.Whole) (reads : ∀ exprOf listOf bodyOf, exprOf id = left →
      exprOf other = right → node.tree span exprOf listOf bodyOf = tree) :
    Makes (exprAt id left + exprAt other right) (addExpr span node) (exprAt · tree) :=
  makes_addExpr owns.symm fun _ holds => ⟨whole, fun _ _ sees =>
    reads _ _ _ (holds.1 _ _ sees.deeper) (holds.2 _ _ sees.deeper)⟩

/-- A node with arguments. -/
theorem makes_args (owns : node.references = {.exprs window})
    (whole : window.length = trees.length → node.Whole)
    (reads : ∀ exprOf listOf bodyOf, listOf window = trees →
      node.tree span exprOf listOf bodyOf = tree) :
    Makes (argsAt window trees) (addExpr span node) (exprAt · tree) :=
  makes_addExpr owns.symm fun _ holds => ⟨whole holds.2, fun _ _ sees =>
    reads _ _ _ (holds.1 _ _ sees)⟩

/-- A node with a receiver and arguments. -/
theorem makes_call (owns : node.references = {.expr id} + {.exprs window})
    (whole : window.length = trees.length → node.Whole)
    (reads : ∀ exprOf listOf bodyOf, exprOf id = inner → listOf window = trees →
      node.tree span exprOf listOf bodyOf = tree) :
    Makes (exprAt id inner + argsAt window trees) (addExpr span node) (exprAt · tree) :=
  makes_addExpr owns.symm fun _ holds => ⟨whole holds.2.2, fun _ _ sees =>
    reads _ _ _ (holds.1 _ _ sees.deeper) (holds.2.1 _ _ sees)⟩

/-- A call whose receiver may be absent. -/
theorem makes_unresolvedCall {method : Name} :
    Makes (optionAt id inner + argsAt window trees)
      (addExpr span (.unresolvedCall id method window))
      (exprAt · (.unresolvedCall span inner method trees)) :=
  makes_addExpr rfl fun _ holds => ⟨trivial, fun _ _ sees => by
    rw [Node.tree, holds.1 _ _ sees.deeper, holds.2.1 _ _ sees]⟩

theorem makes_block :
    Makes (bodyAt window stmts + exprAt id inner) (addExpr span (.block window id))
      (exprAt · (.block span stmts inner)) :=
  makes_addExpr rfl fun _ holds => ⟨trivial, fun _ _ sees => by
    rw [Node.tree, holds.1 _ _ sees, holds.2 _ _ sees.deeper]⟩

theorem makes_localVar (span : Span) (name : Name) :
    Makes 0 (addExpr span (.localVar name)) (exprAt · (.localVar span name)) :=
  makes_leaf rfl trivial fun _ _ _ => rfl

theorem makes_int (span : Span) (value : Int) :
    Makes 0 (addExpr span (.int value)) (exprAt · (.int span value)) :=
  makes_leaf rfl trivial fun _ _ _ => rfl

theorem makes_staticField (span : Span) (className name : Name) :
    Makes 0 (addExpr span (.staticField className name))
      (exprAt · (.staticField span className name)) :=
  makes_leaf rfl trivial fun _ _ _ => rfl

theorem makes_alloc (span : Span) (className : Name) :
    Makes 0 (addExpr span (.alloc className)) (exprAt · (.alloc span className)) :=
  makes_leaf rfl trivial fun _ _ _ => rfl

theorem makes_field {name : Name} :
    Makes (exprAt id inner) (addExpr span (.field id name)) (exprAt · (.field span inner name)) :=
  makes_over rfl trivial fun _ _ _ => congrArg (Lowered.Expr.field span · name)

theorem makes_length :
    Makes (exprAt id inner) (addExpr span (.length id)) (exprAt · (.length span inner)) :=
  makes_over rfl trivial fun _ _ _ => congrArg (Lowered.Expr.length span)

theorem makes_unary {op : UnaryOp} :
    Makes (exprAt id inner) (addExpr span (.unary op id)) (exprAt · (.unary span op inner)) :=
  makes_over rfl trivial fun _ _ _ => congrArg (Lowered.Expr.unary span op)

theorem makes_cast {type : Ty} :
    Makes (exprAt id inner) (addExpr span (.cast type id)) (exprAt · (.cast span type inner)) :=
  makes_over rfl trivial fun _ _ _ => congrArg (Lowered.Expr.cast span type)

theorem makes_instanceOf {className : Name} :
    Makes (exprAt id inner) (addExpr span (.instanceOf id className))
      (exprAt · (.instanceOf span inner className)) :=
  makes_over rfl trivial fun _ _ _ => congrArg (Lowered.Expr.instanceOf span · className)

theorem makes_arrayAlloc {element : Ty} :
    Makes (exprAt id inner) (addExpr span (.arrayAlloc element id))
      (exprAt · (.arrayAlloc span element inner)) :=
  makes_over rfl trivial fun _ _ _ => congrArg (Lowered.Expr.arrayAlloc span element)

theorem makes_index {other : NodeId} :
    Makes (exprAt id left + exprAt other right) (addExpr span (.index id other))
      (exprAt · (.index span left right)) :=
  makes_both rfl trivial fun _ _ _ => congrArg₂ (Lowered.Expr.index span)

theorem makes_assign {other : NodeId} :
    Makes (exprAt id left + exprAt other right) (addExpr span (.assign id other))
      (exprAt · (.assign span left right)) :=
  makes_both rfl trivial fun _ _ _ => congrArg₂ (Lowered.Expr.assign span)

theorem makes_binary {op : BinaryOp} {other : NodeId} :
    Makes (exprAt id left + exprAt other right) (addExpr span (.binary op id other))
      (exprAt · (.binary span op left right)) :=
  makes_both rfl trivial fun _ _ _ => congrArg₂ (Lowered.Expr.binary span op)

theorem makes_print {newline : Bool} :
    Makes (argsAt window trees) (addExpr span (.print newline window))
      (exprAt · (.print span newline trees)) :=
  makes_args rfl (fun _ => trivial) fun _ _ _ => congrArg (Lowered.Expr.print span newline)

theorem makes_qualifiedCall {className method : Name} :
    Makes (argsAt window trees) (addExpr span (.qualifiedCall className method window))
      (exprAt · (.qualifiedCall span className method trees)) :=
  makes_args rfl (fun _ => trivial) fun _ _ _ =>
    congrArg (Lowered.Expr.qualifiedCall span className method)

theorem makes_checkCall {kind : CheckKind} (count : trees.length = kind.arity) :
    Makes (argsAt window trees) (addExpr span (.check kind window))
      (exprAt · (.check span kind trees)) :=
  makes_args rfl (fun same => same.trans count) fun _ _ _ =>
    congrArg (Lowered.Expr.check span kind)

/-- A window that shows something is not empty. -/
theorem isEmpty_eq_false (same : window.length = (inner :: trees).length) :
    window.isEmpty = false := by
  unfold Window.isEmpty
  rw [same]
  rfl

theorem makes_initCall {className : Name} :
    Makes (argsAt window (inner :: trees)) (addExpr span (.initCall className window))
      (exprAt · (.initCall span className (inner :: trees))) :=
  makes_args rfl isEmpty_eq_false fun _ _ _ => congrArg (Lowered.Expr.initCall span className)

theorem makes_virtualCall {slot : Name} {receiver : Lowered.Expr} :
    Makes (exprAt id receiver + argsAt window (inner :: trees))
      (addExpr span (.virtualCall id slot window))
      (exprAt · (.virtualCall span receiver slot (inner :: trees))) :=
  makes_call rfl isEmpty_eq_false fun _ _ _ =>
    congrArg₂ (Lowered.Expr.virtualCall span · slot ·)

theorem makes_directCall {method : Name} {receiver : Lowered.Expr} :
    Makes (exprAt id receiver + argsAt window (inner :: trees))
      (addExpr span (.directCall id method window))
      (exprAt · (.directCall span receiver method (inner :: trees))) :=
  makes_call rfl isEmpty_eq_false fun _ _ _ =>
    congrArg₂ (Lowered.Expr.directCall span · method ·)

/-! ### Statements -/

/-- A statement takes what it refers to and reads as its tree. -/
theorem makes_addStmt (owns : before.loose = flat.references)
    (same : flat.isReturn = stmt.isReturn)
    (reads : ∀ arena : FlatArena, before.fact arena →
      ∀ final depth, arena.Sees final (depth - 1) →
        flat.tree (final.readExpr depth) (final.readExprs depth) (final.readStmt depth)
          (final.readStmts depth) = stmt) :
    Makes before (addStmt flat) (stmtAt · stmt) := by
  intro arena rest ⟨accounts, holds⟩
  rw [owns] at accounts
  rw [run_addStmt]
  by_cases room : arena.count .loweredStmt < numberCapacity
  · rw [if_pos room]
    exact ⟨FlatArena.extends_addStmt _ _, (), rfl, accounts.addStmt,
      FlatArena.readsStmt_addStmt (reads arena holds), flat, arena.stmt?_addStmt flat, same⟩
  · rw [if_neg room]
    trivial

theorem makes_eval : Makes (exprAt id tree) (addStmt (.eval id)) (stmtAt · (.eval tree)) :=
  makes_addStmt rfl rfl fun _ holds _ _ sees => by rw [FlatStmt.tree, holds _ _ sees.deeper]

theorem makes_ret : Makes (optionAt id tree) (addStmt (.ret id)) (stmtAt · (.ret tree)) :=
  makes_addStmt rfl rfl fun _ holds _ _ sees => by rw [FlatStmt.tree, holds _ _ sees.deeper]

theorem makes_declaration {type : Ty} {name : Name} :
    Makes (optionAt id tree) (addStmt (.localVar type name id))
      (stmtAt · (.localVar type name tree)) :=
  makes_addStmt rfl rfl fun _ holds _ _ sees => by rw [FlatStmt.tree, holds _ _ sees.deeper]

theorem makes_body :
    Makes (bodyAt window stmts) (addStmt (.block window)) (stmtAt · (.block stmts)) :=
  makes_addStmt rfl rfl fun _ holds _ _ sees => by rw [FlatStmt.tree, holds _ _ sees]

theorem makes_branch {cond yes no : NodeId} {test : Lowered.Expr} {first second : Lowered.Stmt} :
    Makes (exprAt cond test + stmtAt yes first + stmtOptionAt no second)
      (addStmt (.branch cond yes no)) (stmtAt · (.branch test first second)) :=
  makes_addStmt rfl rfl fun _ holds _ _ sees => by
    rw [FlatStmt.tree, holds.1.1 _ _ sees.deeper, holds.1.2.1 _ _ sees.deeper,
      holds.2 _ _ sees.deeper]

theorem makes_whileLoop {cond body : NodeId} {test : Lowered.Expr} {looped : Lowered.Stmt} :
    Makes (exprAt cond test + stmtAt body looped) (addStmt (.whileLoop cond body))
      (stmtAt · (.whileLoop test looped)) :=
  makes_addStmt rfl rfl fun _ holds _ _ sees => by
    rw [FlatStmt.tree, holds.1 _ _ sees.deeper, holds.2.1 _ _ sees.deeper]

theorem makes_forLoop {init update : Window} {cond body : NodeId} {test : Lowered.Expr}
    {looped : Lowered.Stmt} :
    Makes (bodyAt init stmts + optionAt cond test + argsAt update trees + stmtAt body looped)
      (addStmt (.forLoop init cond update body)) (stmtAt · (.forLoop stmts test trees looped)) :=
  makes_addStmt rfl rfl fun _ holds _ _ sees => by
    rw [FlatStmt.tree, holds.1.1.1 _ _ sees, holds.1.1.2 _ _ sees.deeper, holds.1.2.1 _ _ sees,
      holds.2.1 _ _ sees.deeper]

/-! ### Lists -/

/-- Storing a list is refused where its length is. -/
theorem fst_addExprList (kind : NodeKind) (arena : FlatArena) (ids : List NodeId) :
    ∃ window, (arena.addExprList kind ids).1 =
      (checkListLength kind ids.length).map fun _ => window := by
  unfold Arena.addExprList
  split
  · rename_i none
    rw [List.isEmpty_iff.mp none]
    exact ⟨.empty, rfl⟩
  · exact ⟨_, rfl⟩

theorem fst_addStmtList (kind : NodeKind) (arena : FlatArena) (ids : List NodeId) :
    ∃ window, (arena.addStmtList kind ids).1 =
      (checkListLength kind ids.length).map fun _ => window := by
  unfold Arena.addStmtList
  split
  · rename_i none
    rw [List.isEmpty_iff.mp none]
    exact ⟨.empty, rfl⟩
  · exact ⟨_, rfl⟩

/-- A request for a list agrees with a check of its length, if the list that is stored shows what
was taken. The arena may be full, which the check does not see. -/
theorem agrees_list {request : ArenaM Window} {kind : NodeKind} {length : Nat}
    {after : Window → Assertion} {room : FlatArena → Prop} [DecidablePred room]
    {store : FlatArena → Except ListTooLong Window × FlatArena} {count : FlatArena → Nat}
    (run : ∀ arena, request.run arena = if room arena then
      ((store arena).1.mapError (.refused <| .listTooLong ·)).map (·, (store arena).2)
      else .error (.refused (.listsFull kind (count arena))))
    (limited : ∀ arena, ∃ window,
      (store arena).1 = (checkListLength kind length).map fun _ => window)
    (stored : ∀ arena rest window, arena.Meets before rest → (store arena).1 = .ok window →
      arena.Extends (store arena).2 ∧ (store arena).2.Meets (after window) rest) :
    Agrees before request ((checkListLength kind length).mapError .listTooLong)
      fun window _ => after window := by
  intro arena rest meets
  obtain ⟨window, limited⟩ := limited arena
  rw [run]
  by_cases enough : room arena
  · rw [if_pos enough]
    cases limit : checkListLength kind length with
    | ok _ =>
      rw [limit] at limited
      obtain ⟨grown, shows⟩ := stored arena rest window meets limited
      rw [limited]
      exact ⟨grown, _, rfl, shows⟩
    | error refusal =>
      rw [limit] at limited
      rw [limited]
      rfl
  · rw [if_neg enough]
    trivial

/-- A list takes its entries, unless it is too long. -/
theorem agrees_addExprs :
    Agrees (exprsAt ids trees) (addExprs ids)
      ((checkListLength .loweredExpr trees.length).mapError .listTooLong)
      fun window _ => argsAt window trees := by
  refine .of_fact (fun _ fact => length_eq_of_each fact) fun same => ?_
  rw [← same]
  refine agrees_list (run_addExprs ids) (fun arena => fst_addExprList _ arena ids) ?_
  intro arena rest window ⟨accounts, fact⟩ stored
  obtain ⟨owns, reads⟩ := exprsAt_parts fact
  rw [owns] at accounts
  obtain ⟨found, entries⟩ := arena.exprList?_addExprList .loweredExpr stored
  have grown := FlatArena.extends_addExprList .loweredExpr arena ids
  exact ⟨grown, accounts.addExprList found,
    FlatArena.readsExprs_of_list (reads.imp fun _ _ reads => reads.mono grown) found,
    entries.trans same⟩

/-- A list of statements takes its entries, unless it is too long. -/
theorem agrees_addStmts :
    Agrees (stmtsAt ids stmts) (addStmts ids)
      ((checkListLength .loweredStmt stmts.length).mapError .listTooLong)
      fun window _ => bodyAt window stmts := by
  refine .of_fact (fun _ fact => length_eq_of_each fact) fun same => ?_
  rw [← same]
  refine agrees_list (run_addStmts ids) (fun arena => fst_addStmtList _ arena ids) ?_
  intro arena rest window ⟨accounts, fact⟩ stored
  obtain ⟨owns, reads⟩ := stmtsAt_parts fact
  rw [owns] at accounts
  obtain ⟨found, _⟩ := arena.stmtList?_addStmtList .loweredStmt stored
  have grown := FlatArena.extends_addStmtList .loweredStmt arena ids
  exact ⟨grown, accounts.addStmtList found,
    FlatArena.readsStmts_of_list (reads.imp fun _ _ reads => reads.mono grown) found⟩

/-- A list within the limit. -/
theorem makes_addExprs (few : trees.length ≤ maxListLength) :
    Makes (exprsAt ids trees) (addExprs ids) (argsAt · trees) := by
  have agrees := @agrees_addExprs ids trees
  unfold checkListLength at agrees
  rwa [if_pos few] at agrees

theorem makes_addStmts (few : stmts.length ≤ maxListLength) :
    Makes (stmtsAt ids stmts) (addStmts ids) (bodyAt · stmts) := by
  have agrees := @agrees_addStmts ids stmts
  unfold checkListLength at agrees
  rwa [if_pos few] at agrees

/-- A length is checked without regard to temporaries. -/
theorem run_checkLength {α : Type} (kind : NodeKind) (items : List α) (count : Nat) :
    (Lowering.checkLength kind items).run count =
      ((checkListLength kind items.length).mapError LoweringFailure.listTooLong).map
        (·, count) := by
  unfold Lowering.checkLength
  cases checkListLength kind items.length <;> rfl

/-- A step outside of temporaries against one that keeps their count. -/
theorem mirrors_of_agrees {α β : Type} {build : ArenaM α} {lower : LowerM β}
    {outcome : Except LoweringFailure β} {after : α → β → Assertion}
    (agrees : Agrees before build outcome after)
    (keeps : ∀ count, lower.run count = outcome.map (·, count)) :
    Mirrors before (liftM build) lower after := by
  intro count
  have later : outcome.map (·, count) = outcome >>= fun tree => .ok (tree, count) := by
    cases outcome <;> rfl
  rw [keeps, later]
  show Agrees before (build >>= fun made => Pure.pure (made, count)) _ _
  exact agrees.bind fun made tree => .pure (.add_known rfl _)

/-- **Storing a list is refused where lowering refuses its length.** -/
theorem mirrors_addExprs :
    Mirrors (exprsAt ids trees) (liftM (addExprs ids))
      (Lowering.checkLength .loweredExpr trees) fun window _ => argsAt window trees :=
  mirrors_of_agrees agrees_addExprs fun count => run_checkLength _ _ count

theorem mirrors_addStmts :
    Mirrors (stmtsAt ids stmts) (liftM (addStmts ids))
      (Lowering.checkLength .loweredStmt stmts) fun window _ => bodyAt window stmts :=
  mirrors_of_agrees agrees_addStmts fun count => run_checkLength _ _ count

end ObjectLowering.Building
