/-
**Who refers to what in an arena.**

A node refers to other nodes, and to lists by their windows; an entry of a list and a class refer to
nodes. In a forest every node refers to earlier nodes only, and one place at most refers to a node.

* `FlatArena.Built`: the arena was made by adding nodes and lists that refer to what was there.
* `FlatUnit.IsForest`: no node is referred to from two places.
* `FlatArena.Accounts`: the same of an arena that is being built, together with the loose
  references, which no node has taken yet.
* `FlatArena.Accounts.add`: what is added takes loose references and is loose itself.
* **`FlatUnit.validate_of_accounts`**: a unit whose classes take the loose references is valid.
-/

import Mathlib.Data.Multiset.Bind
import Mathlib.Tactic.Abel
import ObjectLowering.Lowered.Validate
import ObjectLowering.Proofs.Building.Growth

namespace ObjectLowering.Lowered

/-- A reference from a node, a list or a class. -/
inductive Reference where
  | expr (id : NodeId)
  | stmt (id : NodeId)
  | exprs (window : Window)
  | stmts (window : Window)
  deriving DecidableEq

/-- Whether the reference is to a node, not to a list. -/
def Reference.IsNode : Reference → Prop
  | .expr _ | .stmt _ => True
  | .exprs _ | .stmts _ => False

/-- The reference to an expression that may be absent. -/
def present (id : NodeId) : Multiset Reference := if id.isValid then {.expr id} else 0

/-- The reference to a statement that may be absent. -/
def presentStmt (id : NodeId) : Multiset Reference := if id.isValid then {.stmt id} else 0

/-- What several items refer to is what one of them does. -/
theorem mem_sum_map {ι : Type} {items : List ι} {references : ι → Multiset Reference}
    {reference : Reference} :
    reference ∈ (items.map references).sum ↔ ∃ item ∈ items, reference ∈ references item := by
  induction items with
  | nil => simp
  | cons item rest step => simp [step]

/-- What an expression refers to. -/
def Node.references : Node → Multiset Reference
  | .int _ | .float _ | .bool _ | .char _ | .str _ | .null | .localVar _ => 0
  | .staticField .. | .alloc _ | .identity _ => 0
  | .field only _ | .length only | .unary _ only | .cast _ only => {.expr only}
  | .instanceOf only _ | .arrayAlloc _ only => {.expr only}
  | .index first second | .assign first second | .binary _ first second =>
    {.expr first} + {.expr second}
  | .initCall _ args | .qualifiedCall _ _ args | .check _ args | .print _ args => {.exprs args}
  | .virtualCall receiver _ args | .directCall receiver _ args =>
    {.expr receiver} + {.exprs args}
  | .unresolvedCall receiver _ args => present receiver + {.exprs args}
  | .block body result => {.stmts body} + {.expr result}

/-- What a statement refers to. -/
def FlatStmt.references : FlatStmt → Multiset Reference
  | .eval expr => {.expr expr}
  | .localVar _ _ value | .ret value => present value
  | .block body => {.stmts body}
  | .branch cond yes no => {.expr cond} + {.stmt yes} + presentStmt no
  | .whileLoop cond body => {.expr cond} + {.stmt body}
  | .forLoop init cond update body =>
    {.stmts init} + present cond + {.exprs update} + {.stmt body}

def MemberInit.references : MemberInit NodeId → Multiset Reference
  | .vtablePtr => 0
  | .field _ value => {.expr value}

def StaticStorage.references (storage : StaticStorage NodeId) : Multiset Reference :=
  {.expr storage.init}

def Method.references (method : Method NodeId) : Multiset Reference := {.stmt method.body}

/-- What a class refers to. -/
def ClassLayout.references (layout : ClassLayout NodeId NodeId) : Multiset Reference :=
  (layout.ctor.map (·.references)).sum + (layout.statics.map (·.references)).sum +
    (layout.inits.map (·.references)).sum + (layout.methods.map (·.references)).sum

/-- Whether a node has as many arguments as its form asks for. -/
def Node.Whole : Node → Prop
  | .initCall _ args | .virtualCall _ _ args | .directCall _ _ args => args.isEmpty = false
  | .check kind args => args.length = kind.arity
  | _ => True

namespace FlatArena

/-- All that the expressions and statements refer to. -/
def held (arena : FlatArena) : Multiset Reference :=
  (arena.exprs.toList.map (·.2.references)).sum + (arena.stmts.toList.map (·.references)).sum

/-- The references of the entries of lists. -/
def stored (arena : FlatArena) : Multiset Reference :=
  (arena.exprLists.toList : Multiset NodeId).map .expr +
    (arena.stmtLists.toList : Multiset NodeId).map .stmt

/-- The references that a window shows. -/
def shown (arena : FlatArena) : Reference → Multiset Reference
  | .expr _ | .stmt _ => 0
  | .exprs window => ((arena.exprList? window).getD [] : Multiset NodeId).map .expr
  | .stmts window => ((arena.stmtList? window).getD [] : Multiset NodeId).map .stmt

/-- What is referred to is in the arena. -/
def Has (arena : FlatArena) : Reference → Prop
  | .expr id => id < arena.exprs.size
  | .stmt id => id < arena.stmts.size
  | .exprs window => ∃ ids, arena.exprList? window = some ids
  | .stmts window => ∃ ids, arena.stmtList? window = some ids

/-- The arena was made by adding nodes, statements and lists one after the other, each of which
refers only to what was there before. -/
inductive Built : FlatArena → Prop
  | empty : Built .empty
  | expr {arena : FlatArena} (before : Built arena) (span : Span) {node : Node}
      (has : ∀ reference ∈ node.references, arena.Has reference) :
      Built (arena.addExpr (span, node)).2
  | stmt {arena : FlatArena} (before : Built arena) {stmt : FlatStmt}
      (has : ∀ reference ∈ stmt.references, arena.Has reference) :
      Built (arena.addStmt stmt).2
  | exprList {arena : FlatArena} (before : Built arena) {ids : List NodeId}
      (has : ∀ id ∈ ids, arena.Has (.expr id)) : Built (arena.addExprList .loweredExpr ids).2
  | stmtList {arena : FlatArena} (before : Built arena) {ids : List NodeId}
      (has : ∀ id ∈ ids, arena.Has (.stmt id)) : Built (arena.addStmtList .loweredStmt ids).2

end FlatArena

namespace FlatUnit

/-- All that the classes refer to. -/
def roots (flat : FlatUnit) : Multiset Reference := (flat.unit.classes.map (·.references)).sum

/-- Whether the arena is a forest. -/
structure IsForest (flat : FlatUnit) : Prop where
  /-- A node refers only to what was added before it. -/
  built : flat.arena.Built
  roots : ∀ reference ∈ flat.roots, flat.arena.Has reference
  /-- One place at most refers to a node: another node, an entry of a list or a class. -/
  once : ∀ reference : Reference, reference.IsNode →
    (flat.arena.held + flat.arena.stored + flat.roots).count reference ≤ 1
  /-- Every entry of a list stands in the window of one node. -/
  shown : flat.arena.held.bind flat.arena.shown = flat.arena.stored

end FlatUnit

/-! ### Accounts -/

namespace FlatArena

/-- What an arena that is being built satisfies, together with the loose references. A loose window
is one that is not in a node yet. -/
structure Accounts (arena : FlatArena) (loose : Multiset Reference) : Prop where
  built : arena.Built
  whole : ∀ expr ∈ arena.exprs.toList, expr.2.Whole
  has : ∀ reference ∈ loose, arena.Has reference
  once : ∀ reference : Reference, reference.IsNode →
    (arena.held + arena.stored + loose).count reference ≤ 1
  shown : (arena.held + loose).bind arena.shown = arena.stored

variable {arena later : FlatArena} {loose rest : Multiset Reference} {reference : Reference}
  {span : Span} {node : Node} {stmt : FlatStmt} {ids : List NodeId} {window : Window}

theorem Has.mono (has : arena.Has reference) (grown : arena.Extends later) :
    later.Has reference := by
  cases reference with
  | expr id => exact Nat.lt_of_lt_of_le has grown.exprs
  | stmt id => exact Nat.lt_of_lt_of_le has grown.stmts
  | exprs window => exact has.imp (grown.exprLists window)
  | stmts window => exact has.imp (grown.stmtLists window)

/-- A window shows the same in every later arena. -/
theorem Has.shown_eq (has : arena.Has reference) (grown : arena.Extends later) :
    later.shown reference = arena.shown reference := by
  cases reference with
  | expr _ | stmt _ => rfl
  | exprs window =>
    obtain ⟨ids, found⟩ := has
    rw [shown, shown, found, grown.exprLists window ids found]
  | stmts window =>
    obtain ⟨ids, found⟩ := has
    rw [shown, shown, found, grown.stmtLists window ids found]

theorem held_addExpr (arena : FlatArena) (expr : Span × Node) :
    held (arena.addExpr expr).2 = expr.2.references + arena.held := by
  show ((arena.exprs.push expr).toList.map (·.2.references)).sum + _ = _
  rw [Array.toList_push, List.map_append, List.sum_append, held, List.map_singleton,
    List.sum_singleton]
  abel

theorem held_addStmt (arena : FlatArena) (stmt : FlatStmt) :
    held (arena.addStmt stmt).2 = stmt.references + arena.held := by
  show (arena.exprs.toList.map (·.2.references)).sum +
    ((arena.stmts.push stmt).toList.map (·.references)).sum = _
  rw [Array.toList_push, List.map_append, List.sum_append, held, List.map_singleton,
    List.sum_singleton]
  abel

theorem held_addExprList (arena : FlatArena) (ids : List NodeId) :
    held (arena.addExprList .loweredExpr ids).2 = arena.held := by
  rw [Arena.addExprList_parts]
  rfl

theorem held_addStmtList (arena : FlatArena) (ids : List NodeId) :
    held (arena.addStmtList .loweredStmt ids).2 = arena.held := by
  rw [Arena.addStmtList_parts]
  rfl

theorem stored_addExprList (arena : FlatArena) (ids : List NodeId) :
    stored (arena.addExprList .loweredExpr ids).2 =
      (ids : Multiset NodeId).map .expr + arena.stored := by
  rw [Arena.addExprList_parts]
  simp only [stored, Array.toList_append, ← Multiset.coe_add, Multiset.map_add]
  abel

theorem stored_addStmtList (arena : FlatArena) (ids : List NodeId) :
    stored (arena.addStmtList .loweredStmt ids).2 =
      (ids : Multiset NodeId).map .stmt + arena.stored := by
  rw [Arena.addStmtList_parts]
  simp only [stored, Array.toList_append, ← Multiset.coe_add, Multiset.map_add]
  abel

/-- Everything that is referred to is there. -/
theorem Built.has (built : arena.Built) :
    (∀ reference ∈ arena.held, arena.Has reference) ∧
      ∀ reference ∈ arena.stored, arena.Has reference := by
  induction built with
  | empty => exact ⟨fun _ member => (nomatch member), fun _ member => (nomatch member)⟩
  | @expr arena _ span node has step =>
    have grown := extends_addExpr arena (span, node)
    rw [held_addExpr]
    refine ⟨fun reference member => ?_,
      fun reference member => (step.2 reference member).mono grown⟩
    rcases Multiset.mem_add.mp member with new | old
    · exact (has reference new).mono grown
    · exact (step.1 reference old).mono grown
  | @stmt arena _ stmt has step =>
    have grown := extends_addStmt arena stmt
    rw [held_addStmt]
    refine ⟨fun reference member => ?_,
      fun reference member => (step.2 reference member).mono grown⟩
    rcases Multiset.mem_add.mp member with new | old
    · exact (has reference new).mono grown
    · exact (step.1 reference old).mono grown
  | @exprList arena _ ids has step =>
    have grown := extends_addExprList .loweredExpr arena ids
    rw [held_addExprList, stored_addExprList]
    refine ⟨fun reference member => (step.1 reference member).mono grown,
      fun reference member => ?_⟩
    rcases Multiset.mem_add.mp member with new | old
    · obtain ⟨id, entry, rfl⟩ := Multiset.mem_map.mp new
      exact (has id entry).mono grown
    · exact (step.2 reference old).mono grown
  | @stmtList arena _ ids has step =>
    have grown := extends_addStmtList .loweredStmt arena ids
    rw [held_addStmtList, stored_addStmtList]
    refine ⟨fun reference member => (step.1 reference member).mono grown,
      fun reference member => ?_⟩
    rcases Multiset.mem_add.mp member with new | old
    · obtain ⟨id, entry, rfl⟩ := Multiset.mem_map.mp new
      exact (has id entry).mono grown
    · exact (step.2 reference old).mono grown

namespace Accounts

theorem empty : Accounts .empty 0 where
  built := .empty
  whole _ member := nomatch member
  has _ member := absurd member (Multiset.notMem_zero _)
  once reference _ := by
    show Multiset.count reference (0 + 0 + (0 + 0) + 0) ≤ 1
    simp
  shown := rfl

/-- Everything that is referred to, loosely or not, is there. -/
theorem has_all (accounts : arena.Accounts loose) :
    ∀ reference ∈ arena.held + arena.stored + loose, arena.Has reference := by
  intro reference member
  rcases Multiset.mem_add.mp member with member | loosely
  · rcases Multiset.mem_add.mp member with holds | listed
    · exact accounts.built.has.1 reference holds
    · exact accounts.built.has.2 reference listed
  · exact accounts.has reference loosely

/-- What is in no arena is referred to from nowhere. -/
theorem count_eq_zero (accounts : arena.Accounts loose) (new : ¬arena.Has reference) :
    (arena.held + arena.stored + loose).count reference = 0 :=
  Multiset.count_eq_zero.mpr fun member => new (accounts.has_all reference member)

/-- One more loose reference keeps the count, if it is to something new or to a list. -/
theorem once_cons (accounts : arena.Accounts loose) {new : Reference}
    (fresh : new.IsNode → ¬arena.Has new) (reference : Reference) (isNode : reference.IsNode) :
    ({new} + (arena.held + arena.stored + loose)).count reference ≤ 1 := by
  rw [Multiset.count_add, Multiset.count_singleton]
  split
  · rename_i same
    rw [accounts.count_eq_zero (same ▸ fresh (same ▸ isNode))]
  · rw [Nat.zero_add]
    exact accounts.once reference isNode

/-- In a later arena the windows show the same. -/
theorem bind_shown (accounts : arena.Accounts loose) (grown : arena.Extends later) :
    (arena.held + loose).bind later.shown = arena.stored := by
  rw [← accounts.shown]
  refine Multiset.bind_congr fun reference member => ?_
  rcases Multiset.mem_add.mp member with holds | loosely
  · exact (accounts.built.has.1 reference holds).shown_eq grown
  · exact (accounts.has reference loosely).shown_eq grown

/-- What the rest refers to is still there, and what is new. -/
theorem has_cons (accounts : arena.Accounts (loose + rest)) (grown : arena.Extends later)
    {new : Reference} (has : later.Has new) :
    ∀ reference ∈ {new} + rest, later.Has reference := by
  intro reference member
  rcases Multiset.mem_add.mp member with same | before
  · rw [Multiset.mem_singleton.mp same]
    exact has
  · exact (accounts.has reference (Multiset.mem_add.mpr (.inr before))).mono grown

/-- A reference to a node may be forgotten. -/
theorem drop (accounts : arena.Accounts ({reference} + rest)) (isNode : reference.IsNode) :
    arena.Accounts rest where
  built := accounts.built
  whole := accounts.whole
  has other member := accounts.has other (Multiset.mem_add.mpr (.inr member))
  once other node := by
    have most := accounts.once other node
    simp only [Multiset.count_add] at most ⊢
    omega
  shown := by
    rw [← accounts.shown, Multiset.add_bind, Multiset.add_bind, Multiset.add_bind,
      Multiset.singleton_bind]
    cases reference with
    | expr _ | stmt _ => rw [show arena.shown _ = 0 from rfl, zero_add]
    | exprs _ | stmts _ => exact isNode.elim

/-- **What is added takes loose references and is loose itself.** A node refers to what it takes; a
list shows it. -/
theorem add {taken : Multiset Reference} {new : Reference}
    (accounts : arena.Accounts (taken + rest)) (grown : arena.Extends later)
    (built : later.Built) (whole : ∀ expr ∈ later.exprs.toList, expr.2.Whole)
    (has : later.Has new) (fresh : new.IsNode → ¬arena.Has new)
    (refers : later.held + later.stored = taken + (arena.held + arena.stored))
    (shows : later.held.bind later.shown = (taken + arena.held).bind later.shown)
    (stores : later.stored = later.shown new + arena.stored) :
    later.Accounts ({new} + rest) where
  built := built
  whole := whole
  has := accounts.has_cons grown has
  once reference isNode := by
    have same : later.held + later.stored + ({new} + rest) =
        {new} + (arena.held + arena.stored + (taken + rest)) := by
      rw [refers]
      abel
    rw [same]
    exact accounts.once_cons fresh reference isNode
  shown := by
    have before := accounts.bind_shown grown
    rw [Multiset.add_bind, Multiset.add_bind] at before
    rw [Multiset.add_bind, Multiset.add_bind, shows, Multiset.singleton_bind, stores, ← before,
      Multiset.add_bind]
    abel

/-- **A new expression takes what it refers to.** -/
theorem addExpr (accounts : arena.Accounts (node.references + rest)) (whole : node.Whole) :
    Accounts (arena.addExpr (span, node)).2 ({.expr arena.exprs.size} + rest) := by
  refine accounts.add (extends_addExpr arena (span, node))
    (.expr accounts.built span fun reference member =>
      accounts.has reference (Multiset.mem_add.mpr (.inl member))) ?_ ?_
    (fun _ => Nat.lt_irrefl _) ?_ (by rw [held_addExpr]) (zero_add arena.stored).symm
  · show ∀ expr ∈ (arena.exprs.push (span, node)).toList, expr.2.Whole
    rw [Array.toList_push, List.forall_mem_append, List.forall_mem_singleton]
    exact ⟨accounts.whole, whole⟩
  · show _ < (arena.exprs.push (span, node)).size
    rw [Array.size_push]
    exact Nat.lt_succ_self _
  · rw [held_addExpr]
    exact add_assoc ..

/-- **A new statement takes what it refers to.** -/
theorem addStmt (accounts : arena.Accounts (stmt.references + rest)) :
    Accounts (arena.addStmt stmt).2 ({.stmt arena.stmts.size} + rest) := by
  refine accounts.add (extends_addStmt arena stmt)
    (.stmt accounts.built fun reference member =>
      accounts.has reference (Multiset.mem_add.mpr (.inl member))) accounts.whole ?_
    (fun _ => Nat.lt_irrefl _) ?_ (by rw [held_addStmt]) (zero_add arena.stored).symm
  · show _ < (arena.stmts.push stmt).size
    rw [Array.size_push]
    exact Nat.lt_succ_self _
  · rw [held_addStmt]
    exact add_assoc ..

/-- **A new list takes its entries**; its window is loose. -/
theorem addExprList
    (accounts : arena.Accounts ((ids : Multiset NodeId).map .expr + rest))
    (found : (arena.addExprList .loweredExpr ids).2.exprList? window = some ids) :
    Accounts (arena.addExprList .loweredExpr ids).2 ({.exprs window} + rest) := by
  refine accounts.add (extends_addExprList .loweredExpr arena ids)
    (.exprList accounts.built fun id member => accounts.has _
      (Multiset.mem_add.mpr (.inl (Multiset.mem_map_of_mem _ member)))) ?_ ⟨ids, found⟩
    False.elim ?_ ?_ ?_
  · rw [Arena.addExprList_parts]
    exact accounts.whole
  · rw [held_addExprList, stored_addExprList]
    abel
  · rw [held_addExprList, Multiset.add_bind, Multiset.bind_map]
    show _ = (ids : Multiset NodeId).bind (fun _ => 0) + _
    rw [Multiset.bind_zero, zero_add]
  · rw [stored_addExprList, FlatArena.shown, found, Option.getD_some]

/-- **A new list of statements takes its entries**; its window is loose. -/
theorem addStmtList
    (accounts : arena.Accounts ((ids : Multiset NodeId).map .stmt + rest))
    (found : (arena.addStmtList .loweredStmt ids).2.stmtList? window = some ids) :
    Accounts (arena.addStmtList .loweredStmt ids).2 ({.stmts window} + rest) := by
  refine accounts.add (extends_addStmtList .loweredStmt arena ids)
    (.stmtList accounts.built fun id member => accounts.has _
      (Multiset.mem_add.mpr (.inl (Multiset.mem_map_of_mem _ member)))) ?_ ⟨ids, found⟩
    False.elim ?_ ?_ ?_
  · rw [Arena.addStmtList_parts]
    exact accounts.whole
  · rw [held_addStmtList, stored_addStmtList]
    abel
  · rw [held_addStmtList, Multiset.add_bind, Multiset.bind_map]
    show _ = (ids : Multiset NodeId).bind (fun _ => 0) + _
    rw [Multiset.bind_zero, zero_add]
  · rw [stored_addStmtList, FlatArena.shown, found, Option.getD_some]

end Accounts

/-! ### Validity -/

theorem require_eq_ok {holds : Bool} {violation : Violation} :
    require holds violation = .ok () ↔ holds = true := by
  unfold require
  cases holds with
  | false => exact ⟨fun passed => (nomatch passed), fun known => (nomatch known)⟩
  | true => exact ⟨fun _ => rfl, fun _ => rfl⟩

theorem bind_eq_ok {first second : Except Violation PUnit} :
    (first >>= fun _ => second) = .ok () ↔ first = .ok () ∧ second = .ok () := by
  cases first with
  | error _ => exact ⟨fun passed => (nomatch passed), fun both => (nomatch both.1)⟩
  | ok _ => exact ⟨fun passed => ⟨rfl, passed⟩, And.right⟩

theorem forM_eq_ok {ι : Type} {items : List ι} {check : ι → Except Violation PUnit} :
    items.forM check = .ok () ↔ ∀ item ∈ items, check item = .ok () := by
  induction items with
  | nil => exact ⟨fun _ _ member => (nomatch member), fun _ => rfl⟩
  | cons item rest step =>
    rw [List.forall_mem_cons, ← step]
    exact bind_eq_ok

theorem checkExpr_of_has {role : ChildRole} {id : NodeId} (has : arena.Has (.expr id)) :
    arena.checkExpr role id = .ok () :=
  require_eq_ok.mpr (decide_eq_true has)

theorem checkStmt_of_has {parent id : NodeId} (has : arena.Has (.stmt id)) :
    arena.checkStmt parent id = .ok () :=
  require_eq_ok.mpr (decide_eq_true has)

theorem checkExprOption_of_has {role : ChildRole} {id : NodeId}
    (has : ∀ reference ∈ present id, arena.Has reference) :
    arena.checkExprOption role id = .ok () := by
  unfold checkExprOption
  split
  · rename_i valid
    rw [present, if_pos valid] at has
    exact checkExpr_of_has (has _ (Multiset.mem_singleton_self _))
  · rfl

/-- The entries of lists are in the arena. -/
theorem Built.has_expr (built : arena.Built) (found : arena.exprList? window = some ids) :
    ∀ id ∈ ids, arena.Has (.expr id) := by
  intro id member
  refine built.has.2 _ (Multiset.mem_add.mpr (.inl (Multiset.mem_map_of_mem _ ?_)))
  unfold Arena.exprList? Window.read? at found
  split at found
  · cases found
    exact List.mem_of_mem_drop (List.mem_of_mem_take member)
  · cases found

theorem Built.has_stmt (built : arena.Built) (found : arena.stmtList? window = some ids) :
    ∀ id ∈ ids, arena.Has (.stmt id) := by
  intro id member
  refine built.has.2 _ (Multiset.mem_add.mpr (.inr (Multiset.mem_map_of_mem _ ?_)))
  unfold Arena.stmtList? Window.read? at found
  split at found
  · cases found
    exact List.mem_of_mem_drop (List.mem_of_mem_take member)
  · cases found

theorem Built.checkExprs (built : arena.Built) (has : arena.Has (.exprs window)) :
    arena.checkExprs window = .ok () := by
  obtain ⟨ids, found⟩ := has
  unfold FlatArena.checkExprs
  rw [found]
  exact forM_eq_ok.mpr fun id member => checkExpr_of_has (built.has_expr found id member)

theorem Built.checkStmts (built : arena.Built) (has : arena.Has (.stmts window)) :
    arena.checkStmts window = .ok () := by
  obtain ⟨ids, found⟩ := has
  unfold FlatArena.checkStmts
  rw [found]
  exact forM_eq_ok.mpr fun id member =>
    require_eq_ok.mpr (decide_eq_true (built.has_stmt found id member))

/-- **An expression whose references are there is valid**, if it has its arguments. -/
theorem Built.checkNode (built : arena.Built)
    (has : ∀ reference ∈ node.references, arena.Has reference) (whole : node.Whole) (id : NodeId) :
    arena.checkNode id node = .ok () := by
  cases node with
  | field | length | unary | cast | instanceOf | arrayAlloc =>
    exact checkExpr_of_has (has _ (Multiset.mem_singleton_self _))
  | index | assign | binary =>
    simp only [Node.references, Multiset.mem_add, Multiset.mem_singleton, or_imp, forall_and,
      forall_eq] at has
    exact bind_eq_ok.mpr ⟨checkExpr_of_has has.1, checkExpr_of_has has.2⟩
  | virtualCall | directCall =>
    simp only [Node.references, Multiset.mem_add, Multiset.mem_singleton, or_imp, forall_and,
      forall_eq] at has
    refine bind_eq_ok.mpr ⟨checkExpr_of_has has.1, bind_eq_ok.mpr ⟨built.checkExprs has.2, ?_⟩⟩
    exact require_eq_ok.mpr (congrArg not whole)
  | unresolvedCall =>
    simp only [Node.references, Multiset.mem_add, or_imp, forall_and, Multiset.mem_singleton,
      forall_eq] at has
    exact bind_eq_ok.mpr ⟨checkExprOption_of_has has.1, built.checkExprs has.2⟩
  | initCall =>
    exact bind_eq_ok.mpr ⟨built.checkExprs (has _ (Multiset.mem_singleton_self _)),
      require_eq_ok.mpr (congrArg not whole)⟩
  | check =>
    exact bind_eq_ok.mpr ⟨built.checkExprs (has _ (Multiset.mem_singleton_self _)),
      require_eq_ok.mpr (beq_iff_eq.mpr whole)⟩
  | qualifiedCall | print => exact built.checkExprs (has _ (Multiset.mem_singleton_self _))
  | block =>
    simp only [Node.references, Multiset.mem_add, Multiset.mem_singleton, or_imp, forall_and,
      forall_eq] at has
    exact bind_eq_ok.mpr ⟨built.checkStmts has.1, checkExpr_of_has has.2⟩
  | _ => rfl

/-- **A statement whose references are there is valid.** -/
theorem Built.checkFlatStmt (built : arena.Built)
    (has : ∀ reference ∈ stmt.references, arena.Has reference) (id : NodeId) :
    arena.checkFlatStmt id stmt = .ok () := by
  cases stmt with
  | eval => exact checkExpr_of_has (has _ (Multiset.mem_singleton_self _))
  | localVar | ret => exact checkExprOption_of_has has
  | block => exact built.checkStmts (has _ (Multiset.mem_singleton_self _))
  | branch cond yes no =>
    simp only [FlatStmt.references, Multiset.mem_add, Multiset.mem_singleton, or_imp, forall_and,
      forall_eq] at has
    obtain ⟨⟨condition, first⟩, second⟩ := has
    refine bind_eq_ok.mpr ⟨checkExpr_of_has condition,
      bind_eq_ok.mpr ⟨checkStmt_of_has first, ?_⟩⟩
    split
    · rename_i valid
      rw [presentStmt, if_pos valid] at second
      exact checkStmt_of_has (second _ (Multiset.mem_singleton_self _))
    · rfl
  | whileLoop =>
    simp only [FlatStmt.references, Multiset.mem_add, Multiset.mem_singleton, or_imp, forall_and,
      forall_eq] at has
    exact bind_eq_ok.mpr ⟨checkExpr_of_has has.1, checkStmt_of_has has.2⟩
  | forLoop =>
    simp only [FlatStmt.references, Multiset.mem_add, Multiset.mem_singleton, or_imp, forall_and,
      forall_eq] at has
    obtain ⟨⟨⟨init, condition⟩, update⟩, body⟩ := has
    exact bind_eq_ok.mpr ⟨built.checkStmts init, bind_eq_ok.mpr
      ⟨checkExprOption_of_has condition, bind_eq_ok.mpr
        ⟨built.checkExprs update, checkStmt_of_has body⟩⟩⟩

end FlatArena

/-- Whether the members of a class stand as they have to: the vtable pointer comes first in an
object and last in the raw constructor, and a binding follows each slot. -/
structure ClassLayout.Ordered {ε σ : Type} (layout : ClassLayout ε σ) : Prop where
  data : layout.data.head? = some .vtablePtr
  ctor : (layout.ctor.map (·.value?.isNone)).getLast? = some true
  bindings : layout.slots.map (·.name) = layout.bindings.map (·.slot)

open FlatArena

theorem ClassLayout.Ordered.checkClass {arena : FlatArena} {layout : ClassLayout NodeId NodeId}
    (ordered : layout.Ordered) (has : ∀ reference ∈ layout.references, arena.Has reference) :
    arena.checkClass layout = .ok () := by
  simp only [references, Multiset.mem_add, or_imp, forall_and] at has
  obtain ⟨⟨⟨members, statics⟩, inits⟩, methods⟩ := has
  have inside {ι : Type} {items : List ι} {references : ι → Multiset Reference} {item : ι}
      (has : ∀ reference ∈ (items.map references).sum, arena.Has reference) (member : item ∈ items)
      {reference : Reference} (only : references item = {reference}) : arena.Has reference :=
    has reference (mem_sum_map.mpr ⟨item, member, only ▸ Multiset.mem_singleton_self reference⟩)
  have count := congrArg List.length ordered.bindings
  rw [List.length_map, List.length_map] at count
  have pointer := ordered.ctor
  rw [List.getLast?_map] at pointer
  obtain ⟨last, isLast, none⟩ := Option.map_eq_some_iff.mp pointer
  unfold FlatArena.checkClass
  refine bind_eq_ok.mpr ⟨require_eq_ok.mpr (beq_iff_eq.mpr ordered.data), ?_⟩
  refine bind_eq_ok.mpr ⟨require_eq_ok.mpr (by rw [isLast]; exact none), ?_⟩
  refine bind_eq_ok.mpr ⟨require_eq_ok.mpr (beq_iff_eq.mpr count), ?_⟩
  refine bind_eq_ok.mpr ⟨forM_eq_ok.mpr fun pair member => ?_, ?_⟩
  · -- The names agree position by position.
    obtain ⟨position, there, at'⟩ := List.getElem_of_mem member
    have same := List.getElem_of_eq ordered.bindings (i := position)
      (by rw [List.length_map]; rw [List.length_zip] at there; omega)
    rw [List.getElem_map, List.getElem_map] at same
    rw [List.getElem_zip] at at'
    refine require_eq_ok.mpr (beq_iff_eq.mpr ?_)
    rw [← at']
    exact same
  refine bind_eq_ok.mpr ⟨forM_eq_ok.mpr fun storage member =>
    checkExpr_of_has (inside statics member rfl), ?_⟩
  refine bind_eq_ok.mpr ⟨forM_eq_ok.mpr fun id member => ?_, ?_⟩
  · obtain ⟨set, among, value⟩ := List.mem_filterMap.mp member
    cases set with
    | vtablePtr => cases value
    | field name _ =>
      cases value
      exact checkExpr_of_has (inside members among rfl)
  refine forM_eq_ok.mpr fun routine member => require_eq_ok.mpr (decide_eq_true ?_)
  rcases List.mem_append.mp member with isInit | isMethod
  · exact (inside inits isInit rfl : arena.Has (.stmt routine.body))
  · exact (inside methods isMethod rfl : arena.Has (.stmt routine.body))

namespace FlatUnit

variable {flat : FlatUnit}

/-- **A unit whose classes take the loose references is valid.** -/
theorem validate_of_accounts (accounts : flat.arena.Accounts flat.roots)
    (ordered : ∀ layout ∈ flat.unit.classes, layout.Ordered) : flat.validate = .ok () := by
  have held := accounts.built.has.1
  refine bind_eq_ok.mpr ⟨forM_eq_ok.mpr fun ⟨expr, id⟩ member => ?_, ?_⟩
  · have inside := List.fst_mem_of_mem_zipIdx member
    refine accounts.built.checkNode (fun reference refers => held reference ?_)
      (accounts.whole expr inside) id
    exact Multiset.mem_add.mpr (.inl (mem_sum_map.mpr ⟨expr, inside, refers⟩))
  refine bind_eq_ok.mpr ⟨forM_eq_ok.mpr fun ⟨stmt, id⟩ member => ?_, ?_⟩
  · have inside := List.fst_mem_of_mem_zipIdx member
    refine accounts.built.checkFlatStmt (fun reference refers => held reference ?_) id
    exact Multiset.mem_add.mpr (.inr (mem_sum_map.mpr ⟨stmt, inside, refers⟩))
  · refine forM_eq_ok.mpr fun layout member => (ordered layout member).checkClass
      fun reference refers => accounts.has reference (mem_sum_map.mpr ⟨layout, member, refers⟩)

/-- A class refers to nodes, not to lists. -/
theorem isNode_of_mem_roots {reference : Reference} (member : reference ∈ flat.roots) :
    reference.IsNode := by
  obtain ⟨layout, _, refers⟩ := mem_sum_map.mp member
  simp only [ClassLayout.references, Multiset.mem_add, mem_sum_map] at refers
  rcases refers with ((⟨set, _, refers⟩ | ⟨_, _, refers⟩) | ⟨_, _, refers⟩) | ⟨_, _, refers⟩
  · cases set with
    | vtablePtr => exact (Multiset.notMem_zero _ refers).elim
    | field _ _ =>
      cases Multiset.mem_singleton.mp refers
      trivial
  all_goals
    cases Multiset.mem_singleton.mp refers
    trivial

/-- **A unit whose classes take the loose references is a forest.** -/
theorem isForest_of_accounts (accounts : flat.arena.Accounts flat.roots) : flat.IsForest where
  built := accounts.built
  roots := accounts.has
  once := accounts.once
  shown := by
    have none : flat.roots.bind flat.arena.shown = 0 := by
      rw [← Multiset.bind_zero flat.roots]
      refine Multiset.bind_congr fun reference member => ?_
      cases reference with
      | expr _ | stmt _ => rfl
      | exprs _ | stmts _ => exact (isNode_of_mem_roots member).elim
    rw [← accounts.shown, Multiset.add_bind, none, add_zero]

end FlatUnit

end ObjectLowering.Lowered
