/-
**The calls of a tree in the order of evaluation.**

A call stands in a tree with its span, as do a creation and a constructor chain, on either side of
lowering. Leaving the receivers of certain accesses out leaves the calls there out, and no others.

* `Expr.calls` and `Stmt.calls`, on either side, list the spans in the order of evaluation.
* `Source.Expr.callsBut` leaves the receivers of certain accesses out.
* `Source.Expr.LosesNothing`: at a node that is left out there is no call.
* **`Source.Expr.kept_callsBut`**: the calls that are left stand in order, and they are all exactly
  if nothing is lost at any node.
-/

import Mathlib.Tactic.Tauto
import ObjectLowering.Lowered.Expr
import ObjectLowering.Source.Decl

namespace ObjectLowering

/-! ### Calls in the order of evaluation -/

mutual

/-- The spans of the calls that evaluating an expression runs, but for those in the receivers of the
accesses that the condition names. -/
def Source.Expr.callsBut (dropped : NodeId → NodeId → Bool) : Source.Expr → List Span
  | .int .. | .float .. | .bool .. | .char .. | .str .. | .null _ => []
  | .ident .. | .this _ | .super _ => []
  | .field tag receiver _ =>
    if dropped tag.id receiver.id then [] else receiver.callsBut dropped
  | .call tag none _ args => Source.Expr.callsOfListBut dropped args ++ [tag.span]
  | .call tag (some receiver) _ args =>
    receiver.callsBut dropped ++ Source.Expr.callsOfListBut dropped args ++ [tag.span]
  | .chain tag _ args => Source.Expr.callsOfListBut dropped args ++ [tag.span]
  | .newObject tag _ args => Source.Expr.callsOfListBut dropped args ++ [tag.span]
  | .newArray _ _ dims _ => Source.Expr.callsOfListBut dropped dims
  | .index _ array position => array.callsBut dropped ++ position.callsBut dropped
  | .assign _ target value => target.callsBut dropped ++ value.callsBut dropped
  | .binary _ _ left right => left.callsBut dropped ++ right.callsBut dropped
  | .unary _ _ operand => operand.callsBut dropped
  | .cast _ _ operand => operand.callsBut dropped
  | .instanceOf _ operand _ => operand.callsBut dropped

/-- The spans of the calls of several expressions, one after the other. -/
def Source.Expr.callsOfListBut (dropped : NodeId → NodeId → Bool) : List Source.Expr → List Span
  | [] => []
  | expr :: rest => expr.callsBut dropped ++ Source.Expr.callsOfListBut dropped rest

end

/-- The spans of the calls of an expression that may be missing. -/
def Source.Expr.callsOfOptionBut (dropped : NodeId → NodeId → Bool) :
    Option Source.Expr → List Span
  | none => []
  | some expr => expr.callsBut dropped

mutual

/-- The spans of the calls of a statement, a loop run once through. -/
def Source.Stmt.callsBut (dropped : NodeId → NodeId → Bool) : Source.Stmt → List Span
  | .eval _ expr => expr.callsBut dropped
  | .localVar _ _ _ init => Source.Expr.callsOfOptionBut dropped init
  | .block _ body => Source.Stmt.callsOfListBut dropped body
  | .branch _ cond yes none => cond.callsBut dropped ++ yes.callsBut dropped
  | .branch _ cond yes (some no) =>
    cond.callsBut dropped ++ yes.callsBut dropped ++ no.callsBut dropped
  | .whileLoop _ cond body => cond.callsBut dropped ++ body.callsBut dropped
  | .forLoop _ init cond update body =>
    Source.Stmt.callsOfListBut dropped init ++ Source.Expr.callsOfOptionBut dropped cond ++
      body.callsBut dropped ++ Source.Expr.callsOfListBut dropped update
  | .ret _ value => Source.Expr.callsOfOptionBut dropped value

/-- The spans of the calls of several statements, one after the other. -/
def Source.Stmt.callsOfListBut (dropped : NodeId → NodeId → Bool) : List Source.Stmt → List Span
  | [] => []
  | stmt :: rest => stmt.callsBut dropped ++ Source.Stmt.callsOfListBut dropped rest

end

/-- The spans of all calls that evaluating an expression runs. -/
def Source.Expr.calls (expr : Source.Expr) : List Span := expr.callsBut fun _ _ => false

/-- The spans of all calls of a statement. -/
def Source.Stmt.calls (stmt : Source.Stmt) : List Span := stmt.callsBut fun _ _ => false

mutual

/-- The spans of the calls that evaluating a lowered expression runs. A copy of the receiver among
the arguments counts. -/
def Lowered.Expr.calls : Lowered.Expr → List Span
  | .absent | .dangling => []
  | .int .. | .float .. | .bool .. | .char .. | .str .. | .null _ | .localVar .. => []
  | .staticField .. | .alloc .. | .identity .. => []
  | .field _ object _ => object.calls
  | .length _ array => array.calls
  | .index _ array position => array.calls ++ position.calls
  | .assign _ target value => target.calls ++ value.calls
  | .binary _ _ left right => left.calls ++ right.calls
  | .unary _ _ operand => operand.calls
  | .cast _ _ operand => operand.calls
  | .instanceOf _ operand _ => operand.calls
  | .initCall span _ args => Lowered.Expr.callsOfList args ++ [span]
  | .virtualCall span receiver _ args => receiver.calls ++ Lowered.Expr.callsOfList args ++ [span]
  | .qualifiedCall span _ _ args => Lowered.Expr.callsOfList args ++ [span]
  | .directCall span receiver _ args => receiver.calls ++ Lowered.Expr.callsOfList args ++ [span]
  | .unresolvedCall span receiver _ args =>
    receiver.calls ++ Lowered.Expr.callsOfList args ++ [span]
  | .check _ _ args => Lowered.Expr.callsOfList args
  | .arrayAlloc _ _ size => size.calls
  | .print span _ args => Lowered.Expr.callsOfList args ++ [span]
  | .block _ body result => Lowered.Stmt.callsOfList body ++ result.calls

/-- The spans of the calls of several expressions, one after the other. -/
def Lowered.Expr.callsOfList : List Lowered.Expr → List Span
  | [] => []
  | expr :: rest => expr.calls ++ Lowered.Expr.callsOfList rest

/-- The spans of the calls of a lowered statement, a loop run once through. -/
def Lowered.Stmt.calls : Lowered.Stmt → List Span
  | .absent | .dangling => []
  | .eval expr => expr.calls
  | .localVar _ _ init => init.calls
  | .block body => Lowered.Stmt.callsOfList body
  | .branch cond yes no => cond.calls ++ yes.calls ++ no.calls
  | .whileLoop cond body => cond.calls ++ body.calls
  | .forLoop init cond update body =>
    Lowered.Stmt.callsOfList init ++ cond.calls ++ body.calls ++
      Lowered.Expr.callsOfList update
  | .ret value => value.calls

/-- The spans of the calls of several statements, one after the other. -/
def Lowered.Stmt.callsOfList : List Lowered.Stmt → List Span
  | [] => []
  | stmt :: rest => stmt.calls ++ Lowered.Stmt.callsOfList rest

end

namespace Lowered

theorem Stmt.callsOfList_append (stmts others : List Stmt) :
    Stmt.callsOfList (stmts ++ others) = Stmt.callsOfList stmts ++ Stmt.callsOfList others := by
  induction stmts with
  | nil => rfl
  | cons stmt rest step => rw [List.cons_append, callsOfList, callsOfList, step, List.append_assoc]

end Lowered

/-! ### What is left out -/

namespace Source

/-- An expression that may be evaluated again runs no call. -/
theorem Expr.callsBut_of_isPure (dropped : NodeId → NodeId → Bool) : ∀ {expr : Expr},
    expr.isPure = true → expr.callsBut dropped = []
  | .int .., _ | .float .., _ | .bool .., _ | .char .., _ | .str .., _ | .null _, _ => rfl
  | .ident .., _ | .this _, _ | .super _, _ => rfl
  | .field _ receiver _, isPure => by
    have below : receiver.callsBut dropped = [] := callsBut_of_isPure dropped isPure
    show (if _ then [] else receiver.callsBut dropped) = []
    rw [below, ite_self]

theorem Expr.callsOfListBut_eq_flatten (dropped : NodeId → NodeId → Bool) (exprs : List Expr) :
    callsOfListBut dropped exprs = (exprs.map (·.callsBut dropped)).flatten := by
  induction exprs with
  | nil => rfl
  | cons expr rest step => rw [callsOfListBut, step, List.map_cons, List.flatten_cons]

/-- No call is lost at a node: the receiver of an access that is left out runs none. -/
def Expr.LosesNothing (dropped : NodeId → NodeId → Bool) : Expr → Prop
  | .field tag receiver _ => dropped tag.id receiver.id = true → receiver.calls = []
  | _ => True

/-- Of all spans some are kept in order, and all of them exactly if nothing is lost at any node. -/
structure Kept (dropped : NodeId → NodeId → Bool) (nodes : List Expr) (kept all : List Span) :
    Prop where
  part : kept.Sublist all
  whole : kept = all ↔ ∀ node ∈ nodes, node.LosesNothing dropped

namespace Kept

variable {dropped : NodeId → NodeId → Bool} {nodes others : List Expr}
  {kept all keptThen allThen : List Span}

theorem none : Kept dropped [] [] [] := ⟨List.Sublist.refl _, by simp⟩

theorem append (first : Kept dropped nodes kept all)
    (second : Kept dropped others keptThen allThen) :
    Kept dropped (nodes ++ others) (kept ++ keptThen) (all ++ allThen) := by
  refine ⟨first.part.append second.part, ?_⟩
  rw [List.forall_mem_append, ← first.whole, ← second.whole]
  refine ⟨fun same => ?_, fun ⟨here, there⟩ => by rw [here, there]⟩
  -- Neither half can make up for what the other one lost.
  have lengths := congrArg List.length same
  rw [List.length_append, List.length_append] at lengths
  have shorter := first.part.length_le
  have shorterThen := second.part.length_le
  exact ⟨first.part.eq_of_length (by omega), second.part.eq_of_length (by omega)⟩

theorem node {root : Expr} (below : Kept dropped nodes kept all)
    (here : root.LosesNothing dropped) : Kept dropped (root :: nodes) kept all := by
  refine ⟨below.part, ?_⟩
  rw [below.whole, List.forall_mem_cons]
  exact ⟨fun rest => ⟨here, rest⟩, And.right⟩

theorem of_mem (same : Kept dropped nodes kept all)
    (listed : ∀ node, node ∈ others ↔ node ∈ nodes) : Kept dropped others kept all := by
  refine ⟨same.part, same.whole.trans ?_⟩
  exact forall_congr' fun node => by rw [listed]

theorem called (below : Kept dropped nodes kept all) (span : Span) :
    Kept dropped nodes (kept ++ [span]) (all ++ [span]) := by
  have both := below.append (⟨List.Sublist.refl [span], by simp⟩ : Kept dropped [] [span] [span])
  rwa [List.append_nil] at both

end Kept

mutual

/-- **Leaving receivers out keeps the order, and all calls exactly if no such receiver runs
one.** -/
theorem Expr.kept_callsBut (dropped : NodeId → NodeId → Bool) : ∀ expr : Expr,
    Kept dropped expr.nodes (expr.callsBut dropped) expr.calls
  | .int .. | .float .. | .bool .. | .char .. | .str .. | .null _ => Kept.none.node trivial
  | .ident .. | .this _ | .super _ => Kept.none.node trivial
  | .field tag receiver name => by
    have below := receiver.kept_callsBut dropped
    cases leaves : dropped tag.id receiver.id with
    | false =>
      have here : (Expr.field tag receiver name).LosesNothing dropped := fun left => by
        rw [leaves] at left
        cases left
      have whole := below.node here
      show Kept dropped _ (if dropped tag.id receiver.id then [] else _) receiver.calls
      rwa [leaves, if_neg Bool.false_ne_true]
    | true =>
      show Kept dropped (_ :: receiver.nodes) (if dropped tag.id receiver.id then [] else _)
        receiver.calls
      rw [leaves, if_pos rfl]
      refine ⟨List.nil_sublist _, ?_⟩
      rw [List.forall_mem_cons]
      refine ⟨fun none => ⟨fun _ => none.symm, ?_⟩, fun keeps => (keeps.1 leaves).symm⟩
      -- Where the receiver runs no call, nothing can be lost below it either.
      rw [← below.whole, ← none]
      have nothing := below.part
      rw [← none] at nothing
      exact List.sublist_nil.mp nothing
  | .call tag none _ args => ((Expr.kept_callsOfListBut dropped args).called tag.span).node trivial
  | .call tag (some receiver) _ args =>
    (((receiver.kept_callsBut dropped).append (Expr.kept_callsOfListBut dropped args)).called
      tag.span).node trivial
  | .chain tag _ args | .newObject tag _ args =>
    ((Expr.kept_callsOfListBut dropped args).called tag.span).node trivial
  | .newArray _ _ dims _ => (Expr.kept_callsOfListBut dropped dims).node trivial
  | .index _ left right | .assign _ left right | .binary _ _ left right =>
    ((left.kept_callsBut dropped).append (right.kept_callsBut dropped)).node trivial
  | .unary _ _ operand | .cast _ _ operand | .instanceOf _ operand _ =>
    (operand.kept_callsBut dropped).node trivial

theorem Expr.kept_callsOfListBut (dropped : NodeId → NodeId → Bool) : ∀ exprs : List Expr,
    Kept dropped (Expr.nodesOfList exprs) (Expr.callsOfListBut dropped exprs)
      (Expr.callsOfListBut (fun _ _ => false) exprs)
  | [] => Kept.none
  | expr :: rest => (expr.kept_callsBut dropped).append (Expr.kept_callsOfListBut dropped rest)

end

theorem Expr.kept_callsOfOptionBut (dropped : NodeId → NodeId → Bool) (expr : Option Expr) :
    Kept dropped (Expr.nodesOfOption expr) (Expr.callsOfOptionBut dropped expr)
      (Expr.callsOfOptionBut (fun _ _ => false) expr) := by
  cases expr with
  | none => exact Kept.none
  | some expr => exact expr.kept_callsBut dropped

mutual

theorem Stmt.kept_callsBut (dropped : NodeId → NodeId → Bool) : ∀ stmt : Stmt,
    Kept dropped stmt.nodes (stmt.callsBut dropped) stmt.calls
  | .eval _ expr => expr.kept_callsBut dropped
  | .localVar _ _ _ value | .ret _ value => Expr.kept_callsOfOptionBut dropped value
  | .block _ body => Stmt.kept_callsOfListBut dropped body
  | .branch _ cond yes none | .whileLoop _ cond yes =>
    (cond.kept_callsBut dropped).append (yes.kept_callsBut dropped)
  | .branch _ cond yes (some no) =>
    ((cond.kept_callsBut dropped).append (yes.kept_callsBut dropped)).append
      (no.kept_callsBut dropped)
  | .forLoop _ init cond update body => by
    have head := (Stmt.kept_callsOfListBut dropped init).append
      (Expr.kept_callsOfOptionBut dropped cond)
    have all := (head.append (body.kept_callsBut dropped)).append
      (Expr.kept_callsOfListBut dropped update)
    refine all.of_mem ?_
    intro node
    rw [nodes]
    simp only [List.mem_append]
    tauto

theorem Stmt.kept_callsOfListBut (dropped : NodeId → NodeId → Bool) : ∀ stmts : List Stmt,
    Kept dropped (Stmt.nodesOfList stmts) (Stmt.callsOfListBut dropped stmts)
      (Stmt.callsOfListBut (fun _ _ => false) stmts)
  | [] => Kept.none
  | stmt :: rest => (stmt.kept_callsBut dropped).append (Stmt.kept_callsOfListBut dropped rest)

end

end Source

end ObjectLowering
