/-
**Assertions about an arena that is being built.**

An assertion owns loose references and states a fact that every later arena keeps. The sum of two
assertions owns what either owns, so a number that one part of a form owns is in no other part: a
node that takes it is the only one that refers to it.

* `exprAt`, `stmtAt`: a loose number that reads as a tree. `optionAt`, `stmtOptionAt`: the tree may
  be absent.
* `exprsAt`, `stmtsAt` are several of them; `argsAt`, `bodyAt` are lists with a loose window.
* `Assertion.Entails`: one assertion may be used in place of the other.
-/

import ObjectLowering.Building.Stmt
import ObjectLowering.Proofs.Building.Reading
import ObjectLowering.Proofs.Building.References

namespace ObjectLowering.Lowered

/-- Loose references and a fact that later arenas keep. -/
@[ext]
structure Assertion where
  loose : Multiset Reference
  fact : FlatArena → Prop
  mono : ∀ {arena later : FlatArena}, arena.Extends later → fact arena → fact later

/-- An arena accounts for what an assertion owns beside the rest, and the fact holds. -/
def FlatArena.Meets (arena : FlatArena) (assertion : Assertion) (rest : Multiset Reference) :
    Prop :=
  arena.Accounts (assertion.loose + rest) ∧ assertion.fact arena

namespace Assertion

instance : Zero Assertion where
  zero := ⟨0, fun _ => True, fun _ known => known⟩

instance : Add Assertion where
  add first second := ⟨first.loose + second.loose,
    fun arena => first.fact arena ∧ second.fact arena,
    fun grown both => ⟨first.mono grown both.1, second.mono grown both.2⟩⟩

instance : AddCommMonoid Assertion where
  add_assoc _ _ _ := Assertion.ext (add_assoc ..) (funext fun _ => propext and_assoc)
  zero_add _ := Assertion.ext (zero_add _) (funext fun _ => propext (iff_of_eq (true_and _)))
  add_zero _ := Assertion.ext (add_zero _) (funext fun _ => propext (iff_of_eq (and_true _)))
  add_comm _ _ := Assertion.ext (add_comm ..) (funext fun _ => propext and_comm)
  nsmul := nsmulRec

/-- Something that has nothing to do with the arena. -/
def known (fact : Prop) : Assertion := ⟨0, fun _ => fact, fun _ holds => holds⟩

/-- The assertion in front suffices for the other one. -/
def Entails (first second : Assertion) : Prop :=
  ∀ (arena : FlatArena) rest, arena.Meets first rest → arena.Meets second rest

variable {first second third frame : Assertion} {arena : FlatArena} {rest : Multiset Reference}

theorem meets_add :
    arena.Meets (first + frame) rest ↔
      arena.Meets first (frame.loose + rest) ∧ frame.fact arena := by
  show arena.Accounts (first.loose + frame.loose + rest) ∧ _ ∧ _ ↔ (_ ∧ _) ∧ _
  rw [add_assoc, and_assoc]

namespace Entails

theorem refl (assertion : Assertion) : assertion.Entails assertion := fun _ _ meets => meets

theorem of_eq (same : first = second) : first.Entails second := same ▸ refl first

theorem trans (left : first.Entails second) (right : second.Entails third) :
    first.Entails third := fun _ _ meets => right _ _ (left _ _ meets)

theorem add (entails : first.Entails second) (frame : Assertion) :
    (first + frame).Entails (second + frame) := fun arena _ meets =>
  meets_add.mpr ⟨entails arena _ (meets_add.mp meets).1, (meets_add.mp meets).2⟩

theorem known_of {fact : Prop} (holds : fact) : (0 : Assertion).Entails (known fact) :=
  fun _ _ meets => ⟨meets.1, holds⟩

/-- What is known may be used. -/
theorem of_known {fact : Prop} (entails : fact → first.Entails second) :
    (first + known fact).Entails second := by
  intro arena rest ⟨accounts, holds, known⟩
  refine entails known arena rest ⟨?_, holds⟩
  rwa [show (first + Assertion.known fact).loose = first.loose from add_zero _] at accounts

/-- What holds may be stated. -/
theorem add_known {fact : Prop} (holds : fact) (assertion : Assertion) :
    assertion.Entails (assertion + known fact) := by
  intro arena rest meets
  refine meets_add.mpr ⟨?_, holds⟩
  rw [show (known fact).loose + rest = rest from zero_add rest]
  exact meets

end Entails

end Assertion

open Assertion

/-! ### Trees under numbers -/

/-- A loose number of an expression that reads as the tree. -/
def exprAt (id : NodeId) (tree : Expr) : Assertion :=
  ⟨{.expr id}, fun arena => arena.ReadsExpr id tree, fun grown reads => reads.mono grown⟩

/-- A loose number of a statement that reads as the tree and is a return if the tree is one. -/
def stmtAt (id : NodeId) (tree : Stmt) : Assertion where
  loose := {.stmt id}
  fact arena := arena.ReadsStmt id tree ∧
    ∃ stmt, arena.stmt? id = some stmt ∧ stmt.isReturn = tree.isReturn
  mono grown := fun ⟨reads, stmt, found, same⟩ =>
    ⟨reads.mono grown, stmt, grown.stmt id stmt found, same⟩

/-- A loose number that may be that of an absent expression. -/
def optionAt (id : NodeId) (tree : Expr) : Assertion :=
  ⟨present id, fun arena => arena.ReadsExpr id tree, fun grown reads => reads.mono grown⟩

def stmtOptionAt (id : NodeId) (tree : Stmt) : Assertion :=
  ⟨presentStmt id, fun arena => arena.ReadsStmt id tree, fun grown reads => reads.mono grown⟩

/-- A loose window whose entries read as the trees. -/
def argsAt (window : Window) (trees : List Expr) : Assertion where
  loose := {.exprs window}
  fact arena := arena.ReadsExprs window trees ∧ window.length = trees.length
  mono grown := fun ⟨reads, same⟩ => ⟨reads.mono grown, same⟩

/-- A loose window whose entries read as the statements. -/
def bodyAt (window : Window) (trees : List Stmt) : Assertion :=
  ⟨{.stmts window}, fun arena => arena.ReadsStmts window trees, fun grown reads => reads.mono grown⟩

/-- What is asserted of the items of two lists, position by position. -/
def each {α β : Type} (holds : α → β → Assertion) : List α → List β → Assertion
  | [], [] => 0
  | item :: items, tree :: trees => holds item tree + each holds items trees
  | _, _ => known False

abbrev exprsAt : List NodeId → List Expr → Assertion := each exprAt

abbrev stmtsAt : List NodeId → List Stmt → Assertion := each stmtAt

section Each

variable {α β : Type} {holds : α → β → Assertion}

/-- What is asserted of each item holds position by position. -/
theorem forall₂_of_each {items : List α} {trees : List β} {arena : FlatArena}
    (fact : (each holds items trees).fact arena) :
    List.Forall₂ (fun item tree => (holds item tree).fact arena) items trees := by
  induction items generalizing trees with
  | nil =>
    cases trees with
    | nil => exact .nil
    | cons _ _ => exact fact.elim
  | cons item items step =>
    cases trees with
    | nil => exact fact.elim
    | cons tree trees => exact .cons fact.1 (step fact.2)

theorem length_eq_of_each {items : List α} {trees : List β} {arena : FlatArena}
    (fact : (each holds items trees).fact arena) : items.length = trees.length :=
  (forall₂_of_each fact).length_eq

/-- What several items own is what each of them owns. -/
theorem loose_each {references : α → Multiset Reference} {items : List α} {trees : List β}
    (owns : List.Forall₂ (fun item tree => (holds item tree).loose = references item) items trees) :
    (each holds items trees).loose = (items.map references).sum := by
  induction owns with
  | nil => rfl
  | cons own _ step =>
    rw [List.map_cons, List.sum_cons, ← own, ← step]
    rfl

theorem each_append {items others : List α} {trees more : List β}
    (same : items.length = trees.length) :
    each holds (items ++ others) (trees ++ more) =
      each holds items trees + each holds others more := by
  induction items generalizing trees with
  | nil =>
    cases trees with
    | nil => exact (zero_add _).symm
    | cons _ _ => cases same
  | cons item items step =>
    cases trees with
    | nil => cases same
    | cons tree trees =>
      show holds item tree + each holds (items ++ others) (trees ++ more) = _
      rw [step (Nat.succ.inj same), ← add_assoc]
      rfl

end Each

theorem exprsAt_singleton (id : NodeId) (tree : Expr) : exprsAt [id] [tree] = exprAt id tree :=
  add_zero _

theorem stmtsAt_singleton (id : NodeId) (stmt : Stmt) : stmtsAt [id] [stmt] = stmtAt id stmt :=
  add_zero _

theorem stmtsAt_append {ids others : List NodeId} {stmts more : List Stmt}
    (same : ids.length = stmts.length) :
    stmtsAt (ids ++ others) (stmts ++ more) = stmtsAt ids stmts + stmtsAt others more :=
  each_append same

section Reading

variable {ids : List NodeId} {arena : FlatArena}

theorem sum_singleton (ids : List NodeId) (form : NodeId → Reference) :
    (ids.map fun id => ({form id} : Multiset Reference)).sum =
      (ids : Multiset NodeId).map form := by
  induction ids with
  | nil => rfl
  | cons id ids step =>
    rw [List.map_cons, List.sum_cons, step, ← Multiset.cons_coe, Multiset.map_cons,
      Multiset.singleton_add]

/-- Numbers of expressions own one reference each, and read one by one. -/
theorem exprsAt_parts {trees : List Expr} (fact : (exprsAt ids trees).fact arena) :
    (exprsAt ids trees).loose = (ids : Multiset NodeId).map .expr ∧
      List.Forall₂ arena.ReadsExpr ids trees := by
  have each := forall₂_of_each fact
  have own : List.Forall₂ (fun id tree => (exprAt id tree).loose = {.expr id}) ids trees :=
    each.imp fun _ _ _ => rfl
  exact ⟨(loose_each own).trans (sum_singleton ids .expr), each⟩

theorem stmtsAt_parts {trees : List Stmt} (fact : (stmtsAt ids trees).fact arena) :
    (stmtsAt ids trees).loose = (ids : Multiset NodeId).map .stmt ∧
      List.Forall₂ arena.ReadsStmt ids trees := by
  have each := forall₂_of_each fact
  have own : List.Forall₂ (fun id tree => (stmtAt id tree).loose = {.stmt id}) ids trees :=
    each.imp fun _ _ _ => rfl
  exact ⟨(loose_each own).trans (sum_singleton ids .stmt), each.imp fun _ _ fact => fact.1⟩

end Reading

/-- An expression stands where it may be absent. A number that stands for absent ones is forgotten
there. -/
theorem exprAt_entails_optionAt (id : NodeId) (tree : Expr) :
    (exprAt id tree).Entails (optionAt id tree) := by
  intro arena rest ⟨accounts, reads⟩
  refine ⟨?_, reads⟩
  show arena.Accounts (present id + rest)
  unfold present
  split
  · exact accounts
  · rw [zero_add]
    exact accounts.drop trivial

theorem stmtAt_entails_stmtOptionAt (id : NodeId) (tree : Stmt) :
    (stmtAt id tree).Entails (stmtOptionAt id tree) := by
  intro arena rest ⟨accounts, reads, _⟩
  refine ⟨?_, reads⟩
  show arena.Accounts (presentStmt id + rest)
  unfold presentStmt
  split
  · exact accounts
  · rw [zero_add]
    exact accounts.drop trivial

/-- Nothing is owned for an absent expression. -/
theorem entails_optionAt_absent : (0 : Assertion).Entails (optionAt NodeId.invalid .absent) :=
  fun _ _ meets => ⟨meets.1, FlatArena.readsExpr_absent⟩

theorem entails_stmtOptionAt_absent :
    (0 : Assertion).Entails (stmtOptionAt NodeId.invalid .absent) :=
  fun _ _ meets => ⟨meets.1, FlatArena.readsStmt_absent⟩

end ObjectLowering.Lowered
