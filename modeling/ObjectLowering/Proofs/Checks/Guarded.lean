/-
**Trees in which every access is behind its check.**

A check stands at the end of a block and vouches for the result: a call through the vtable for its
receiver, an element for its array and position. The length of a new array is checked where it is
made or where it was put into a local. An element of a new array is stored without a check only in
the loop that fills it, whose counter stays below the array's length.

* `Guard` is what stands in front of an expression, `Guard.behind` what the end of a block vouches
  for. `Scope` are the locals that were declared on the way.
* `Expr.Guarded`, `Stmt.Guarded`: every access is behind its check.
* `Expr.Guarded.mono`, `Stmt.Guarded.mono`: more may be vouched for than is needed.
* `Stmt.allGuarded_append`: statements behind statements see their locals.
-/

import ObjectLowering.Lowered.Expr
import ObjectLowering.Name

namespace ObjectLowering.Lowered

/-- What is vouched for where an expression stands. -/
inductive Guard where
  | none
  /-- The value is not `null`. -/
  | notNull (value : Expr)
  /-- The position is within the array. -/
  | access (array position : Expr)
  /-- The position is within the array, which takes the value. -/
  | store (array position value : Expr)
  /-- The counter runs from zero and is below the size. -/
  | fill (counter size : Name)

/-- What a check vouches for. -/
def Stmt.guard : Stmt → Guard
  | .eval (.check _ .notNull [value]) => .notNull value
  | .eval (.check _ .arrayAccess [array, position]) => .access array position
  | .eval (.check _ .arrayStore [array, position, value]) => .store array position value
  | _ => .none

namespace Guard

/-- What the end of a block vouches for. -/
def behind (body : List Stmt) : Guard := (body.getLast?.map Stmt.guard).getD .none

/-- What the head of a loop vouches for in its body. -/
def ofLoop : List Stmt → Expr → List Expr → Guard
  | [.localVar _ first (.int _ 0)], .binary _ .less (.localVar _ second) (.localVar _ size),
    [.unary _ .postIncrement (.localVar _ third)] =>
    if first = second ∧ first = third then .fill first size else .none
  | _, _, _ => .none

/-- What is vouched for an element that is written in place. -/
def ofOperand : Guard → Guard
  | access array position => .access array position
  | _ => .none

end Guard

/-- The locals that were declared, the innermost first, with their initial values. -/
abbrev Scope := List (Name × Expr)

namespace Scope

def declare (scope : Scope) : Stmt → Scope
  | .localVar _ name init => (name, init) :: scope
  | _ => scope

/-- The locals behind statements. -/
def after (scope : Scope) (body : List Stmt) : Scope := body.foldl declare scope

end Scope

/-- Whether the expression is the receiver parameter. -/
def Expr.IsReceiver (self : Name) : Expr → Prop
  | .localVar _ name => name = self
  | _ => False

/-- Whether the expression is a length that was checked. -/
def Expr.IsCheckedSize : Expr → Prop
  | .check _ .negativeLength [_] => True
  | _ => False

namespace Scope

/-- Whether an array may be made with this length: it is checked, or a local that was given a
checked one. -/
def Sizes (scope : Scope) : Expr → Prop
  | .localVar _ name => ∃ init, scope.lookup name = some init ∧ init.IsCheckedSize
  | size => size.IsCheckedSize

/-- Whether the expression is the local that was declared last. -/
def IsNewest (scope : Scope) : Expr → Prop
  | .localVar _ name => scope.head?.map (·.1) = some name
  | _ => False

/-- Whether the expression is the element at the counter of a local array that was made with the
size. -/
def Fills (scope : Scope) (counter size : Name) : Expr → Prop
  | .index _ (.localVar _ array) (.localVar _ position) => position = counter ∧
      ∃ span element place, scope.lookup array =
        some (.arrayAlloc span element (.localVar place size))
  | _ => False

end Scope

variable (self : Name)

mutual

/-- Whether every access in an expression is behind its check. -/
def Expr.Guarded (scope : Scope) (guard : Guard) : Expr → Prop
  | .absent | .dangling => True
  | .int .. | .float .. | .bool .. | .char .. | .str .. | .null _ | .localVar .. => True
  | .staticField .. | .alloc .. | .identity .. => True
  | .field _ object _ => object.Guarded scope .none
  | .length _ array => guard = .notNull array ∧ array.Guarded scope .none
  | .index _ array position => guard = .access array position ∧
      array.Guarded scope .none ∧ position.Guarded scope .none
  | .assign _ target value => value.Guarded scope .none ∧
      (target.Guarded scope .none ∨
        (∃ array position, guard = .store array position value ∧ scope.IsNewest value ∧
          target.Guarded scope (.access array position)) ∨
        ∃ counter size, guard = .fill counter size ∧ scope.Fills counter size target)
  | .binary _ _ left right => left.Guarded scope .none ∧ right.Guarded scope .none
  | .unary _ _ operand => operand.Guarded scope guard.ofOperand
  | .cast _ _ operand => operand.Guarded scope .none
  | .instanceOf _ operand _ => operand.Guarded scope .none
  | .virtualCall _ receiver _ args => (receiver.IsReceiver self ∨ guard = .notNull receiver) ∧
      receiver.Guarded scope .none ∧ Expr.AllGuarded scope args
  | .directCall _ receiver _ args => receiver.Guarded scope .none ∧ Expr.AllGuarded scope args
  | .unresolvedCall _ receiver _ args => receiver.Guarded scope .none ∧ Expr.AllGuarded scope args
  | .initCall _ _ args | .qualifiedCall _ _ _ args => Expr.AllGuarded scope args
  | .check _ _ args | .print _ _ args => Expr.AllGuarded scope args
  | .arrayAlloc _ _ size => scope.Sizes size ∧ size.Guarded scope .none
  | .block _ body result => Stmt.AllGuarded scope .none body ∧
      result.Guarded (scope.after body) (.behind body)

/-- Whether every access in several expressions is behind its check. -/
def Expr.AllGuarded (scope : Scope) : List Expr → Prop
  | [] => True
  | expr :: rest => expr.Guarded scope .none ∧ Expr.AllGuarded scope rest

/-- Whether every access in a statement is behind its check. -/
def Stmt.Guarded (scope : Scope) (guard : Guard) : Stmt → Prop
  | .absent | .dangling => True
  | .eval expr => expr.Guarded scope guard
  | .localVar _ _ init => init.Guarded scope .none
  | .block body => Stmt.AllGuarded scope guard body
  | .branch cond yes no => cond.Guarded scope .none ∧ yes.Guarded scope .none ∧
      no.Guarded scope .none
  | .whileLoop cond body => cond.Guarded scope .none ∧ body.Guarded scope .none
  | .forLoop init cond update body => Stmt.AllGuarded scope .none init ∧
      cond.Guarded (scope.after init) .none ∧ Expr.AllGuarded (scope.after init) update ∧
      body.Guarded (scope.after init) (.ofLoop init cond update)
  | .ret value => value.Guarded scope .none

/-- Whether every access in several statements is behind its check. What is vouched for holds of the
last one. -/
def Stmt.AllGuarded (scope : Scope) (guard : Guard) : List Stmt → Prop
  | [] => True
  | [stmt] => stmt.Guarded scope guard
  | stmt :: rest => stmt.Guarded scope .none ∧ Stmt.AllGuarded (scope.declare stmt) guard rest

end

/-! ### Lists of statements -/

variable {self : Name} {scope : Scope} {guard : Guard}

theorem Scope.after_append (scope : Scope) (first second : List Stmt) :
    scope.after (first ++ second) = (scope.after first).after second := List.foldl_append

@[simp]
theorem Guard.behind_append (body : List Stmt) (last : Stmt) :
    Guard.behind (body ++ [last]) = last.guard := by
  unfold Guard.behind
  rw [List.getLast?_concat]
  rfl

namespace Stmt

theorem allGuarded_cons {stmt : Stmt} {rest : List Stmt} :
    AllGuarded self scope .none (stmt :: rest) ↔
      stmt.Guarded self scope .none ∧ AllGuarded self (scope.declare stmt) .none rest := by
  cases rest with
  | nil => exact ⟨fun known => ⟨known, trivial⟩, And.left⟩
  | cons _ _ => exact Iff.rfl

/-- **Statements behind statements see their locals.** -/
theorem allGuarded_append {stmts others : List Stmt} :
    AllGuarded self scope .none (stmts ++ others) ↔
      AllGuarded self scope .none stmts ∧ AllGuarded self (scope.after stmts) .none others := by
  induction stmts generalizing scope with
  | nil => exact ⟨fun known => ⟨trivial, known⟩, And.right⟩
  | cons stmt rest step =>
    rw [List.cons_append, allGuarded_cons, step, allGuarded_cons, and_assoc]
    rfl

/-- What is vouched for holds of the last statement. -/
theorem allGuarded_concat {stmts : List Stmt} {last : Stmt} :
    AllGuarded self scope guard (stmts ++ [last]) ↔
      AllGuarded self scope .none stmts ∧ last.Guarded self (scope.after stmts) guard := by
  induction stmts generalizing scope with
  | nil => exact ⟨fun known => ⟨trivial, known⟩, And.right⟩
  | cons stmt rest step =>
    have onward : AllGuarded self scope guard (stmt :: (rest ++ [last])) ↔
        stmt.Guarded self scope .none ∧
          AllGuarded self (scope.declare stmt) guard (rest ++ [last]) := by
      cases rest <;> exact Iff.rfl
    rw [List.cons_append, onward, step, allGuarded_cons, and_assoc]
    rfl

end Stmt

/-! ### More than is needed -/

/-- More may be vouched for than an expression needs. -/
theorem Expr.Guarded.mono (guard : Guard) : ∀ {expr : Expr},
    expr.Guarded self scope .none → expr.Guarded self scope guard
  | .absent, _ | .dangling, _ | .int .., _ | .float .., _ | .bool .., _ | .char .., _ => trivial
  | .str .., _ | .null _, _ | .localVar .., _ | .staticField .., _ | .alloc .., _ => trivial
  | .identity .., _ => trivial
  | .length .., known => nomatch known.1
  | .index .., known => nomatch known.1
  | .assign .., known => by
    refine ⟨known.1, .inl ?_⟩
    rcases known.2 with bare | ⟨_, _, vouched, _⟩ | ⟨_, _, vouched, _⟩
    · exact bare
    · cases vouched
    · cases vouched
  | .virtualCall .., known => by
    refine ⟨.inl ?_, known.2⟩
    rcases known.1 with own | vouched
    · exact own
    · cases vouched
  | .unary _ _ _, known => mono guard.ofOperand known
  | .field .., known | .binary .., known | .cast .., known | .instanceOf .., known => known
  | .directCall .., known | .unresolvedCall .., known | .initCall .., known => known
  | .qualifiedCall .., known | .check .., known | .print .., known => known
  | .arrayAlloc .., known | .block .., known => known

mutual

/-- More may be vouched for than a statement needs. -/
theorem Stmt.Guarded.mono {scope : Scope} (guard : Guard) : ∀ {stmt : Stmt},
    stmt.Guarded self scope .none → stmt.Guarded self scope guard
  | .absent, _ | .dangling, _ => trivial
  | .eval _, known => Expr.Guarded.mono guard known
  | .block _, known => Stmt.allGuarded_mono guard known
  | .localVar .., known | .branch .., known | .whileLoop .., known | .forLoop .., known => known
  | .ret _, known => known

theorem Stmt.allGuarded_mono {scope : Scope} (guard : Guard) : ∀ {stmts : List Stmt},
    Stmt.AllGuarded self scope .none stmts → Stmt.AllGuarded self scope guard stmts
  | [], _ => trivial
  | [_], known => Stmt.Guarded.mono guard known
  | _ :: _ :: _, known => ⟨known.1, Stmt.allGuarded_mono guard known.2⟩

end

end ObjectLowering.Lowered
