/-
**Which declaration a local means.**

A local is in scope from its own initial value on to the end of the block, loop or branch around it,
in source as in lowered bodies. A local means the innermost declaration of its name. Lowering an
expression may declare locals in front of it, so what a source name means is kept exactly if none of
those has the name.

* `Use` is a local that is read, with the names in scope; `declarationOf` is what it means.
* `Lowered.Expr.declared`, `Lowered.Stmt.declared` are the locals that are declared anywhere in a
  tree, `Lowered.Expr.uses`, `Lowered.Stmt.uses` the ones that are read.
* `Source.Stmt.declared` and `Source.Stmt.uses` are those of a source statement, whose expressions
  declare none.
* **`declarationOf_append`**: what is in front of a scope and behind it takes no name away.
-/

import ObjectLowering.Lowered.Layout
import ObjectLowering.Source.Decl

namespace ObjectLowering

/-- A local that is read: the names in scope, the innermost first, and its name. -/
abbrev Use := List Name × Name

/-- The declaration that a name means: the innermost one of the name, with those around it. -/
def declarationOf : List Name → Name → Option (List Name)
  | [], _ => none
  | declared :: around, name =>
    if declared == name then some (declared :: around) else declarationOf around name

theorem declarationOf_cons_of_ne {declared name : Name} (other : declared ≠ name)
    (around : List Name) : declarationOf (declared :: around) name = declarationOf around name :=
  if_neg (Bool.eq_false_iff.mp (beq_eq_false_iff_ne.mpr other))

theorem declarationOf_cons_self (name : Name) (around : List Name) :
    declarationOf (name :: around) name = some (name :: around) :=
  if_pos (beq_self_eq_true name)

theorem declarationOf_of_not_mem {scope : List Name} {name : Name} (absent : name ∉ scope) :
    declarationOf scope name = none := by
  induction scope with
  | nil => rfl
  | cons declared around step =>
    rw [List.mem_cons, not_or] at absent
    rw [declarationOf_cons_of_ne (Ne.symm absent.1), step absent.2]

/-- **Other names in front of a scope and around it do not change what a name means.** -/
theorem declarationOf_append {front scope around : List Name} {name : Name} (new : name ∉ front)
    (other : name ∉ around) : declarationOf (front ++ (scope ++ around)) name =
      (declarationOf scope name).map (· ++ around) := by
  induction front with
  | cons declared rest step =>
    rw [List.mem_cons, not_or] at new
    rw [List.cons_append, declarationOf_cons_of_ne (Ne.symm new.1), step new.2]
  | nil =>
    rw [List.nil_append]
    induction scope with
    | nil => exact declarationOf_of_not_mem other
    | cons declared rest step =>
      by_cases same : declared = name
      · rw [same, List.cons_append, declarationOf_cons_self, declarationOf_cons_self]
        rfl
      · rw [List.cons_append, declarationOf_cons_of_ne same, declarationOf_cons_of_ne same, step]

/-! ### Lowered trees -/

namespace Lowered

/-- The local that a statement declares for those behind it. -/
def Stmt.declares : Stmt → List Name
  | .localVar _ name _ => [name]
  | _ => []

/-- The names in scope behind statements. -/
def Stmt.scopeAfter (scope : List Name) : List Stmt → List Name
  | [] => scope
  | stmt :: rest => Stmt.scopeAfter (stmt.declares ++ scope) rest

mutual

/-- The locals that are declared in an expression, in order; each behind those of its initial
value. -/
def Expr.declared : Expr → List Name
  | .absent | .dangling => []
  | .int .. | .float .. | .bool .. | .char .. | .str .. | .null _ | .localVar .. => []
  | .staticField .. | .alloc .. | .identity .. => []
  | .field _ object _ => object.declared
  | .length _ array => array.declared
  | .index _ array position => array.declared ++ position.declared
  | .assign _ target value => target.declared ++ value.declared
  | .binary _ _ left right => left.declared ++ right.declared
  | .unary _ _ operand => operand.declared
  | .cast _ _ operand => operand.declared
  | .instanceOf _ operand _ => operand.declared
  | .initCall _ _ args => Expr.declaredOfList args
  | .virtualCall _ receiver _ args => receiver.declared ++ Expr.declaredOfList args
  | .qualifiedCall _ _ _ args => Expr.declaredOfList args
  | .directCall _ receiver _ args => receiver.declared ++ Expr.declaredOfList args
  | .unresolvedCall _ receiver _ args => receiver.declared ++ Expr.declaredOfList args
  | .check _ _ args => Expr.declaredOfList args
  | .arrayAlloc _ _ size => size.declared
  | .print _ _ args => Expr.declaredOfList args
  | .block _ body result => Stmt.declaredOfList body ++ result.declared

def Expr.declaredOfList : List Expr → List Name
  | [] => []
  | expr :: rest => expr.declared ++ Expr.declaredOfList rest

def Stmt.declared : Stmt → List Name
  | .absent | .dangling => []
  | .eval expr => expr.declared
  | .localVar _ name init => init.declared ++ [name]
  | .block body => Stmt.declaredOfList body
  | .branch cond yes no => cond.declared ++ (yes.declared ++ no.declared)
  | .whileLoop cond body => cond.declared ++ body.declared
  | .forLoop init cond update body => Stmt.declaredOfList init ++ (cond.declared ++
      (Expr.declaredOfList update ++ body.declared))
  | .ret value => value.declared

def Stmt.declaredOfList : List Stmt → List Name
  | [] => []
  | stmt :: rest => stmt.declared ++ Stmt.declaredOfList rest

end

mutual

/-- The locals that are read in an expression, in order. -/
def Expr.uses (scope : List Name) : Expr → List Use
  | .absent | .dangling => []
  | .int .. | .float .. | .bool .. | .char .. | .str .. | .null _ => []
  | .staticField .. | .alloc .. | .identity .. => []
  | .localVar _ name => [(scope, name)]
  | .field _ object _ => object.uses scope
  | .length _ array => array.uses scope
  | .index _ array position => array.uses scope ++ position.uses scope
  | .assign _ target value => target.uses scope ++ value.uses scope
  | .binary _ _ left right => left.uses scope ++ right.uses scope
  | .unary _ _ operand => operand.uses scope
  | .cast _ _ operand => operand.uses scope
  | .instanceOf _ operand _ => operand.uses scope
  | .initCall _ _ args => Expr.usesOfList scope args
  | .virtualCall _ receiver _ args => receiver.uses scope ++ Expr.usesOfList scope args
  | .qualifiedCall _ _ _ args => Expr.usesOfList scope args
  | .directCall _ receiver _ args => receiver.uses scope ++ Expr.usesOfList scope args
  | .unresolvedCall _ receiver _ args => receiver.uses scope ++ Expr.usesOfList scope args
  | .check _ _ args => Expr.usesOfList scope args
  | .arrayAlloc _ _ size => size.uses scope
  | .print _ _ args => Expr.usesOfList scope args
  | .block _ body result =>
    Stmt.usesOfList scope body ++ result.uses (Stmt.scopeAfter scope body)

def Expr.usesOfList (scope : List Name) : List Expr → List Use
  | [] => []
  | expr :: rest => expr.uses scope ++ Expr.usesOfList scope rest

def Stmt.uses (scope : List Name) : Stmt → List Use
  | .absent | .dangling => []
  | .eval expr => expr.uses scope
  | .localVar _ name init => init.uses (name :: scope)
  | .block body => Stmt.usesOfList scope body
  | .branch cond yes no => cond.uses scope ++ (yes.uses scope ++ no.uses scope)
  | .whileLoop cond body => cond.uses scope ++ body.uses scope
  | .forLoop init cond update body =>
    Stmt.usesOfList scope init ++ (cond.uses (Stmt.scopeAfter scope init) ++
      (Expr.usesOfList (Stmt.scopeAfter scope init) update ++
        body.uses (Stmt.scopeAfter scope init)))
  | .ret value => value.uses scope

def Stmt.usesOfList (scope : List Name) : List Stmt → List Use
  | [] => []
  | stmt :: rest => stmt.uses scope ++ Stmt.usesOfList (stmt.declares ++ scope) rest

end

theorem Stmt.scopeAfter_append (scope : List Name) (stmts others : List Stmt) :
    scopeAfter scope (stmts ++ others) = scopeAfter (scopeAfter scope stmts) others := by
  induction stmts generalizing scope with
  | nil => rfl
  | cons stmt rest step => exact step _

theorem Stmt.declaredOfList_append (stmts others : List Stmt) :
    declaredOfList (stmts ++ others) = declaredOfList stmts ++ declaredOfList others := by
  induction stmts with
  | nil => rfl
  | cons stmt rest step => exact (congrArg _ step).trans (List.append_assoc ..).symm

theorem Stmt.usesOfList_append (scope : List Name) (stmts others : List Stmt) :
    usesOfList scope (stmts ++ others) =
      usesOfList scope stmts ++ usesOfList (scopeAfter scope stmts) others := by
  induction stmts generalizing scope with
  | nil => rfl
  | cons stmt rest step => exact (congrArg _ (step _)).trans (List.append_assoc ..).symm

end Lowered

/-! ### Source trees -/

namespace Source

/-- The bare identifier that an expression is. -/
def Expr.identifier? : Expr → Option Name
  | .ident _ name => some name
  | _ => none

/-- The bare identifiers in an expression. -/
def Expr.names (expr : Expr) : List Name := expr.nodes.filterMap identifier?

def Expr.namesOfList (exprs : List Expr) : List Name :=
  (Expr.nodesOfList exprs).filterMap identifier?

def Expr.namesOfOption (expr : Option Expr) : List Name :=
  (Expr.nodesOfOption expr).filterMap identifier?

/-- The identifiers as locals that are read in a scope. -/
def Expr.usesAt (scope names : List Name) : List Use := names.map (scope, ·)

namespace Stmt

/-- The local that a statement declares for those behind it. -/
def declares : Stmt → List Name
  | .localVar _ _ name _ => [name]
  | _ => []

/-- The names in scope behind statements. -/
def scopeAfter (scope : List Name) : List Stmt → List Name
  | [] => scope
  | stmt :: rest => scopeAfter (stmt.declares ++ scope) rest

end Stmt

mutual

/-- The locals that are declared in a statement. -/
def Stmt.declared : Stmt → List Name
  | .eval .. | .ret .. => []
  | .localVar _ _ name _ => [name]
  | .block _ body => Stmt.declaredOfList body
  | .branch _ _ yes none => yes.declared
  | .branch _ _ yes (some no) => yes.declared ++ no.declared
  | .whileLoop _ _ body => body.declared
  | .forLoop _ init _ _ body => Stmt.declaredOfList init ++ body.declared

def Stmt.declaredOfList : List Stmt → List Name
  | [] => []
  | stmt :: rest => stmt.declared ++ Stmt.declaredOfList rest

end

mutual

/-- The identifiers that are read in a statement, each with the names in scope. -/
def Stmt.uses (scope : List Name) : Stmt → List Use
  | .eval _ expr => Expr.usesAt scope expr.names
  | .localVar _ _ name init => Expr.usesAt (name :: scope) (Expr.namesOfOption init)
  | .block _ body => Stmt.usesOfList scope body
  | .branch _ cond yes none => Expr.usesAt scope cond.names ++ yes.uses scope
  | .branch _ cond yes (some no) =>
    Expr.usesAt scope cond.names ++ (yes.uses scope ++ no.uses scope)
  | .whileLoop _ cond body => Expr.usesAt scope cond.names ++ body.uses scope
  | .forLoop _ init cond update body =>
    Stmt.usesOfList scope init ++
      (Expr.usesAt (Stmt.scopeAfter scope init) (Expr.namesOfOption cond) ++
        (Expr.usesAt (Stmt.scopeAfter scope init) (Expr.namesOfList update) ++
          body.uses (Stmt.scopeAfter scope init)))
  | .ret _ value => Expr.usesAt scope (Expr.namesOfOption value)

def Stmt.usesOfList (scope : List Name) : List Stmt → List Use
  | [] => []
  | stmt :: rest => stmt.uses scope ++ Stmt.usesOfList (stmt.declares ++ scope) rest

end

end Source

end ObjectLowering
