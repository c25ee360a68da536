/-
**Locals that are declared before they are read.**

A local is in scope behind its declaration, to the end of the list of statements that declares it;
one that the head of a loop declares is in scope in the whole loop. Its initial value is evaluated
before, so there it is not yet in scope. Names that somebody else declares are free: they may be
read anywhere and declared without a value.

* `Expr.Scoped`, `Stmt.Scoped`: every local that is read is free or in scope, and every local that
  is not free is declared with a value.
* `Expr.Scoped.mono`, `Stmt.Scoped.mono`: more may be in scope than is read.
* `Stmt.allScoped_append`: statements behind statements see their locals.
-/

import ObjectLowering.Proofs.Temporaries.Declarations

namespace ObjectLowering.Lowered

variable (free : Name → Prop)

mutual

/-- Whether every local that is read in an expression is free or in scope. The expression itself is
not missing. -/
def Expr.Scoped (scope : List Name) : Expr → Prop
  | .absent | .dangling => False
  | .int .. | .float .. | .bool .. | .char .. | .str .. | .null _ => True
  | .staticField .. | .alloc .. | .identity .. => True
  | .localVar _ name => name ∈ scope ∨ free name
  | .field _ only _ | .length _ only | .unary _ _ only | .cast _ _ only => only.Scoped scope
  | .instanceOf _ only _ | .arrayAlloc _ _ only => only.Scoped scope
  | .index _ first second | .assign _ first second | .binary _ _ first second =>
    first.Scoped scope ∧ second.Scoped scope
  | .initCall _ _ args | .qualifiedCall _ _ _ args => Expr.AllScoped scope args
  | .check _ _ args | .print _ _ args => Expr.AllScoped scope args
  | .virtualCall _ receiver _ args | .directCall _ receiver _ args =>
    receiver.Scoped scope ∧ Expr.AllScoped scope args
  | .unresolvedCall _ receiver _ args =>
    (receiver = .absent ∨ receiver.Scoped scope) ∧ Expr.AllScoped scope args
  | .block _ body result =>
    Stmt.AllScoped scope body ∧ result.Scoped (Stmt.scopeAfter scope body)

/-- Whether all expressions read only what is free or in scope. -/
def Expr.AllScoped (scope : List Name) : List Expr → Prop
  | [] => True
  | expr :: rest => expr.Scoped scope ∧ Expr.AllScoped scope rest

/-- Whether every local that is read in a statement is free or in scope, and every local that it
declares is free or has a value. -/
def Stmt.Scoped (scope : List Name) : Stmt → Prop
  | .absent | .dangling => False
  | .eval expr => expr.Scoped scope
  | .localVar _ name init => (init = .absent ∧ free name) ∨ init.Scoped scope
  | .block body => Stmt.AllScoped scope body
  | .branch cond yes no =>
    cond.Scoped scope ∧ yes.Scoped scope ∧ (no = .absent ∨ no.Scoped scope)
  | .whileLoop cond body => cond.Scoped scope ∧ body.Scoped scope
  | .forLoop init cond update body =>
    Stmt.AllScoped scope init ∧
      (cond = .absent ∨ cond.Scoped (Stmt.scopeAfter scope init)) ∧
      Expr.AllScoped (Stmt.scopeAfter scope init) update ∧
      body.Scoped (Stmt.scopeAfter scope init)
  | .ret value => value = .absent ∨ value.Scoped scope

/-- Whether all statements do, each in the scope that those in front of it leave. -/
def Stmt.AllScoped (scope : List Name) : List Stmt → Prop
  | [] => True
  | stmt :: rest => stmt.Scoped scope ∧ Stmt.AllScoped (stmt.declares ++ scope) rest

end

variable {free} {scope more : List Name}

/-! ### Scopes behind statements -/

namespace Stmt

theorem declared_append_subset (declared : List Name) (inside : scope ⊆ more) :
    declared ++ scope ⊆ declared ++ more :=
  List.append_subset.mpr
    ⟨List.subset_append_left _ _, List.subset_append_of_subset_right _ inside⟩

theorem scopeAfter_mono (inside : scope ⊆ more) (stmts : List Stmt) :
    scopeAfter scope stmts ⊆ scopeAfter more stmts := by
  induction stmts generalizing scope more with
  | nil => exact inside
  | cons stmt rest step => exact step (declared_append_subset _ inside)

theorem subset_scopeAfter (scope : List Name) (stmts : List Stmt) :
    scope ⊆ scopeAfter scope stmts := by
  induction stmts generalizing scope with
  | nil => exact List.Subset.refl scope
  | cons stmt rest step => exact List.Subset.trans (List.subset_append_right _ _) (step _)

end Stmt

/-! ### More in scope -/

mutual

/-- More may be in scope than an expression reads. -/
theorem Expr.Scoped.mono {scope more : List Name} (inside : scope ⊆ more) : ∀ {expr : Expr},
    expr.Scoped free scope → expr.Scoped free more
  | .absent, known | .dangling, known => known
  | .int .., _ | .float .., _ | .bool .., _ | .char .., _ | .str .., _ | .null _, _ => trivial
  | .staticField .., _ | .alloc .., _ | .identity .., _ => trivial
  | .localVar .., known => known.imp_left fun member => inside member
  | .field _ only _, known | .length _ only, known | .unary _ _ only, known =>
    show only.Scoped free more from Expr.Scoped.mono inside known
  | .cast _ _ only, known | .instanceOf _ only _, known | .arrayAlloc _ _ only, known =>
    show only.Scoped free more from Expr.Scoped.mono inside known
  | .index .., known | .assign .., known | .binary .., known =>
    ⟨known.1.mono inside, known.2.mono inside⟩
  | .initCall _ _ _, known | .qualifiedCall _ _ _ _, known | .check _ _ _, known =>
    Expr.allScoped_mono inside known
  | .print _ _ _, known => Expr.allScoped_mono inside known
  | .virtualCall .., known | .directCall .., known =>
    ⟨known.1.mono inside, Expr.allScoped_mono inside known.2⟩
  | .unresolvedCall .., known =>
    ⟨known.1.imp_right (Expr.Scoped.mono inside), Expr.allScoped_mono inside known.2⟩
  | .block _ body _, known =>
    ⟨Stmt.allScoped_mono inside known.1, known.2.mono (Stmt.scopeAfter_mono inside body)⟩

theorem Expr.allScoped_mono {scope more : List Name} (inside : scope ⊆ more) :
    ∀ {exprs : List Expr}, Expr.AllScoped free scope exprs → Expr.AllScoped free more exprs
  | [], _ => trivial
  | _ :: _, known => ⟨known.1.mono inside, Expr.allScoped_mono inside known.2⟩

/-- More may be in scope than a statement reads. -/
theorem Stmt.Scoped.mono {scope more : List Name} (inside : scope ⊆ more) : ∀ {stmt : Stmt},
    stmt.Scoped free scope → stmt.Scoped free more
  | .absent, known | .dangling, known => known
  | .eval _, known => Expr.Scoped.mono inside known
  | .localVar .., known | .ret _, known => known.imp_right (Expr.Scoped.mono inside)
  | .block _, known => Stmt.allScoped_mono inside known
  | .branch .., known =>
    ⟨known.1.mono inside, known.2.1.mono inside, known.2.2.imp_right (Stmt.Scoped.mono inside)⟩
  | .whileLoop .., known => ⟨known.1.mono inside, known.2.mono inside⟩
  | .forLoop init _ _ _, known => by
    have after := Stmt.scopeAfter_mono inside init
    exact ⟨Stmt.allScoped_mono inside known.1, known.2.1.imp_right (Expr.Scoped.mono after),
      Expr.allScoped_mono after known.2.2.1, known.2.2.2.mono after⟩

theorem Stmt.allScoped_mono {scope more : List Name} (inside : scope ⊆ more) :
    ∀ {stmts : List Stmt}, Stmt.AllScoped free scope stmts → Stmt.AllScoped free more stmts
  | [], _ => trivial
  | _ :: _, known => ⟨known.1.mono inside,
      Stmt.allScoped_mono (Stmt.declared_append_subset _ inside) known.2⟩

end

/-! ### Lists -/

theorem Expr.allScoped_iff {exprs : List Expr} :
    AllScoped free scope exprs ↔ ∀ expr ∈ exprs, expr.Scoped free scope := by
  induction exprs with
  | nil => exact iff_of_true trivial (List.forall_mem_nil _)
  | cons expr rest step => exact (and_congr_right fun _ => step).trans List.forall_mem_cons.symm

/-- **Statements behind statements see their locals.** -/
theorem Stmt.allScoped_append {stmts others : List Stmt} :
    AllScoped free scope (stmts ++ others) ↔
      AllScoped free scope stmts ∧ AllScoped free (scopeAfter scope stmts) others := by
  induction stmts generalizing scope with
  | nil => exact (and_iff_right trivial).symm
  | cons stmt rest step => exact (and_congr_right fun _ => step).trans and_assoc.symm

/-- A local behind statements, with a value that reads theirs. -/
theorem Stmt.allScoped_declared {stmts : List Stmt} {decl : Stmt} {type : Ty} {name : Name}
    {value : Expr} (before : AllScoped free scope stmts)
    (known : value.Scoped free (scopeAfter scope stmts))
    (declared : decl = .localVar type name value) :
    AllScoped free scope (stmts ++ [decl]) ∧ name ∈ scopeAfter scope (stmts ++ [decl]) ∧
      scopeAfter scope stmts ⊆ scopeAfter scope (stmts ++ [decl]) := by
  subst declared
  rw [allScoped_append, scopeAfter_append]
  exact ⟨⟨before, .inr known, trivial⟩, List.mem_cons_self, List.subset_cons_self _ _⟩

/-- Statements that need no locals around them need none of those in front. -/
theorem Stmt.allScoped_of_forall {stmts : List Stmt}
    (each : ∀ stmt ∈ stmts, stmt.Scoped free []) : AllScoped free scope stmts := by
  induction stmts generalizing scope with
  | nil => exact trivial
  | cons stmt rest step =>
    rw [List.forall_mem_cons] at each
    exact ⟨each.1.mono (List.nil_subset scope), step each.2⟩

end ObjectLowering.Lowered
