/-
**Every lowered unit can be printed.**

Printing refuses a unit in which a part is missing that its C++ form needs. A whole tree has all of
them: where it may lack a child, so may the printed form.

* `Lowered.Expr.isReadable_of_formed`, `Lowered.Stmt.isReadable_of_formed`: whole trees are printed.
* `Cpp.isReadable_of_formed`: so are whole classes.
* **`exists_emitUnit?`**: so is every unit of a program that was lowered.
-/

import ObjectLowering.Cpp.Unit
import ObjectLowering.Proofs.Lowering.Total

namespace ObjectLowering

open Source (SourceUnit)

namespace Lowered

theorem Expr.or_isReadable {expr : Expr} (known : expr = .absent ∨ expr.isReadable = true) :
    (expr.isAbsent || expr.isReadable) = true := by
  rcases known with rfl | readable
  · rfl
  · rw [readable, Bool.or_true]

theorem Stmt.or_isReadable {stmt : Stmt} (known : stmt = .absent ∨ stmt.isReadable = true) :
    (stmt.isAbsent || stmt.isReadable) = true := by
  rcases known with rfl | readable
  · rfl
  · rw [readable, Bool.or_true]

/-- Statements that are all readable stay so in the head of a loop. -/
theorem Stmt.areReadableClauses_of_areReadable {stmts : List Stmt}
    (readable : Stmt.areReadable stmts = true) : Stmt.areReadableClauses stmts = true := by
  induction stmts with
  | nil => rfl
  | cons stmt rest step =>
    rw [Stmt.areReadable, Bool.and_eq_true] at readable
    have others := step readable.2
    cases stmt with
    | absent | dangling => exact absurd readable.1 Bool.false_ne_true
    | eval expr => exact Bool.and_eq_true_iff.mpr ⟨readable.1, others⟩
    | localVar type name init => exact Bool.and_eq_true_iff.mpr ⟨readable.1, others⟩
    | _ => exact others

variable {chained : Bool}

mutual

/-- **A whole expression is readable.** -/
theorem Expr.isReadable_of_formed : ∀ expr : Expr, expr.Formed chained → expr.isReadable = true
  | .absent, formed | .dangling, formed => formed.elim
  | .int .., _ | .float .., _ | .bool .., _ | .char .., _ | .str .., _ | .null _, _ => rfl
  | .localVar .., _ | .staticField .., _ | .alloc .., _ | .identity .., _ => rfl
  | .field _ only _, formed | .length _ only, formed | .unary _ _ only, formed =>
    only.isReadable_of_formed formed
  | .cast _ _ only, formed | .instanceOf _ only _, formed | .arrayAlloc _ _ only, formed =>
    only.isReadable_of_formed formed
  | .index _ first second, formed | .assign _ first second, formed
  | .binary _ _ first second, formed =>
    Bool.and_eq_true_iff.mpr
      ⟨first.isReadable_of_formed formed.1, second.isReadable_of_formed formed.2⟩
  | .initCall _ _ args, formed => Expr.areReadable_of_formed args formed.2
  | .virtualCall _ receiver _ args, formed =>
    Bool.and_eq_true_iff.mpr
      ⟨receiver.isReadable_of_formed formed.1, Expr.areReadable_of_formed args formed.2.2⟩
  | .directCall _ receiver _ args, formed =>
    Bool.and_eq_true_iff.mpr ⟨Expr.or_isReadable (.inr (receiver.isReadable_of_formed formed.1)),
      Expr.areReadable_of_formed args formed.2.2⟩
  | .unresolvedCall _ receiver _ args, formed =>
    Bool.and_eq_true_iff.mpr
      ⟨Expr.or_isReadable (formed.1.imp_right receiver.isReadable_of_formed),
        Expr.areReadable_of_formed args formed.2⟩
  | .qualifiedCall _ _ _ args, formed | .print _ _ args, formed =>
    Expr.areReadable_of_formed args formed
  | .check _ _ args, formed => Expr.areReadable_of_formed args formed.2
  | .block _ body result, formed =>
    Bool.and_eq_true_iff.mpr ⟨Stmt.areReadable_of_formed body formed.1,
      Expr.or_isReadable (.inr (result.isReadable_of_formed formed.2))⟩

theorem Expr.areReadable_of_formed : ∀ exprs : List Expr,
    Expr.AllFormed chained exprs → Expr.areReadable exprs = true
  | [], _ => rfl
  | expr :: rest, formed =>
    Bool.and_eq_true_iff.mpr
      ⟨expr.isReadable_of_formed formed.1, Expr.areReadable_of_formed rest formed.2⟩

/-- **A whole statement is readable.** -/
theorem Stmt.isReadable_of_formed : ∀ stmt : Stmt, stmt.Formed chained → stmt.isReadable = true
  | .absent, formed | .dangling, formed => formed.elim
  | .eval expr, formed => expr.isReadable_of_formed formed
  | .localVar _ _ value, formed | .ret value, formed =>
    Expr.or_isReadable (formed.imp_right value.isReadable_of_formed)
  | .block body, formed => Stmt.areReadable_of_formed body formed
  | .branch cond yes no, formed => by
    obtain ⟨first, second, third⟩ := formed
    rw [Stmt.isReadable, Bool.and_eq_true, Bool.and_eq_true]
    exact ⟨⟨cond.isReadable_of_formed first,
      Stmt.or_isReadable (.inr (yes.isReadable_of_formed second))⟩,
      Stmt.or_isReadable (third.imp_right no.isReadable_of_formed)⟩
  | .whileLoop cond body, formed =>
    Bool.and_eq_true_iff.mpr ⟨cond.isReadable_of_formed formed.1,
      Stmt.or_isReadable (.inr (body.isReadable_of_formed formed.2))⟩
  | .forLoop init cond update body, formed => by
    obtain ⟨first, second, third, fourth⟩ := formed
    rw [Stmt.isReadable, Bool.and_eq_true, Bool.and_eq_true, Bool.and_eq_true]
    exact ⟨⟨⟨Stmt.areReadableClauses_of_areReadable (Stmt.areReadable_of_formed init first),
      Expr.or_isReadable (second.imp_right cond.isReadable_of_formed)⟩,
      Expr.areReadable_of_formed update third⟩,
      Stmt.or_isReadable (.inr (body.isReadable_of_formed fourth))⟩

theorem Stmt.areReadable_of_formed : ∀ stmts : List Stmt,
    Stmt.AllFormed chained stmts → Stmt.areReadable stmts = true
  | [], _ => rfl
  | stmt :: rest, formed =>
    Bool.and_eq_true_iff.mpr
      ⟨stmt.isReadable_of_formed formed.1, Stmt.areReadable_of_formed rest formed.2⟩

end

end Lowered

theorem Cpp.isReadable_of_formed {layout : Lowered.ClassLayout Lowered.Expr Lowered.Stmt}
    (formed : layout.Formed) : isReadable layout = true := by
  unfold isReadable
  rw [Bool.and_eq_true, Bool.and_eq_true, List.all_eq_true, List.all_eq_true, List.all_eq_true]
  refine ⟨⟨fun member inside => ?_, fun storage inside => ?_⟩, fun routine inside => ?_⟩
  · rw [Option.all_eq_true]
    intro value held
    exact value.isReadable_of_formed (formed.values member inside value held)
  · exact storage.init.isReadable_of_formed (formed.statics storage inside)
  · exact Lowered.Stmt.or_isReadable
      (.inr (routine.body.isReadable_of_formed (formed.routines routine inside)))

/-- What a lowered unit is made of is whole. -/
theorem formed_of_lower {units : List SourceUnit} {options : LoweringOptions} {facts : Facts}
    {lowered : List Lowered.TreeUnit}
    (done : (Program.ofUnits units).lower facts options = .ok lowered) :
    ∀ unit ∈ lowered, ∀ layout ∈ unit.classes, layout.Formed :=
  forall_of_forall₂ (ok_of_lowerUnits done) fun _ _ ran => formed_of_lowerUnit ran

/-- **Every unit of a program that was lowered is printed**, to the texts of its two files. -/
theorem exists_emitUnit? {units : List SourceUnit} {options : LoweringOptions} {facts : Facts}
    {lowered : List Lowered.TreeUnit}
    (done : (Program.ofUnits units).lower facts options = .ok lowered)
    {unit : Lowered.TreeUnit} (produced : unit ∈ lowered) (emit : Cpp.EmitOptions) :
    Cpp.emitUnit? emit unit = some ⟨unit.path, Cpp.headerName unit.path,
      Cpp.headerText emit unit, Cpp.bodyText emit unit⟩ := by
  unfold Cpp.emitUnit?
  refine if_pos (List.all_eq_true.mpr fun layout inside => ?_)
  exact Cpp.isReadable_of_formed (formed_of_lower done unit produced layout inside)

end ObjectLowering
