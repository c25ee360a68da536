/-
**The heads of `for` loops.**

In front of its first semicolon, the head of a C++ loop has a list of expressions, or one
declaration, which writes its type once and then all its variables. The printer prints each
statement of the list by itself and joins the texts with commas. So a second variable brings its
type along, which no C++ declaration does; and a statement that is neither a local nor an expression
leaves nothing behind.

* `Cpp.LoopInit` are the two forms of C++, each with its text and the statements it stands for.
* `Cpp.isLoopInit_iff`: the printed text is that of a form which stands for the list, unless the
  list declares a variable beside something else.
* `Cpp.isKept_iff`: a statement prints within the head what it prints on a line of its own, without
  the semicolon, exactly if it is a local or an expression.
* `Lowering.ensures_loopInit`: a loop of the source keeps the kinds of its statements.
* **`loop_heads_iff`**: what the head of a loop keeps.
-/

import Mathlib.Data.Set.List
import ObjectLowering.Cpp.Code
import ObjectLowering.Proofs.Lowering.Ensures
import ObjectLowering.Proofs.Lowering.LoweredClasses

namespace ObjectLowering

/-! ### Kinds of statements -/

/-- Whether the statement only evaluates an expression. -/
def Lowered.Stmt.isEval : Lowered.Stmt → Bool
  | eval _ => true
  | _ => false

/-- Whether the statement declares a local. -/
def Lowered.Stmt.isLocal : Lowered.Stmt → Bool
  | localVar .. => true
  | _ => false

/-- Whether the statement only evaluates an expression. -/
def Source.Stmt.isEval : Source.Stmt → Bool
  | eval .. => true
  | _ => false

/-- Whether the statement declares a local. -/
def Source.Stmt.isLocal : Source.Stmt → Bool
  | localVar .. => true
  | _ => false

namespace Cpp

open Lowered (Expr Stmt)
open Text (Line Style)

/-! ### What C++ has in the head of a loop -/

/-- A variable within a declaration. -/
structure Declarator where
  name : Name
  init : Expr

/-- What stands in front of the first semicolon. -/
inductive LoopInit where
  | exprs (list : List Expr)
  | declaration (type : Ty) (first : Declarator) (rest : List Declarator)

namespace Declarator

/-- The text of a variable, without the type of its declaration. -/
def text (options : EmitOptions) (declarator : Declarator) : String :=
  match ifPresent declarator.init (exprText options declarator.init) with
  | none => declarator.name
  | some init => declarator.name ++ " = " ++ init

/-- The declaration of the variable alone. -/
def stmt (type : Ty) (declarator : Declarator) : Stmt :=
  .localVar type declarator.name declarator.init

end Declarator

namespace LoopInit

/-- The statements that the form stands for. -/
def stmts : LoopInit → List Stmt
  | exprs list => list.map .eval
  | declaration type first rest => (first :: rest).map (·.stmt type)

/-- The text of the form: a declaration writes its type once. -/
def text (options : EmitOptions) : LoopInit → String
  | exprs list => commas (list.map (exprText options))
  | declaration type first rest =>
    options.type type ++ " " ++ commas ((first :: rest).map (·.text options))

end LoopInit

/-- The text that is printed for statements in the head of a loop is that of a C++ form which stands
for just these statements. -/
def IsLoopInit (options : EmitOptions) (init : List Stmt) : Prop :=
  ∃ form : LoopInit, form.stmts = init ∧ form.text options = commas (clauseTexts options init)

/-- The head of a loop keeps the statement: up to the semicolon, it has there the text that it has
on a line of its own. -/
def IsKept (options : EmitOptions) (stmt : Stmt) : Prop :=
  Style.oneLine.layOut (stmtLines options 0 true stmt) = clauseText options stmt ++ "; "

variable {options : EmitOptions}

/-! ### Lists of clauses -/

theorem clauseTexts_eq_map (stmts : List Stmt) :
    clauseTexts options stmts = stmts.map (clauseText options) := by
  induction stmts with
  | nil => rfl
  | cons stmt rest step => rw [clauseTexts, step, List.map_cons]

theorem clauseText_declarator (type : Ty) (declarator : Declarator) :
    clauseText options (declarator.stmt type) =
      options.type type ++ " " ++ declarator.text options := by
  unfold Declarator.stmt Declarator.text
  rw [clauseText]
  unfold localText
  dsimp only
  cases ifPresent declarator.init (exprText options declarator.init) with
  | none => rfl
  | some init => simp only [String.append_assoc]

theorem commas_cons_cons (first second : String) (rest : List String) :
    commas (first :: second :: rest) = first ++ ", " ++ commas (second :: rest) :=
  String.intercalate_cons_cons

/-- What stands in front of every text counts once for each. -/
theorem length_commas_prepend (front : String) (texts : List String) :
    (commas (texts.map (front ++ ·))).length =
      (commas texts).length + texts.length * front.length := by
  induction texts with
  | nil => simp
  | cons first rest step =>
    cases rest with
    | nil => simp [commas, String.length_append, Nat.add_comm]
    | cons second rest =>
      rw [List.map_cons] at step ⊢
      rw [List.map_cons, commas_cons_cons, commas_cons_cons]
      simp only [String.length_append, step, List.length_cons, Nat.succ_mul]
      omega

/-- The type of a declaration stands in front of all its variables as in front of each only where
there is one. -/
theorem prepend_commas_iff {front : String} (visible : 0 < front.length) (texts : List String) :
    front ++ commas texts = commas (texts.map (front ++ ·)) ↔ texts.length = 1 := by
  constructor
  · intro same
    have lengths := congrArg String.length same
    rw [String.length_append, length_commas_prepend, Nat.add_comm] at lengths
    have once : 1 * front.length = texts.length * front.length := by omega
    exact (Nat.eq_of_mul_eq_mul_right visible once).symm
  · intro single
    obtain ⟨text, rfl⟩ := List.length_eq_one_iff.mp single
    simp [commas]

/-! ### Printed heads -/

theorem isLoopInit_exprs (exprs : List Expr) :
    (LoopInit.exprs exprs).text options =
      commas (clauseTexts options (LoopInit.exprs exprs).stmts) := by
  unfold LoopInit.text LoopInit.stmts
  rw [clauseTexts_eq_map, List.map_map]
  rfl

/-- A declaration is printed as C++ has it only if it has one variable. -/
theorem isLoopInit_declaration (type : Ty) (first : Declarator) (rest : List Declarator) :
    (LoopInit.declaration type first rest).text options =
        commas (clauseTexts options (LoopInit.declaration type first rest).stmts) ↔
      rest = [] := by
  have each : clauseTexts options ((first :: rest).map (·.stmt type)) =
      ((first :: rest).map (·.text options)).map (options.type type ++ " " ++ ·) := by
    rw [clauseTexts_eq_map, List.map_map, List.map_map]
    exact List.map_congr_left fun declarator _ => clauseText_declarator type declarator
  have visible : 0 < (options.type type ++ " ").length := by
    rw [String.length_append]
    exact Nat.lt_add_left _ Nat.one_pos
  unfold LoopInit.text LoopInit.stmts
  dsimp only
  rw [each, prepend_commas_iff visible]
  simp

/-- **The clauses of a head are a C++ form exactly if all are expressions or there is one.** -/
theorem isLoopInit_iff {init : List Stmt}
    (clauses : ∀ stmt ∈ init, stmt.isEval || stmt.isLocal) :
    IsLoopInit options init ↔ (∀ stmt ∈ init, stmt.isEval) ∨ init.length = 1 := by
  constructor
  · rintro ⟨form, rfl, written⟩
    cases form with
    | exprs exprs =>
      left
      intro stmt inside
      obtain ⟨expr, _, rfl⟩ := List.mem_map.mp inside
      rfl
    | declaration type first rest =>
      right
      rw [isLoopInit_declaration] at written
      rw [written]
      rfl
  · rintro (all | single)
    · have range : init ∈ Set.range (List.map Stmt.eval) := by
        rw [Set.range_list_map]
        intro stmt inside
        cases stmt with
        | eval expr => exact ⟨expr, rfl⟩
        | _ => exact nomatch all _ inside
      obtain ⟨exprs, rfl⟩ := range
      exact ⟨.exprs exprs, rfl, isLoopInit_exprs exprs⟩
    · obtain ⟨stmt, rfl⟩ := List.length_eq_one_iff.mp single
      have known := clauses stmt (List.mem_singleton_self stmt)
      cases stmt with
      | eval expr => exact ⟨.exprs [expr], rfl, isLoopInit_exprs [expr]⟩
      | localVar type name init =>
        exact ⟨.declaration type ⟨name, init⟩ [], rfl,
          (isLoopInit_declaration type ⟨name, init⟩ []).mpr rfl⟩
      | _ => exact nomatch known

/-! ### Statements that leave nothing behind -/

/-- A line that does not begin with a semicolon is more than one. -/
theorem layOut_ne_semicolon {level : Nat} {text : String} {lines : List Line} (char : Char)
    (begins : text.toList.head? = some char) (differs : char ≠ ';') :
    Style.oneLine.layOut (⟨level, text⟩ :: lines) ≠ "" ++ "; " := by
  intro same
  obtain ⟨rest, chars⟩ := List.head?_eq_some_iff.mp begins
  have listed := congrArg String.toList same
  rw [Text.layOut_cons] at listed
  simp [Line.layOut, Style.indent, chars] at listed
  exact differs listed.1

/-- **A statement is kept in the head of a loop exactly if it is a local or an expression.** -/
theorem isKept_iff (stmt : Stmt) : IsKept options stmt ↔ (stmt.isEval || stmt.isLocal) = true := by
  unfold IsKept
  cases stmt with
  | eval expr | localVar type name init =>
    refine iff_of_true ?_ rfl
    rw [stmtLines, clauseText, Text.layOut_cons]
    simp [Line.layOut, Style.indent, Style.newline, Style.layOut, String.append_assoc]
  | absent | dangling =>
    refine iff_of_false ?_ Bool.false_ne_true
    rw [stmtLines]
    exact (by decide : Style.oneLine.layOut [] ≠ "" ++ "; ")
  | block body =>
    refine iff_of_false ?_ Bool.false_ne_true
    rw [stmtLines, if_pos rfl]
    exact layOut_ne_semicolon '\x7b' (by simp) (by decide)
  | branch cond yes no =>
    refine iff_of_false ?_ Bool.false_ne_true
    rw [stmtLines]
    exact layOut_ne_semicolon 'i' (by simp) (by decide)
  | whileLoop cond body =>
    refine iff_of_false ?_ Bool.false_ne_true
    rw [stmtLines]
    exact layOut_ne_semicolon 'w' (by simp) (by decide)
  | forLoop init cond update body =>
    refine iff_of_false ?_ Bool.false_ne_true
    rw [stmtLines]
    exact layOut_ne_semicolon 'f' (by simp) (by decide)
  | ret value =>
    refine iff_of_false ?_ Bool.false_ne_true
    rw [stmtLines]
    split
    · exact layOut_ne_semicolon 'r' (by simp) (by decide)
    · exact layOut_ne_semicolon 'r' (by simp) (by decide)

end Cpp

/-! ### Loops of the source -/

/-- A lowered statement is a local, or an expression, exactly if it was one. -/
def SameKind (source : Source.Stmt) (stmt : Lowered.Stmt) : Prop :=
  stmt.isEval = source.isEval ∧ stmt.isLocal = source.isLocal

theorem Lowering.ensures_sameKind (context : Context) (routine : Routine) (stmt : Source.Stmt) :
    Ensures (stmt.lower context routine) (SameKind stmt) := by
  cases stmt with
  | eval span expr => exact .after fun _ => .pure ⟨rfl, rfl⟩
  | localVar span type name init => exact .after fun _ => .pure ⟨rfl, rfl⟩
  | block span body => exact .after fun _ => .after fun _ => .pure ⟨rfl, rfl⟩
  | branch span cond yes no =>
    cases no with
    | none => exact .after fun _ => .after fun _ => .pure ⟨rfl, rfl⟩
    | some no => exact .after fun _ => .after fun _ => .after fun _ => .pure ⟨rfl, rfl⟩
  | whileLoop span cond body => exact .after fun _ => .after fun _ => .pure ⟨rfl, rfl⟩
  | forLoop span init cond update body =>
    exact .after fun _ => .after fun _ => .after fun _ => .after fun _ => .after fun _ =>
      .pure ⟨rfl, rfl⟩
  | ret span value =>
    cases value with
    | none => exact .pure ⟨rfl, rfl⟩
    | some value => exact .after fun _ => .pure ⟨rfl, rfl⟩

/-- **Lowering keeps the kinds of the statements in front of a loop**, so the source tells what the
head of the loop keeps. -/
theorem Lowering.ensures_loopInit (context : Context) (routine : Routine) (span : Span)
    (init : List Source.Stmt) (cond : Option Source.Expr) (update : List Source.Expr)
    (body : Source.Stmt) :
    Ensures ((Source.Stmt.forLoop span init cond update body).lower context routine)
      fun lowered => ∃ clauses loopCond loopUpdate loopBody,
        lowered = .forLoop clauses loopCond loopUpdate loopBody ∧
          List.Forall₂ SameKind init clauses := by
  have each : Ensures (runEach (Source.Stmt.lowerEach context routine init))
      (List.Forall₂ SameKind init) := by
    rw [Source.Stmt.lowerEach_eq_map]
    exact .runEach (List.forall₂_map_left_iff.mpr (List.forall₂_same.mpr fun stmt _ =>
      ensures_sameKind context routine stmt))
  refine each.bind fun clauses known => ?_
  exact .after fun _ => .after fun loopCond => .after fun loopUpdate => .after fun loopBody =>
    .pure ⟨clauses, loopCond, loopUpdate, loopBody, rfl, known⟩

/-! ### The head of a loop -/

open Cpp

/-- **What a loop's head keeps of its statements.** It begins with their texts. If they are all
locals or expressions, this is what C++ has there exactly if no local stands beside another
statement. And every statement is kept exactly if they are all locals or expressions. -/
theorem loop_heads_iff (options : EmitOptions) (init : List Lowered.Stmt) (cond : Lowered.Expr)
    (update : List Lowered.Expr) (body : Lowered.Stmt) :
    (∀ level braced, ∃ behind lines,
      stmtLines options level braced (.forLoop init cond update body) =
        ⟨level, "for (" ++ commas (clauseTexts options init) ++ "; " ++ behind⟩ :: lines) ∧
    ((∀ stmt ∈ init, stmt.isEval || stmt.isLocal) →
      (IsLoopInit options init ↔ (∀ stmt ∈ init, stmt.isEval) ∨ init.length = 1)) ∧
    ((∀ stmt ∈ init, IsKept options stmt) ↔ ∀ stmt ∈ init, stmt.isEval || stmt.isLocal) := by
  refine ⟨fun level braced => ?_, isLoopInit_iff, forall₂_congr fun stmt _ => isKept_iff stmt⟩
  refine ⟨exprText options cond ++ "; " ++ commas (exprTexts options update) ++ ")" ++ " " ++
    "\x7b", stmtLines options (level + 1) false body ++ closing level, ?_⟩
  have opens : "for (" = "for " ++ "(" := by decide
  rw [stmtLines, bracedLines, opens]
  simp only [parenthesized, String.append_assoc, List.cons_append]

/-- A loop with one variable has a head as C++ wants it, and keeps its declaration. -/
theorem loop_heads_iff_counted :
    IsLoopInit {} [.localVar .int "i" (.int ⟨1, 2⟩ 0)] ∧
      ∀ stmt ∈ [Lowered.Stmt.localVar .int "i" (.int ⟨1, 2⟩ 0)], IsKept {} stmt := by
  obtain ⟨_, wellFormed, kept⟩ := loop_heads_iff {} [.localVar .int "i" (.int ⟨1, 2⟩ 0)] .absent []
    (.block [])
  exact ⟨(wellFormed (by decide)).mpr (.inr rfl), kept.mpr (by decide)⟩

/-- A static method whose loop declares two variables. -/
def Source.MethodDecl.meet : MethodDecl where
  name := "meet"
  params := []
  ret := .void
  modifiers := { isStatic := true }
  span := ⟨13, 14⟩
  body := .block ⟨12, 13⟩ [.forLoop ⟨11, 12⟩
    [.localVar ⟨2, 3⟩ .int "i" (some (.int ⟨0, 1, 2⟩ 0)),
     .localVar ⟨4, 5⟩ .int "j" (some (.int ⟨1, 3, 4⟩ 9))]
    (some (.binary ⟨4, 7, 8⟩ .less (.ident ⟨2, 5, 6⟩ "i") (.ident ⟨3, 6, 7⟩ "j")))
    [.unary ⟨6, 9, 10⟩ .postIncrement (.ident ⟨5, 8, 9⟩ "i")]
    (.block ⟨10, 11⟩ [])]

def Source.ClassDecl.pair : ClassDecl where
  name := "Pair"
  parent := none
  fields := []
  methods := [.meet]
  span := ⟨0, 1⟩

def Source.SourceUnit.pair : SourceUnit where
  path := "Pair"
  package := []
  imports := []
  classes := [.pair]
  nodes := #[.int ⟨0, 1, 2⟩ 0, .int ⟨1, 3, 4⟩ 9, .ident ⟨2, 5, 6⟩ "i", .ident ⟨3, 6, 7⟩ "j",
    .binary ⟨4, 7, 8⟩ .less (.ident ⟨2, 5, 6⟩ "i") (.ident ⟨3, 6, 7⟩ "j"),
    .ident ⟨5, 8, 9⟩ "i", .unary ⟨6, 9, 10⟩ .postIncrement (.ident ⟨5, 8, 9⟩ "i")]
  stmtCount := 5

/-- The variables of the loop, as they are lowered. -/
def Lowered.Stmt.pairInit : List Lowered.Stmt :=
  [.localVar .int "i" (.int ⟨1, 2⟩ 0), .localVar .int "j" (.int ⟨3, 4⟩ 9)]

/-- **The second variable of a loop brings its type along**, which is no declaration of C++. -/
theorem loop_head_repeats_type :
    (∃ facts lowered, (Program.ofUnits [.pair]).facts ⟨["Pair"]⟩ {} = .ok facts ∧
      (Program.ofUnits [.pair]).lower facts {} = .ok lowered ∧
      ((lowered.flatMap (·.classes)).flatMap (·.methods)).map (stmtLines {} 0 false ·.body) =
        [[⟨0, "for (int32_t i = 0, int32_t j = 9; (i < j); i++) \x7b"⟩, ⟨0, "\x7d"⟩]]) ∧
    commas (clauseTexts {} Lowered.Stmt.pairInit) = "int32_t i = 0, int32_t j = 9" ∧
    (LoopInit.declaration .int ⟨"i", .int ⟨1, 2⟩ 0⟩ [⟨"j", .int ⟨3, 4⟩ 9⟩]).stmts =
      Lowered.Stmt.pairInit ∧
    (LoopInit.declaration .int ⟨"i", .int ⟨1, 2⟩ 0⟩ [⟨"j", .int ⟨3, 4⟩ 9⟩]).text {} =
      "int32_t i = 0, j = 9" ∧
    ¬IsLoopInit {} Lowered.Stmt.pairInit := by
  refine ⟨?_, by decide +kernel, rfl, by decide +kernel, ?_⟩
  · have succeeds : (((Program.ofUnits [.pair]).facts ⟨["Pair"]⟩ {}).toOption.any fun facts =>
        ((Program.ofUnits [.pair]).lower facts {}).toOption.any fun lowered =>
          ((lowered.flatMap (·.classes)).flatMap (·.methods)).map (stmtLines {} 0 false ·.body) =
            [[⟨0, "for (int32_t i = 0, int32_t j = 9; (i < j); i++) \x7b"⟩,
              ⟨0, "\x7d"⟩]]) = true := by
      decide +kernel
    obtain ⟨facts, computed, succeeds⟩ := exists_of_any_toOption succeeds
    obtain ⟨lowered, done, printed⟩ := exists_of_any_toOption succeeds
    exact ⟨facts, lowered, computed, done, of_decide_eq_true printed⟩
  · rw [isLoopInit_iff (by decide)]
    decide

end ObjectLowering
