/-
**A source name keeps its meaning behind the temporaries.**

Lowering a routine declares the variables of its source and the temporaries that it takes, behind
the receiver parameter. Where a source name is read, a lowered tree has the same variables in scope
as the source, with temporaries in front and the receiver parameter around them. So a name means
what it means in source unless it is called like one of these, and nothing keeps a source from
calling a variable like a temporary.

* `Source.Stmt.usesOfList_around`: what is in scope around statements is in scope at each use.
* `Lowering.Mirrors`: a lowered statement declares and reads the variables of its source.
* `Source.Stmt.takes_lower`: every statement does, besides its temporaries.
* `Lowering.KeepsNames`: what a lowered routine declares, and what its names mean.
* **`names_keep_meaning`**: every routine of a program keeps the names of its source.
-/

import ObjectLowering.Proofs.Construction.ParentCalls
import ObjectLowering.Proofs.Temporaries.TempNames

namespace ObjectLowering

open Lowered (Expr Stmt)

/-! ### Scopes around statements -/

namespace Source

/-- A use with more names in scope around it. -/
def useWithin (around : List Name) (use : Use) : Use := (use.1 ++ around, use.2)

theorem Expr.usesAt_around (scope around names : List Name) :
    Expr.usesAt (scope ++ around) names = (Expr.usesAt scope names).map (useWithin around) := by
  unfold Expr.usesAt
  rw [List.map_map]
  rfl

theorem Stmt.scopeAfter_around (scope around : List Name) (stmts : List Stmt) :
    scopeAfter (scope ++ around) stmts = scopeAfter scope stmts ++ around := by
  induction stmts generalizing scope with
  | nil => rfl
  | cons stmt rest step =>
    rw [scopeAfter, ← List.append_assoc]
    exact step _

mutual

theorem Stmt.uses_around (around : List Name) : ∀ (stmt : Stmt) (scope : List Name),
    stmt.uses (scope ++ around) = (stmt.uses scope).map (useWithin around)
  | .eval _ expr, scope => Expr.usesAt_around scope around expr.names
  | .localVar _ _ name init, scope => Expr.usesAt_around (name :: scope) around _
  | .block _ body, scope => Stmt.usesOfList_around around body scope
  | .branch _ cond yes none, scope => by
    rw [uses, uses, List.map_append, Expr.usesAt_around, yes.uses_around around scope]
  | .branch _ cond yes (some no), scope => by
    rw [uses, uses, List.map_append, List.map_append, Expr.usesAt_around,
      yes.uses_around around scope, no.uses_around around scope]
  | .whileLoop _ cond body, scope => by
    rw [uses, uses, List.map_append, Expr.usesAt_around, body.uses_around around scope]
  | .forLoop _ init cond update body, scope => by
    rw [uses, uses, Stmt.scopeAfter_around, List.map_append, List.map_append, List.map_append,
      Stmt.usesOfList_around around init scope, Expr.usesAt_around, Expr.usesAt_around,
      body.uses_around around _]
  | .ret _ value, scope => Expr.usesAt_around scope around _

/-- **What is in scope around statements is in scope at each use.** -/
theorem Stmt.usesOfList_around (around : List Name) : ∀ (stmts : List Stmt) (scope : List Name),
    Stmt.usesOfList (scope ++ around) stmts =
      (Stmt.usesOfList scope stmts).map (useWithin around)
  | [], _ => rfl
  | stmt :: rest, scope => by
    rw [usesOfList, usesOfList, List.map_append, stmt.uses_around around scope,
      ← List.append_assoc, Stmt.usesOfList_around around rest]

end

end Source

namespace Lowering

/-! ### Statements -/

/-- What is read is the receiver, a temporary, or what a source name means: the names in scope are
those around it in source, behind temporaries. -/
def Traces (receiver : Name) (added : List Name) (source : List Use) (use : Use) : Prop :=
  use.2 ∈ receiver :: added ∨
    ∃ meant ∈ source, meant.2 = use.2 ∧ ∃ front ⊆ added, use.1 = front ++ meant.1

theorem Traces.mono {receiver : Name} {added more : List Name} {source others : List Use}
    {use : Use} (traces : Traces receiver added source use) (inside : added ⊆ more)
    (among : source ⊆ others) :
    Traces receiver more others use := by
  rcases traces with known | ⟨meant, member, same, front, new, behind⟩
  · exact .inl (List.cons_subset_cons receiver inside known)
  · exact .inr ⟨meant, among member, same, front, fun name here => inside (new here), behind⟩

/-- A part of a tree declares the variables of its source and what was added, and traces what it
reads. -/
structure Carries (receiver : Name) (added locals : List Name) (source : List Name → List Use)
    (declared : List Name) (uses : List Name → List Use) : Prop where
  declares : declared.Perm (locals ++ added)
  reads : ∀ scope, ∀ use ∈ uses scope, Traces receiver added (source scope) use

theorem perm_regroup (first second third fourth : List Name) :
    ((first ++ second) ++ (third ++ fourth)).Perm ((first ++ third) ++ (second ++ fourth)) := by
  rw [List.append_assoc, List.append_assoc]
  refine List.Perm.append_left first ?_
  rw [← List.append_assoc, ← List.append_assoc]
  exact List.perm_append_comm.append_right fourth

namespace Carries

variable {receiver : Name} {added more locals others declared declaredToo : List Name}
  {source sourceToo uses usesToo : List Name → List Use}

theorem none : Carries receiver [] [] (fun _ => []) [] fun _ => [] :=
  ⟨.nil, fun _ _ member => absurd member List.not_mem_nil⟩

theorem append (first : Carries receiver added locals source declared uses)
    (second : Carries receiver more others sourceToo declaredToo usesToo) :
    Carries receiver (added ++ more) (locals ++ others)
      (fun scope => source scope ++ sourceToo scope) (declared ++ declaredToo)
      fun scope => uses scope ++ usesToo scope := by
  have declares := (first.declares.append second.declares).trans (perm_regroup ..)
  refine ⟨declares, fun scope use member => ?_⟩
  rcases List.mem_append.mp member with here | there
  · exact (first.reads scope use here).mono (List.subset_append_left ..)
      (List.subset_append_left ..)
  · exact (second.reads scope use there).mono (List.subset_append_right ..)
      (List.subset_append_right ..)

theorem append_none (carries : Carries receiver added locals source declared uses) :
    Carries receiver added locals source (declared ++ []) fun scope => uses scope ++ [] := by
  simp only [List.append_nil]
  exact carries

/-- A part in the scope that others leave, in source as in the lowered tree. -/
theorem inScope (carries : Carries receiver added locals source declared uses)
    {change changeToo : List Name → List Name} (same : ∀ scope, changeToo scope = change scope) :
    Carries receiver added locals (fun scope => source (change scope)) declared
      fun scope => uses (changeToo scope) := by
  refine ⟨carries.declares, fun scope => ?_⟩
  rw [same]
  exact carries.reads (change scope)

/-- A part that reads the identifiers of its source. -/
theorem of_binds {names : List Name}
    (binds : Binds (fun name => name = receiver ∨ name ∈ names) added declared uses) :
    Carries receiver added [] (Source.Expr.usesAt · names) declared uses := by
  refine ⟨binds.declares ▸ .refl _, fun scope use member => ?_⟩
  obtain ⟨front, inScope, inside, known⟩ := binds.reads scope use member
  rcases known with here | own | named
  · exact .inl (List.mem_cons_of_mem receiver (inside here))
  · exact .inl (own ▸ List.mem_cons_self)
  · exact .inr ⟨(scope, use.2), List.mem_map_of_mem named, rfl, front, inside, inScope⟩

end Carries

/-- A lowered statement declares and reads what its source does. -/
structure Mirrors (receiver : Name) (source : Source.Stmt) (added : List Name) (stmt : Stmt) :
    Prop where
  after : stmt.declares = source.declares
  carries : Carries receiver added source.declared (fun scope => source.uses scope) stmt.declared
    fun scope => stmt.uses scope

/-- So do lowered statements one by one. -/
structure MirrorEach (receiver : Name) (source : List Source.Stmt) (added : List Name)
    (stmts : List Stmt) : Prop where
  after : ∀ scope, Stmt.scopeAfter scope stmts = Source.Stmt.scopeAfter scope source
  carries : Carries receiver added (Source.Stmt.declaredOfList source)
    (fun scope => Source.Stmt.usesOfList scope source) (Stmt.declaredOfList stmts)
    fun scope => Stmt.usesOfList scope stmts

variable {context : Context} {routine : Routine}

theorem closes_implicitResult (span : Span) (mode : Mode) (names : List Name) :
    Closes (Source.Means context names) [] (implicitResult context span mode) := by
  cases mode with
  | constructor => exact closes_selfExpr span (.inl rfl)
  | entry | instanceMethod | static => exact .none

theorem takes_blockStmt {stmts : List Stmt} :
    Takes (blockStmt stmts) fun added stmt => added = [] ∧ stmt = .block stmts :=
  (Takes.checkLength _ _).bind_none fun _ _ => .pure ⟨rfl, rfl⟩

end Lowering

namespace Source

open Lowering

variable {context : Context} {routine : Routine}

mutual

/-- **A lowered statement declares and reads what its source does**, besides its temporaries. -/
theorem Stmt.takes_lower : ∀ stmt : Stmt,
    Takes (stmt.lower context routine) (Mirrors context.options.selfParam stmt)
  | .eval _ expr => expr.takes_lower.bind_pure fun _ _ closes => ⟨rfl, .of_binds closes⟩
  | .localVar _ _ name init => by
    refine (Expr.takes_lowerOption init).bind_pure fun added value closes => ⟨rfl, ?_⟩
    have carries := Carries.of_binds closes
    refine ⟨?_, fun scope => carries.reads (name :: scope)⟩
    exact (carries.declares.append_right [name]).trans List.perm_append_comm
  | .block _ body => by
    refine (Stmt.takes_lowerEach body).bind fun added stmts mirror => ?_
    refine takes_blockStmt.mono ?_
    rintro more _ ⟨rfl, rfl⟩
    rw [List.append_nil]
    exact ⟨rfl, mirror.carries⟩
  | .branch _ cond yes none => by
    refine cond.takes_lower.bind fun added _ condition => ?_
    refine yes.takes_lower.bind_pure fun more _ first => ⟨rfl, ?_⟩
    exact (Carries.of_binds condition).append first.carries.append_none
  | .branch _ cond yes (some no) => by
    refine cond.takes_lower.bind fun added _ condition => ?_
    refine yes.takes_lower.bind fun more _ first => ?_
    refine no.takes_lower.bind_pure fun last _ second => ⟨rfl, ?_⟩
    exact (Carries.of_binds condition).append (first.carries.append second.carries)
  | .whileLoop _ cond body => by
    refine cond.takes_lower.bind fun added _ condition => ?_
    refine body.takes_lower.bind_pure fun more _ mirrors => ⟨rfl, ?_⟩
    exact (Carries.of_binds condition).append mirrors.carries
  | .forLoop _ init cond update body => by
    refine (Stmt.takes_lowerEach init).bind fun added inits first => ?_
    refine (Takes.checkLength _ _).bind_none fun _ _ => ?_
    refine (Expr.takes_lowerOption cond).bind fun more _ second => ?_
    refine (Expr.takes_lowerArgs update).bind fun others _ third => ?_
    refine body.takes_lower.bind_pure fun last _ fourth => ⟨rfl, ?_⟩
    have rest := (Carries.of_binds second).append
      ((Carries.of_binds third).append fourth.carries)
    exact first.carries.append (rest.inScope first.after)
  | .ret span none => .pure ⟨rfl, .of_binds (closes_implicitResult span routine.mode _)⟩
  | .ret _ (some value) => value.takes_lower.bind_pure fun _ _ closes => ⟨rfl, .of_binds closes⟩

theorem Stmt.takes_lowerEach : ∀ stmts : List Stmt,
    Takes (runEach (Stmt.lowerEach context routine stmts))
      (MirrorEach context.options.selfParam stmts)
  | [] => .pure ⟨fun _ => rfl, .none⟩
  | stmt :: rest => by
    refine stmt.takes_lower.bind fun added lowered mirrors => ?_
    refine (Stmt.takes_lowerEach rest).bind_pure fun more others mirror => ⟨fun scope => ?_, ?_⟩
    · rw [Lowered.Stmt.scopeAfter, mirrors.after]
      exact mirror.after _
    · have behind (scope : List Name) : lowered.declares ++ scope = stmt.declares ++ scope :=
        congrArg (· ++ scope) mirrors.after
      exact mirrors.carries.append (mirror.carries.inScope behind)

end

end Source

namespace Lowering

open Source (ClassDecl MethodDecl)

/-! ### Routines -/

/-- What a routine is made from: the names of its parameters, the values of fields that it assigns
first, and its statements. -/
structure Script where
  params : List Name
  values : List Source.Expr
  body : List Source.Stmt

/-- The values that the fields of a class are given by the class itself. -/
def fieldValues (facts : Facts) (className : Name) : List Source.Expr :=
  ((facts.chains.instance? className).map
    fun chain => (ownValues className chain).map (·.2)).getD []

/-- What a construction routine is made from. -/
def constructionScript (facts : Facts) (decl : ClassDecl) (source : Option (MethodDecl × Nat)) :
    Script :=
  ⟨(givenParams source).map (·.name), fieldValues facts decl.name, stmtsOf source⟩

/-- What a method is made from. -/
def methodScript (method : MethodDecl) : Script :=
  ⟨method.params.map (·.name), [], bodyStmts (some method.body)⟩

/-- A lowered routine declares the variables of its source, the receiver parameter and temporaries.
Values of fields are read where only parameters are in scope. Behind them a name that is not one of
the receiver or of a temporary is read exactly where the source reads it, and means the same
declaration. -/
structure KeepsNames (own : Name) (receiver : List Name) (script : Script) (added : List Name)
    (routine : Lowered.Method Stmt) : Prop where
  params : routine.params.map (·.name) = receiver ++ script.params
  declares : routine.body.declared.Perm (Source.Stmt.declaredOfList script.body ++ added)
  body : ∃ start rest, routine.body = .block (start ++ rest) ∧
    (∀ scope, Stmt.scopeAfter scope start = scope) ∧
    (∀ use ∈ Stmt.usesOfList (script.params.reverse ++ receiver) start,
      use.2 ∈ own :: added ∨ ∃ value ∈ script.values, use.2 ∈ value.names) ∧
    ∀ use ∈ Stmt.usesOfList (script.params.reverse ++ receiver) rest, use.2 ∉ own :: added →
      ∃ meant ∈ Source.Stmt.usesOfList script.params.reverse script.body, meant.2 = use.2 ∧
        declarationOf use.1 use.2 = (declarationOf meant.1 use.2).map (· ++ receiver)

/-- The receiver or an identifier of one of the values. -/
def MeansIn (own : Name) (values : List Source.Expr) (name : Name) : Prop :=
  name = own ∨ ∃ value ∈ values, name ∈ value.names

variable {context : Context} {routine : Routine} {allowed : Name → Prop}

theorem takes_assignField (span : Span) (field : Name × Source.Expr)
    (weaker : ∀ name, Source.Means context field.2.names name → allowed name) :
    Takes (assignField context routine span field)
      fun added stmt => Opens allowed added [] [stmt] := by
  refine field.2.takes_lower.bind_pure fun added value closes => .mono (.eval ?_) weaker
  exact closes_assign (closes_selfExpr span (.inl rfl)) closes span

theorem takes_assigns (span : Span) {fields : List (Name × Source.Expr)}
    (weaker : ∀ field ∈ fields, ∀ name, Source.Means context field.2.names name → allowed name) :
    Takes (runEach (fields.map (assignField context routine span))) fun added stmts =>
      Opens allowed added [] stmts := by
  induction fields with
  | nil => exact .pure .nil
  | cons field rest step =>
    rw [List.forall_mem_cons] at weaker
    refine (takes_assignField span field weaker.1).bind fun added stmt first => ?_
    refine (step weaker.2).bind_pure fun more stmts others => ?_
    exact first.append (others.mono fun _ => .inr)

/-- **A construction routine starts with the parent's routine and the values of fields**, which read
the receiver and their identifiers. -/
theorem takes_prologue (span : Span) : Takes (prologue context routine span) fun added stmts =>
    Opens (MeansIn context.options.selfParam (fieldValues context.facts routine.className)) added []
      stmts := by
  unfold prologue fieldValues
  dsimp only
  split
  · exact .fail
  · rename_i chain resolved
    rw [resolved]
    have inValue (field : Name × Source.Expr) (member : field ∈ ownValues routine.className chain)
        (name : Name) (known : Source.Means context field.2.names name) :
        MeansIn context.options.selfParam ((ownValues routine.className chain).map (·.2)) name :=
      known.imp_right fun named => ⟨field.2, List.mem_map_of_mem member, named⟩
    refine (takes_assigns span inValue).bind_pure fun added stmts opens => ?_
    have parent : Opens (MeansIn context.options.selfParam
        ((ownValues routine.className chain).map (·.2))) [] []
        [.eval (.initCall span ((context.facade.supertype routine.className).getD Reserved.object)
          [selfExpr context span])] := by
      refine .eval (allClose_of_closes (List.forall_mem_singleton.mpr ?_))
      exact closes_selfExpr span (.inl rfl)
    exact parent.append (opens.mono fun _ => .inr)

/-- The body of a routine is what comes first, then the statements of its source. -/
theorem takes_lowerBody (span : Span) (start : List Stmt) (body : Option Source.Stmt) :
    Takes (lowerBody context routine span start body) fun added result =>
      ∃ rest, result = .block (start ++ rest) ∧ Carries context.options.selfParam added
        (Source.Stmt.declaredOfList (bodyStmts body))
        (fun scope => Source.Stmt.usesOfList scope (bodyStmts body)) (Stmt.declaredOfList rest)
        fun scope => Stmt.usesOfList scope rest := by
  unfold lowerBody
  rw [← Source.Stmt.lowerEach_eq_map]
  refine (Source.Stmt.takes_lowerEach _).bind fun added stmts mirror => ?_
  refine takes_blockStmt.mono ?_
  rintro more _ ⟨rfl, rfl⟩
  refine ⟨stmts ++ finalReturn context routine span (start ++ stmts),
    congrArg Stmt.block (List.append_assoc ..), ?_⟩
  have final : Carries context.options.selfParam [] [] (fun _ => [])
      (Stmt.declaredOfList (finalReturn context routine span (start ++ stmts)))
      fun scope => Stmt.usesOfList scope (finalReturn context routine span (start ++ stmts)) := by
    unfold finalReturn
    split
    · exact (Carries.of_binds (closes_implicitResult span routine.mode [])).append_none
    · exact .none
  have whole := mirror.carries.append (final.inScope mirror.after)
  simp only [List.append_nil] at whole ⊢
  simpa only [Stmt.declaredOfList_append, Stmt.usesOfList_append] using whole

section Routines

variable {decl : ClassDecl} {script : Script} {receiver added more : List Name}

/-- A name that is not one of the receiver or of a temporary means the same declaration. -/
theorem meant_of_traces {own : Name} (known : ∀ name ∈ receiver, name = own)
    {stmts : List Source.Stmt} {params : List Name} {use : Use}
    (traces : Traces own added (Source.Stmt.usesOfList (params ++ receiver) stmts) use)
    (other : use.2 ∉ own :: added) :
    ∃ meant ∈ Source.Stmt.usesOfList params stmts, meant.2 = use.2 ∧
      declarationOf use.1 use.2 = (declarationOf meant.1 use.2).map (· ++ receiver) := by
  obtain ⟨meant, member, same, front, new, behind⟩ := traces.resolve_left other
  rw [List.mem_cons, not_or] at other
  rw [Source.Stmt.usesOfList_around] at member
  obtain ⟨meant, among, rfl⟩ := List.mem_map.mp member
  refine ⟨meant, among, same, ?_⟩
  rw [behind]
  exact declarationOf_append (fun taken => other.2 (new taken))
    fun inside => other.1 (known _ inside)

/-- A routine whose body starts with values of fields and goes on with the statements of its
source. -/
theorem keepsNames_of_body {own : Name} (known : ∀ name ∈ receiver, name = own)
    {routine : Lowered.Method Stmt} {start rest : List Stmt}
    (params : routine.params.map (·.name) = receiver ++ script.params)
    (opens : Opens (MeansIn own script.values) added [] start)
    (body : routine.body = .block (start ++ rest))
    (carries : Carries own more (Source.Stmt.declaredOfList script.body)
      (fun scope => Source.Stmt.usesOfList scope script.body) (Stmt.declaredOfList rest)
      fun scope => Stmt.usesOfList scope rest) :
    KeepsNames own receiver script (added ++ more) routine := by
  refine ⟨params, ?_, start, rest, body, opens.after, fun use member => ?_,
    fun use member other => ?_⟩
  · rw [body, Stmt.declared, Stmt.declaredOfList_append, opens.binds.declares]
    refine (carries.declares.append_left added).trans ?_
    rw [← List.append_assoc, ← List.append_assoc]
    exact List.perm_append_comm.append_right more
  · obtain ⟨front, _, inside, reads⟩ := opens.binds.reads _ use member
    rcases reads with here | own | value
    · exact .inl (List.mem_cons_of_mem _ (List.mem_append_left _ (inside here)))
    · exact .inl (own ▸ List.mem_cons_self)
    · exact .inr value
  · have traces := carries.reads _ use member
    exact meant_of_traces known traces fun here =>
      other (List.cons_subset_cons own (List.subset_append_right added more) here)

/-- **A construction routine keeps the names of its source.** -/
theorem takes_lowerConstruction (source : Option (MethodDecl × Nat)) :
    Takes (lowerConstruction context decl source) (KeepsNames context.options.selfParam
      [context.options.selfParam] (constructionScript context.facts decl source)) := by
  have known : ∀ name ∈ [context.options.selfParam], name = context.options.selfParam :=
    fun _ => List.mem_singleton.mp
  have starts : Takes (startOf context decl source) fun added stmts =>
      Opens (MeansIn context.options.selfParam (fieldValues context.facts decl.name)) added []
        stmts := by
    have named : (routineOf decl source).className = decl.name := className_routineOf
    unfold startOf
    rw [← named]
    split
    · exact .pure .nil
    · exact takes_prologue (spanOf decl source)
  rw [lowerConstruction_eq]
  refine starts.bind fun added start opens => ?_
  refine (takes_lowerBody (spanOf decl source) start _).bind_pure ?_
  rintro more _ ⟨rest, body, carries⟩
  exact keepsNames_of_body known rfl opens body carries

/-- The receiver parameter of a method, unless it is static. -/
def receiverOf (own : Name) (method : MethodDecl) : List Name :=
  if method.modifiers.isStatic then [] else [own]

/-- **A method keeps the names of its source.** -/
theorem takes_lowerMethod (index : Nat) (method : MethodDecl) :
    Takes (lowerMethod context decl.name index method) (KeepsNames context.options.selfParam
      (receiverOf context.options.selfParam method) (methodScript method)) := by
  refine (takes_lowerBody method.span [] (some method.body)).bind_pure ?_
  rintro added _ ⟨rest, body, carries⟩
  refine keepsNames_of_body ?_ ?_ .nil body carries
  · unfold receiverOf
    split
    · exact List.forall_mem_nil _
    · exact fun _ => List.mem_singleton.mp
  · unfold receiverOf
    cases static : method.modifiers.isStatic with
    | true =>
      have other : modeOf context method ≠ .instanceMethod := fun same =>
        absurd (modeOf_eq_instanceMethod.mp same) (Bool.not_eq_false _ ▸ static)
      exact congrArg _ (if_neg other)
    | false => exact congrArg _ (if_pos (modeOf_eq_instanceMethod.mpr static))

end Routines

end Lowering

open Lowering
open Source (SourceUnit)

/-- **A name keeps its meaning unless it is one of lowering's own.** Every routine of a program
declares the parameters and locals of its source, each as often as the source does, the receiver
parameter if it has one, and the temporaries `__tmp<n>` with `n` below a count. A local that is read
under a name other than these is read in source too, and means there the same declaration, with the
same variables around it but for the receiver parameter. Only the values of fields, in front of the
statements of a constructor, have no declarations in source that their names could mean. -/
theorem names_keep_meaning {units : List SourceUnit} {facts : Facts} {options : LoweringOptions}
    {lowered : List Lowered.TreeUnit}
    (done : (Program.ofUnits units).lower facts options = .ok lowered) {place : PlacedClass}
    {layout : Lowered.ClassLayout Expr Stmt}
    (pair : (place, layout) ∈ (Program.placed units).zip (lowered.flatMap (·.classes))) :
    List.Forall₂ (fun source routine => ∃ count, KeepsNames options.selfParam [options.selfParam]
        (constructionScript facts place.decl source) (temps 0 count) routine)
      (constructions place.decl) layout.inits ∧
    List.Forall₂ (fun method routine => ∃ count, KeepsNames options.selfParam
        (receiverOf options.selfParam method.1) (methodScript method.1) (temps 0 count) routine)
      (place.decl.methods.zipIdx.filter (!·.1.isConstructorOf place.decl.name)) layout.methods := by
  have lays := lays_of_lowerClass ((List.forall₂_iff_zip.mp (Program.ok_of_lower done)).2 pair)
  refine ⟨lays.inits.imp fun source routine made => ?_,
    lays.methods.imp fun method routine made => ?_⟩
  · exact (takes_lowerConstruction source).of_inRoutine made
  · exact (takes_lowerMethod method.2 method.1).of_inRoutine made

/-- A static method that makes an array. -/
def Source.MethodDecl.cells : MethodDecl where
  name := "cells"
  params := []
  ret := .arrayOf .int 1
  modifiers := { isStatic := true }
  span := ⟨1, 5⟩
  body := .block ⟨2, 5⟩ [.ret ⟨2, 4⟩ (some (.newArray ⟨1, 2, 3⟩ .int [.int ⟨0, 3, 4⟩ 3] 0))]

/-- An element of a new array, at a position that a name means. -/
def Source.Expr.cellAt (position : Name) : Source.Expr :=
  .index ⟨4, 6, 9⟩ (.call ⟨2, 6, 7⟩ none "cells" []) (.ident ⟨3, 7, 8⟩ position)

/-- A static method that reads an element at the position that its parameter gives. -/
def Source.MethodDecl.cellAt (position : Name) : MethodDecl where
  name := "at"
  params := [⟨.int, position⟩]
  ret := .int
  modifiers := { isStatic := true }
  span := ⟨5, 10⟩
  body := .block ⟨6, 10⟩ [.ret ⟨6, 9⟩ (some (.cellAt position))]

/-- A class that reads elements of new arrays, with a parameter of any name. -/
def Source.ClassDecl.row (position : Name) : ClassDecl where
  name := "Row"
  parent := none
  fields := []
  methods := [.cells, .cellAt position]
  span := ⟨0, 10⟩

def Source.SourceUnit.row (position : Name) : SourceUnit where
  path := "Row"
  package := []
  imports := []
  classes := [.row position]
  nodes := #[.int ⟨0, 3, 4⟩ 3, .newArray ⟨1, 2, 3⟩ .int [.int ⟨0, 3, 4⟩ 3] 0,
    .call ⟨2, 6, 7⟩ none "cells" [], .ident ⟨3, 7, 8⟩ position, .cellAt position]
  stmtCount := 4

/-- A position keeps its name beside the temporary for the array. -/
theorem names_keep_meaning_row : ∃ facts lowered layout,
    (Program.ofUnits [.row "i"]).facts ⟨["Row"]⟩ {} = .ok facts ∧
    (Program.ofUnits [.row "i"]).lower facts {} = .ok lowered ∧
    lowered.flatMap (·.classes) = [layout] ∧
    List.Forall₂ (fun method routine => ∃ count,
        KeepsNames "__this" [] (methodScript method) (temps 0 count) routine)
      [.cells, .cellAt "i"] layout.methods := by
  obtain ⟨facts, lowered, computed, done⟩ :=
    Program.exists_lowered [.row "i"] ⟨["Row"]⟩ {} (by decide +kernel)
  have each := Program.ok_of_lower done
  have placed : Program.placed [.row "i"] = [⟨0, .row "i", .row "i"⟩] := rfl
  rw [placed] at each
  obtain ⟨layout, _, _, none, classes⟩ := List.forall₂_cons_left_iff.mp each
  obtain rfl := List.forall₂_nil_left_iff.mp none
  have pair : (⟨0, .row "i", .row "i"⟩, layout) ∈
      (Program.placed [.row "i"]).zip (lowered.flatMap (·.classes)) := by
    rw [classes, placed]
    exact List.mem_cons_self
  obtain ⟨_, kept⟩ := names_keep_meaning done pair
  have methods : (Source.ClassDecl.row "i").methods.zipIdx.filter
      (!·.1.isConstructorOf (Source.ClassDecl.row "i").name) =
        [(.cells, 0), (.cellAt "i", 1)] := rfl
  dsimp only at kept
  rw [methods] at kept
  obtain ⟨first, _, keepsCells, others, listed⟩ := List.forall₂_cons_left_iff.mp kept
  obtain ⟨second, _, keepsAt, none, rfl⟩ := List.forall₂_cons_left_iff.mp others
  obtain rfl := List.forall₂_nil_left_iff.mp none
  refine ⟨facts, lowered, layout, computed, done, classes, ?_⟩
  rw [listed]
  exact .cons keepsCells (.cons keepsAt .nil)

/-- What the locals that a routine reads mean. -/
def Lowered.Method.meanings (routine : Lowered.Method Stmt) : List (Option (List Name)) :=
  (routine.body.uses (routine.params.map (·.name)).reverse).map fun use =>
    declarationOf use.1 use.2

/-- A position that is called like the temporary for the array is hidden by it: the source reads its
parameter, the lowered routine reads the array in its place. -/
theorem temporary_hides_position : ∃ facts lowered,
    (Program.ofUnits [.row "__tmp0"]).facts ⟨["Row"]⟩ {} = .ok facts ∧
    (Program.ofUnits [.row "__tmp0"]).lower facts {} = .ok lowered ∧
    (methodScript (.cellAt "__tmp0")).params = ["__tmp0"] ∧
    Source.Stmt.declaredOfList (methodScript (.cellAt "__tmp0")).body = [] ∧
    Source.Stmt.usesOfList ["__tmp0"] (methodScript (.cellAt "__tmp0")).body =
      [(["__tmp0"], "__tmp0")] ∧
    ((lowered.flatMap (·.classes)).flatMap (·.methods)).map (fun routine =>
        (routine.source, routine.body.declared, routine.meanings)) =
      [("cells", [], []),
        ("at", ["__tmp0"], List.replicate 4 (some ["__tmp0", "__tmp0"]))] := by
  have succeeds : (((Program.ofUnits [.row "__tmp0"]).facts ⟨["Row"]⟩ {}).toOption.any fun facts =>
      ((Program.ofUnits [.row "__tmp0"]).lower facts {}).toOption.any fun lowered =>
        ((lowered.flatMap (·.classes)).flatMap (·.methods)).map (fun routine =>
            (routine.source, routine.body.declared, routine.meanings)) =
          [("cells", [], []),
            ("at", ["__tmp0"], List.replicate 4 (some ["__tmp0", "__tmp0"]))]) = true := by
    decide +kernel
  obtain ⟨facts, computed, succeeds⟩ := exists_of_any_toOption succeeds
  obtain ⟨lowered, done, found⟩ := exists_of_any_toOption succeeds
  exact ⟨facts, lowered, computed, done, rfl, rfl, rfl, of_decide_eq_true found⟩

end ObjectLowering
