/-
**Every temporary is declared once, with a value, before it is read.**

Let no identifier that a program reads and no local that it declares begin with `__tmp`. Then the
locals of a lowered routine that begin so are the temporaries that lowering counted, each declared
once and with a value, and a local of such a name is read only behind its declaration, within the
list of statements around it. The values of a class's static fields share one count.

* `isTempName` says that a name begins like those of temporaries.
* `Lowering.BindsTemps`: what a body declares and reads.
* `takes_statics`: the values of static fields declare the temporaries that they take.
* `scopes_lowerConstruction`, `scopes_lowerMethod`: routines read temporaries in scope.
* **`temporaries_in_scope`**: so do all routines of a program, and the values of static fields.
-/

import ObjectLowering.Proofs.Checks.RuntimeChecks
import ObjectLowering.Proofs.Temporaries.KeptNames
import ObjectLowering.Proofs.Temporaries.ScopedForms

namespace ObjectLowering

open Lowered (Expr Stmt)

/-! ### Names of temporaries -/

/-- Whether a name begins like those of temporaries. -/
def isTempName (name : Name) : Bool := "__tmp".toList.isPrefixOf name.toList

/-- The identifiers that a class reads and the locals that it declares. -/
def Source.ClassDecl.variables (decl : ClassDecl) : List Name :=
  decl.nodes.filterMap Expr.identifier? ++ decl.methods.flatMap (·.body.declared)

namespace Lowering

theorem isTempName_tempName (number : Nat) : isTempName (tempName number) = true := by
  unfold isTempName tempName
  rw [String.toList_append, List.isPrefixOf_iff_prefix]
  exact List.prefix_append _ _

theorem filter_temps (start stop : Nat) :
    (temps start stop).filter isTempName = temps start stop := by
  refine List.filter_eq_self.mpr fun name member => ?_
  obtain ⟨number, _, rfl⟩ := List.mem_map.mp member
  exact isTempName_tempName number

/-- Temporaries are told apart by their numbers. -/
theorem nodup_temps (start stop : Nat) : (temps start stop).Nodup :=
  (List.nodup_range' 1).map fun _ _ => tempName_inj

/-- The receiver, or a name that does not begin like those of temporaries. -/
def IsPlain (receiver name : Name) : Prop := name = receiver ∨ isTempName name = false

/-- The temporaries of a routine: of the locals that are declared, those that begin like temporaries
are the first ones in number, each declared once; a local that is not plain is declared with a value
and read behind its declaration. -/
structure BindsTemps (receiver : Name) (count : Nat) (body : Stmt) : Prop where
  declares : (body.declared.filter isTempName).Perm (temps 0 count)
  once : (body.declared.filter isTempName).Nodup
  inScope : body.Scoped (IsPlain receiver) []

variable {context : Context} {routine : Routine} {free : Name → Prop} {decl : Source.ClassDecl}

/-! ### Routines -/

theorem declaredOfList_bodyStmts (body : Source.Stmt) :
    Source.Stmt.declaredOfList (bodyStmts (some body)) = body.declared := by
  unfold bodyStmts
  split
  · rename_i missing
    cases missing
  · rename_i written
    cases written
    rfl
  · rename_i written
    cases written
    exact List.append_nil _

/-- What a routine is made from reads and declares nothing but what is free. -/
structure Script.IsFree (free : Name → Prop) (script : Script) : Prop where
  values : ∀ value ∈ script.values, ∀ node ∈ value.nodes, node.Names free
  names : ∀ node ∈ Source.Stmt.nodesOfList script.body, node.Names free
  locals : ∀ name ∈ Source.Stmt.declaredOfList script.body, free name

theorem scoped_prologue (own : free context.options.selfParam) (routine : Routine) (span : Span)
    (values : ∀ value ∈ fieldValues context.facts routine.className, ∀ node ∈ value.nodes,
      node.Names free) :
    Ensures (prologue context routine span) fun stmts => ∀ stmt ∈ stmts, stmt.Scoped free [] := by
  unfold prologue
  unfold fieldValues at values
  dsimp only
  split
  · exact .fail
  · rename_i chain resolved
    rw [resolved] at values
    have assigns : ∀ step ∈ (ownValues routine.className chain).map
        (assignField context routine span), Ensures step (Stmt.Scoped free []) := by
      refine List.forall_mem_map.mpr fun field member => ?_
      have names := values field.2 (List.mem_map_of_mem member)
      exact (field.2.scopes_lower own names).bind fun _ known =>
        .pure ⟨scoped_selfExpr own span, known⟩
    refine (Ensures.runAll assigns).bind fun stmts known => .pure ?_
    exact List.forall_mem_cons.mpr ⟨⟨scoped_selfExpr own span, trivial⟩, known⟩

theorem scoped_lowerBody (own : free context.options.selfParam) (routine : Routine) (span : Span)
    {start : List Stmt} (body : Option Source.Stmt) (before : ∀ stmt ∈ start, stmt.Scoped free [])
    (names : ∀ node ∈ Source.Stmt.nodesOfList (bodyStmts body), node.Names free)
    (locals : ∀ name ∈ Source.Stmt.declaredOfList (bodyStmts body), free name) :
    Ensures (lowerBody context routine span start body) (Stmt.Scoped free []) := by
  unfold lowerBody
  rw [← Source.Stmt.lowerEach_eq_map]
  refine (Ensures.runAll (Source.Stmt.scopes_lowerEach own _ names locals)).bind ?_
  refine fun stmts known => ensures_scoped_blockStmt (Stmt.allScoped_of_forall ?_)
  rw [List.forall_mem_append, List.forall_mem_append]
  refine ⟨⟨before, known⟩, ?_⟩
  unfold finalReturn
  split
  · rw [List.forall_mem_singleton]
    exact scoped_implicitResult own span routine.mode
  · exact List.forall_mem_nil _

/-- **A construction routine reads temporaries in scope.** -/
theorem scopes_lowerConstruction (own : free context.options.selfParam)
    {source : Option (Source.MethodDecl × Nat)}
    (isFree : (constructionScript context.facts decl source).IsFree free) :
    Ensures (lowerConstruction context decl source) fun made => made.body.Scoped free [] := by
  obtain ⟨values, names, locals⟩ := isFree
  have starts : Ensures (startOf context decl source) fun stmts =>
      ∀ stmt ∈ stmts, stmt.Scoped free [] := by
    have named : (routineOf decl source).className = decl.name := className_routineOf
    unfold startOf
    split
    · exact .pure (List.forall_mem_nil _)
    · exact scoped_prologue own _ _ (named.symm ▸ values)
  rw [lowerConstruction_eq]
  refine starts.bind fun start before => ?_
  exact (scoped_lowerBody own _ _ _ before names locals).bind fun _ known => .pure known

/-- **A method reads temporaries in scope.** -/
theorem scopes_lowerMethod (own : free context.options.selfParam) (index : Nat)
    {method : Source.MethodDecl} (isFree : (methodScript method).IsFree free) :
    Ensures (lowerMethod context decl.name index method) fun made =>
      made.body.Scoped free [] :=
  (scoped_lowerBody own _ method.span _ (List.forall_mem_nil _) isFree.names isFree.locals).bind
    fun _ known => .pure known

/-- A routine whose source has no local that begins like a temporary. -/
theorem bindsTemps_of_keepsNames {own : Name} {receiver : List Name} {script : Script}
    {count : Nat} {made : Lowered.Method Stmt}
    (keeps : KeepsNames own receiver script (temps 0 count) made)
    (plain : ∀ name ∈ Source.Stmt.declaredOfList script.body, isTempName name = false)
    (inScope : made.body.Scoped (IsPlain own) []) : BindsTemps own count made.body := by
  have declares : (made.body.declared.filter isTempName).Perm (temps 0 count) := by
    have filtered := keeps.declares.filter isTempName
    have none : (Source.Stmt.declaredOfList script.body).filter isTempName = [] :=
      List.filter_eq_nil_iff.mpr fun name member => Bool.eq_false_iff.mp (plain name member)
    rwa [List.filter_append, none, List.nil_append, filter_temps] at filtered
  exact ⟨declares, declares.nodup_iff.mpr (nodup_temps 0 count), inScope⟩

/-! ### Static fields -/

theorem closes_defaultExpr (allowed : Name → Prop) (span : Span) (literal : DefaultLiteral) :
    Closes allowed [] (defaultExpr span literal) := by
  cases literal <;> exact .none

theorem scoped_defaultExpr (span : Span) (literal : DefaultLiteral) {scope : List Name} :
    (defaultExpr span literal).Scoped free scope := by
  cases literal <;> exact trivial

/-- The value of a static field declares the temporaries that it takes. -/
theorem takes_lowerStatic (className : Name) (span : Span) (init : Initializer Source.Expr) :
    Takes (lowerStatic context className span init) fun added storage =>
      storage.init.declared = added := by
  unfold lowerStatic
  cases init.value with
  | none =>
    exact .pure (closes_defaultExpr (fun _ => True) span init.default).declares
  | some value => exact value.takes_lower.bind_pure fun _ _ closes => closes.declares

/-- **The values of static fields declare the temporaries that they take**, together. -/
theorem takes_statics (className : Name) (span : Span) (inits : List (Initializer Source.Expr)) :
    Takes (runEach (inits.map (lowerStatic context className span))) fun added storages =>
      Expr.declaredOfList (storages.map (·.init)) = added := by
  induction inits with
  | nil => exact .pure rfl
  | cons init rest step =>
    refine (takes_lowerStatic className span init).bind fun added storage first => ?_
    exact step.bind_pure fun more others second => congrArg₂ _ first second

theorem scopes_statics (own : free context.options.selfParam) (className : Name) (span : Span)
    {inits : List (Initializer Source.Expr)}
    (names : ∀ init ∈ inits, ∀ value, init.value = some value → ∀ node ∈ value.nodes,
      node.Names free) :
    Ensures (runEach (inits.map (lowerStatic context className span))) fun storages =>
      ∀ storage ∈ storages, storage.init.Scoped free [] := by
  refine Ensures.runAll (List.forall_mem_map.mpr fun init inside => ?_)
  unfold lowerStatic
  cases given : init.value with
  | none => exact .pure (scoped_defaultExpr span init.default)
  | some value =>
    exact (value.scopes_lower own (names init inside value given)).bind fun _ known => .pure known

end Lowering

/-! ### Programs -/

open Lowering
open Source (SourceUnit)

/-- No class has a variable that begins like a temporary. -/
def Program.IsPlain (units : List SourceUnit) : Prop :=
  ∀ unit ∈ units, ∀ decl ∈ unit.classes, ∀ name ∈ decl.variables, isTempName name = false

namespace Program

variable {units : List SourceUnit} {facts : Facts} {names : NameTable} {options : LoweringOptions}
  {place : PlacedClass} {own : Name}

/-- The variables of a class that counts are plain. -/
theorem plain_variables (plain : IsPlain units) (counts : place ∈ placed units) :
    ∀ name ∈ place.decl.variables, isTempName name = false := by
  obtain ⟨here, declared, _⟩ := mem_placed.mp counts
  exact plain place.unit (List.mem_of_getElem? here) place.decl declared

theorem plain_nodes (plain : IsPlain units) (counts : place ∈ placed units) :
    ∀ node ∈ place.decl.nodes, node.Names (Lowering.IsPlain own) := by
  intro node member name named
  refine .inr (plain_variables plain counts name (List.mem_append_left _ ?_))
  exact List.mem_filterMap.mpr ⟨node, member, named⟩

/-- So are those of a value that stands in one. -/
theorem plain_value (plain : IsPlain units) {value : Source.Expr}
    (hosted : Hosts units place value) : ∀ node ∈ value.nodes,
      node.Names (Lowering.IsPlain own) := by
  obtain ⟨decl, counts, among⟩ := hosted
  exact fun node member => plain_nodes plain counts node (among node member)

theorem plain_body (plain : IsPlain units) (counts : place ∈ placed units)
    {method : Source.MethodDecl} (declares : method ∈ place.decl.methods) :
    (∀ node ∈ Source.Stmt.nodesOfList (bodyStmts (some method.body)),
      node.Names (Lowering.IsPlain own)) ∧
    ∀ name ∈ Source.Stmt.declaredOfList (bodyStmts (some method.body)),
      isTempName name = false := by
  rw [nodesOfList_bodyStmts, declaredOfList_bodyStmts]
  refine ⟨fun node member => plain_nodes plain counts node ?_, fun name member => ?_⟩
  · exact List.mem_append_right _ (List.mem_flatMap.mpr ⟨method, declares, member⟩)
  · refine plain_variables plain counts name (List.mem_append_right _ ?_)
    exact List.mem_flatMap.mpr ⟨method, declares, member⟩

/-- What a construction routine is made from has plain variables. -/
theorem plain_construction (computed : (ofUnits units).facts names options = .ok facts)
    (plain : IsPlain units) (counts : place ∈ placed units)
    {source : Option (Source.MethodDecl × Nat)} (made : source ∈ constructions place.decl) :
    (constructionScript facts place.decl source).IsFree (Lowering.IsPlain own) ∧
      ∀ name ∈ Source.Stmt.declaredOfList (constructionScript facts place.decl source).body,
        isTempName name = false := by
  have values : ∀ value ∈ fieldValues facts place.decl.name, ∀ node ∈ value.nodes,
      node.Names (Lowering.IsPlain own) := by
    unfold fieldValues
    cases resolved : facts.chains.instance? place.decl.name with
    | none => exact List.forall_mem_nil _
    | some chain =>
      refine List.forall_mem_map.mpr fun field member => ?_
      exact plain_value plain (hosts_of_ownValues computed counts resolved member)
  rcases mem_constructions.mp made with ⟨rfl, _⟩ | ⟨method, rfl, listed, _⟩
  · exact ⟨⟨values, List.forall_mem_nil _, List.forall_mem_nil _⟩, List.forall_mem_nil _⟩
  · obtain ⟨nodes, locals⟩ := plain_body plain counts (List.fst_mem_of_mem_zipIdx listed)
    exact ⟨⟨values, nodes, fun name member => .inr (locals name member)⟩, locals⟩

end Program

/-- The step counts the temporaries of the routine that it comes to, which are in scope where they
are read. -/
def Lowering.CountsTemps (receiver : Name) (step : LowerM (Lowered.Method Stmt))
    (made : Lowered.Method Stmt) : Prop :=
  ∃ count, step.run 0 = .ok (made, count) ∧ BindsTemps receiver count made.body

theorem Lowering.countsTemps {own : Name} {receiver : List Name} {script : Script}
    {step : LowerM (Lowered.Method Stmt)} {made : Lowered.Method Stmt}
    (done : inRoutine step = .ok made) (takes : Takes step (KeepsNames own receiver script))
    (scopes : Ensures step fun made => made.body.Scoped (IsPlain own) [])
    (plain : ∀ name ∈ Source.Stmt.declaredOfList script.body, isTempName name = false) :
    CountsTemps own step made := by
  obtain ⟨⟨_, count⟩, ran, rfl⟩ := ok_of_map done
  exact ⟨count, ran, bindsTemps_of_keepsNames (takes 0 _ count ran).2 plain (scopes 0 _ count ran)⟩

/-- **Temporaries are declared once, before use and in scope.** Let no variable of a program begin
like a temporary. In each routine of a class that is lowered, the locals that begin so are the
temporaries `__tmp<n>` with `n` below the count that lowering reaches; each is declared once, with a
value, and read only behind its declaration, in the list of statements that has it. So it is for the
values of static fields, which share one count. -/
theorem temporaries_in_scope {units : List SourceUnit} {names : NameTable} {facts : Facts}
    {options : LoweringOptions} {lowered : List Lowered.TreeUnit}
    (computed : (Program.ofUnits units).facts names options = .ok facts)
    (done : (Program.ofUnits units).lower facts options = .ok lowered)
    (plain : Program.IsPlain units) {place : PlacedClass}
    {layout : Lowered.ClassLayout Expr Stmt}
    (pair : (place, layout) ∈ (Program.placed units).zip (lowered.flatMap (·.classes))) :
    (∃ count, (runEach ((facts.chains.statics place.decl.name).map (lowerStatic
        (Program.contextAt units facts options place.index place.unit) place.decl.name
        place.decl.span))).run 0 = .ok (layout.statics, count) ∧
      Expr.declaredOfList (layout.statics.map (·.init)) = temps 0 count ∧
      (temps 0 count).Nodup ∧
      ∀ storage ∈ layout.statics, storage.init.Scoped (IsPlain options.selfParam) []) ∧
    List.Forall₂ (fun source => CountsTemps options.selfParam (lowerConstruction
        (Program.contextAt units facts options place.index place.unit) place.decl source))
      (constructions place.decl) layout.inits ∧
    List.Forall₂ (fun method => CountsTemps options.selfParam (lowerMethod
        (Program.contextAt units facts options place.index place.unit) place.decl.name method.2
        method.1))
      (place.decl.methods.zipIdx.filter (!·.1.isConstructorOf place.decl.name))
      layout.methods := by
  have lays := lays_of_lowerClass ((List.forall₂_iff_zip.mp (Program.ok_of_lower done)).2 pair)
  have counts : place ∈ Program.placed units := (List.of_mem_zip pair).1
  have own : IsPlain options.selfParam options.selfParam := .inl rfl
  refine ⟨?_, ?_, ?_⟩
  · obtain ⟨⟨statics, count⟩, ran, same⟩ := ok_of_map lays.statics
    obtain rfl : statics = layout.statics := same
    have values : ∀ init ∈ facts.chains.statics place.decl.name, ∀ value,
        init.value = some value → ∀ node ∈ value.nodes, node.Names (IsPlain options.selfParam) :=
      fun init member value given =>
        Program.plain_value plain (Program.hosts_of_statics computed counts member given)
    exact ⟨count, ran, (takes_statics _ _ _ 0 _ count ran).2, nodup_temps 0 count,
      scopes_statics own _ _ values 0 _ count ran⟩
  · have listed := (List.forall₂_and_left _ _).mpr ⟨fun _ member => member, lays.inits⟩
    refine listed.imp fun source routine ⟨member, made⟩ => ?_
    obtain ⟨isFree, locals⟩ := Program.plain_construction computed plain counts member
    exact countsTemps made (takes_lowerConstruction source)
      (scopes_lowerConstruction own isFree) locals
  · have listed := (List.forall₂_and_left _ _).mpr ⟨fun _ member => member, lays.methods⟩
    refine listed.imp fun method routine ⟨member, made⟩ => ?_
    have declares := List.fst_mem_of_mem_zipIdx (List.mem_filter.mp member).1
    obtain ⟨nodes, locals⟩ := Program.plain_body plain counts declares
    have isFree : (methodScript method.1).IsFree (IsPlain options.selfParam) :=
      ⟨List.forall_mem_nil _, nodes, fun name member => .inr (locals name member)⟩
    exact countsTemps made (takes_lowerMethod method.2 method.1)
      (scopes_lowerMethod own method.2 isFree) locals

/-- The temporaries of a new array of arrays and of a store are in scope where they are read. -/
theorem temporaries_in_scope_grids : ∃ facts lowered layout,
    (Program.ofUnits [.grids]).facts ⟨["Grid"]⟩ {} = .ok facts ∧
    (Program.ofUnits [.grids]).lower facts {} = .ok lowered ∧
    Program.IsPlain [.grids] ∧
    lowered.flatMap (·.classes) = [layout] ∧
    layout.methods.map (·.body.declared) =
      [[], ["__tmp0", "__tmp1", "__tmp2", "__tmp3", "__tmp4", "__tmp5"]] ∧
    ∀ routine ∈ layout.methods, ∃ count, BindsTemps "__this" count routine.body := by
  have succeeds : (((Program.ofUnits [.grids]).facts ⟨["Grid"]⟩ {}).toOption.any fun facts =>
      ((Program.ofUnits [.grids]).lower facts {}).toOption.any fun lowered =>
        (lowered.flatMap (·.classes)).map (fun layout => layout.methods.map (·.body.declared)) =
          [[[], ["__tmp0", "__tmp1", "__tmp2", "__tmp3", "__tmp4", "__tmp5"]]]) = true := by
    decide +kernel
  obtain ⟨facts, computed, succeeds⟩ := exists_of_any_toOption succeeds
  obtain ⟨lowered, done, found⟩ := exists_of_any_toOption succeeds
  obtain ⟨layout, classes, declared⟩ := List.map_eq_singleton_iff.mp (of_decide_eq_true found)
  have plain : Program.IsPlain [.grids] := by
    unfold Program.IsPlain
    decide +kernel
  obtain ⟨decl, placed⟩ : ∃ decl, Program.placed [.grids] = [⟨0, .grids, decl⟩] := ⟨_, rfl⟩
  have pair : (⟨0, .grids, decl⟩, layout) ∈
      (Program.placed [.grids]).zip (lowered.flatMap (·.classes)) := by
    rw [classes, placed]
    exact List.mem_cons_self
  obtain ⟨_, _, methods⟩ := temporaries_in_scope computed done plain pair
  refine ⟨facts, lowered, layout, computed, done, plain, classes, declared, ?_⟩
  intro routine member
  obtain ⟨_, _, count, _, binds⟩ := exists_of_mem_right methods member
  exact ⟨count, binds⟩

end ObjectLowering
