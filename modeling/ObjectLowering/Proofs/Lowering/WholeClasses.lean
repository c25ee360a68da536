/-
**Lowered classes are whole.**

A class is lowered from its own declaration, the chain of its fields and its vtable. What lowering
it can fail with is told by the expressions of these, as for a single tree; where it does not fail,
the layout is whole.

* `Lowering.Ends` says how a step comes out that counts no temporaries.
* `settles_lowerBody`, `settles_prologue`, `settles_lowerMethod`, …: what makes up a routine.
* `Lowering.ClassAdmits`: the chain, the vtable and the expressions that lowering a class needs.
* **`Lowering.ends_lowerClass`**: then lowering fails with the errors of these expressions only, and
  the layout is whole.
-/

import ObjectLowering.Lowering.Class
import ObjectLowering.Proofs.Lowering.Formed

namespace ObjectLowering

open Source (ClassDecl MethodDecl)

/-- The expressions of a statement are among those of the list in which it stands. -/
theorem Source.Stmt.mem_nodesOfList {stmts : List Source.Stmt} {stmt : Source.Stmt}
    {node : Source.Expr} (inside : stmt ∈ stmts) (member : node ∈ stmt.nodes) :
    node ∈ Source.Stmt.nodesOfList stmts := by
  induction stmts with
  | nil => cases inside
  | cons first rest step =>
    rw [nodesOfList, List.mem_append]
    rcases List.mem_cons.mp inside with rfl | behind
    · exact .inl member
    · exact .inr (step behind)

/-- The expressions of a body are among those of its class. -/
theorem Source.ClassDecl.mem_nodes_of_body {decl : ClassDecl} {method : MethodDecl}
    {node : Source.Expr} (declared : method ∈ decl.methods) (member : node ∈ method.body.nodes) :
    node ∈ decl.nodes :=
  List.mem_append_right _ (List.mem_flatMap.mpr ⟨method, declared, member⟩)

namespace Lowering

open Lowered (Expr Stmt Method ClassLayout)

/-- The expressions of the statements of a body are those of the body. -/
theorem nodesOfList_bodyStmts (body : Source.Stmt) :
    Source.Stmt.nodesOfList (bodyStmts (some body)) = body.nodes := by
  unfold bodyStmts
  split
  · rename_i missing
    cases missing
  · rename_i written
    cases written
    rfl
  · rename_i written
    cases written
    exact List.append_nil _

theorem mem_nodes_of_mem_bodyStmts {body : Source.Stmt} {stmt : Source.Stmt} {node : Source.Expr}
    (inside : stmt ∈ bodyStmts (some body)) (member : node ∈ stmt.nodes) : node ∈ body.nodes := by
  rw [← nodesOfList_bodyStmts]
  exact Source.Stmt.mem_nodesOfList inside member

/-! ### How steps end -/

/-- A step fails with one of these errors or for an over-long list, or its result has the
property. -/
def Ends {α : Type} (errors : LoweringError → Prop) (step : Except LoweringFailure α)
    (property : α → Prop) : Prop :=
  match step with
  | .ok value => property value
  | .error failure => FailsWith errors failure

namespace Ends

variable {α β ι : Type} {errors : LoweringError → Prop} {step : Except LoweringFailure α}
  {next : α → Except LoweringFailure β} {property : α → Prop} {result : β → Prop}

theorem pure {value : α} (known : property value) : Ends errors (pure value) property := known

theorem bind (first : Ends errors step property)
    (second : ∀ value, property value → Ends errors (next value) result) :
    Ends errors (step >>= next) result := by
  cases step with
  | error failure => exact first
  | ok value => exact second value first

/-- Items whose steps all end alike. -/
theorem mapM {items : List ι} {step : ι → Except LoweringFailure α}
    (each : ∀ item ∈ items, Ends errors (step item) property) :
    Ends errors (items.mapM step) fun values => ∀ value ∈ values, property value := by
  induction items with
  | nil => exact pure fun _ member => (nomatch member)
  | cons item rest induct =>
    rw [List.forall_mem_cons] at each
    rw [List.mapM_cons]
    exact each.1.bind fun first here => (induct each.2).bind fun others there =>
      pure (List.forall_mem_cons.mpr ⟨here, there⟩)

/-- A routine ends as its steps settle. -/
theorem inRoutine {step : LowerM α} (settles : Settles errors step property) :
    Ends errors (inRoutine step) property := by
  show Ends errors ((·.1) <$> step.run 0) property
  cases ran : step.run 0 with
  | error failure => exact settles.fails 0 failure ran
  | ok reached => exact settles.ensures 0 reached.1 reached.2 ran

end Ends

/-! ### Routines -/

variable {context : Context} {errors : LoweringError → Prop} {chained : Bool} {routine : Routine}

/-- All expressions of a tree admit these errors. -/
abbrev AdmitsAll (context : Context) (errors : LoweringError → Prop) (chained : Bool)
    (nodes : List Source.Expr) : Prop :=
  ∀ node ∈ nodes, node.Admits context errors chained

theorem settles_lowerBody (span : Span) {start : List Stmt} {body : Option Source.Stmt}
    (before : Stmt.AllFormed chained start)
    (admits : ∀ stmt ∈ bodyStmts body, AdmitsAll context errors chained stmt.nodes) :
    Settles errors (lowerBody context routine span start body) (Stmt.Formed chained) := by
  have each : ∀ step ∈ (bodyStmts body).map (·.lower context routine),
      Settles errors step (Stmt.Formed chained) :=
    List.forall_mem_map.mpr fun stmt inside => stmt.forms_lower routine (admits stmt inside)
  have final (stmts : List Stmt) :
      Stmt.AllFormed chained (finalReturn context routine span stmts) := by
    unfold finalReturn
    split
    · exact ⟨formed_implicitResult context span routine.mode, trivial⟩
    · exact trivial
  refine (Settles.runAll each).bind fun stmts formed => ?_
  have all := Stmt.allFormed_append before (Stmt.allFormed_of_forall formed)
  exact (Settles.checkLength _ _).bind fun _ _ => .pure (Stmt.allFormed_append all (final _))

theorem settles_assignField (span : Span) {field : Name × Source.Expr}
    (admits : AdmitsAll context errors chained field.2.nodes) :
    Settles errors (assignField context routine span field) (Stmt.Formed chained) :=
  (field.2.forms_lower routine admits).bind fun _ formed => .pure ⟨trivial, formed⟩

/-- Running the parent's routine hands the receiver on, and so does starting with it. -/
theorem settles_prologue (span : Span) {chain : List (Initializer Source.Expr)}
    (resolved : context.facts.chains.instance? routine.className = some chain)
    (admits : ∀ field ∈ ownValues routine.className chain,
      AdmitsAll context errors true field.2.nodes) :
    Settles errors (prologue context routine span) (Stmt.AllFormed true) := by
  have each : ∀ step ∈ (ownValues routine.className chain).map (assignField context routine span),
      Settles errors step (Stmt.Formed true) :=
    List.forall_mem_map.mpr fun field inside => settles_assignField span (admits field inside)
  unfold prologue
  dsimp only
  rw [resolved]
  refine (Settles.runAll each).bind fun assigns formed => .pure ?_
  exact ⟨⟨rfl, trivial, trivial⟩, Stmt.allFormed_of_forall formed⟩

theorem settles_lowerMethod (owner : Name) (index : Nat) {method : MethodDecl}
    (admits : AdmitsAll context errors true method.body.nodes) :
    Settles errors (lowerMethod context owner index method) (·.body.Formed true) := by
  have body (routine : Routine) :
      Settles errors (lowerBody context routine method.span [] (some method.body))
        (Stmt.Formed true) :=
    settles_lowerBody _ trivial fun stmt inside node member =>
      admits node (mem_nodes_of_mem_bodyStmts inside member)
  exact (body _).bind fun _ formed => .pure formed

/-- What lowering a class reads: its own expressions, a chain and a vtable for it, and the values of
its fields. -/
structure ClassAdmits (context : Context) (errors : LoweringError → Prop) (decl : ClassDecl) :
    Prop where
  nodes : AdmitsAll context errors true decl.nodes
  chain : ∃ chain, context.facts.chains.instance? decl.name = some chain ∧
    ∀ field ∈ ownValues decl.name chain, AdmitsAll context errors true field.2.nodes
  statics : ∀ init ∈ context.facts.chains.statics decl.name, ∀ value, init.value = some value →
    AdmitsAll context errors true value.nodes
  vtable : ∃ vtable, context.facts.vtables.get? decl.name = some vtable

variable {decl : ClassDecl}

theorem ClassAdmits.body (admits : ClassAdmits context errors decl) {method : MethodDecl}
    (declared : method ∈ decl.methods) : AdmitsAll context errors true method.body.nodes :=
  fun node member => admits.nodes node (ClassDecl.mem_nodes_of_body declared member)

theorem settles_lowerConstructor (admits : ClassAdmits context errors decl) (index : Nat)
    {method : MethodDecl} (declared : method ∈ decl.methods) :
    Settles errors (lowerConstructor context decl.name index method) (·.body.Formed true) := by
  obtain ⟨chain, resolved, values⟩ := admits.chain
  have body (routine : Routine) (stmts : List Stmt) (before : Stmt.AllFormed true stmts) :
      Settles errors (lowerBody context routine method.span stmts (some method.body))
        (Stmt.Formed true) :=
    settles_lowerBody _ before fun stmt inside node member =>
      admits.body declared node (mem_nodes_of_mem_bodyStmts inside member)
  unfold lowerConstructor
  dsimp only
  split
  · rw [pure_bind]
    exact (body _ [] trivial).bind fun _ formed => .pure formed
  · exact (settles_prologue _ resolved values).bind fun stmts before =>
      (body _ stmts before).bind fun _ formed => .pure formed

theorem settles_synthesizedInit (admits : ClassAdmits context errors decl) :
    Settles errors (synthesizedInit context decl) (·.body.Formed true) := by
  obtain ⟨chain, resolved, values⟩ := admits.chain
  have body (routine : Routine) (stmts : List Stmt) (before : Stmt.AllFormed true stmts) :
      Settles errors (lowerBody context routine decl.span stmts none) (Stmt.Formed true) :=
    settles_lowerBody _ before fun _ inside => (nomatch inside)
  exact (settles_prologue _ resolved values).bind fun stmts before =>
    (body _ stmts before).bind fun _ formed => .pure formed

theorem settles_lowerStatic (className : Name) (span : Span) {init : Initializer Source.Expr}
    (admits : ∀ value, init.value = some value → AdmitsAll context errors true value.nodes) :
    Settles errors (lowerStatic context className span init) (·.init.Formed true) := by
  unfold lowerStatic
  cases given : init.value with
  | none =>
    refine .pure ?_
    cases init.default <;> exact trivial
  | some value => exact (value.forms_lower _ (admits value given)).bind fun _ formed => .pure formed

/-- The storage of static fields has whole values. -/
theorem ends_statics (className : Name) (span : Span)
    (admits : ∀ init ∈ context.facts.chains.statics className, ∀ value, init.value = some value →
      AdmitsAll context errors true value.nodes) :
    Ends errors (inRoutine (runEach
      ((context.facts.chains.statics className).map (lowerStatic context className span))))
      fun storages => ∀ storage ∈ storages, storage.init.Formed true :=
  Ends.inRoutine <| Settles.runAll <| List.forall_mem_map.mpr fun init inside =>
    settles_lowerStatic className span (admits init inside)

/-! ### Classes -/

theorem ends_lowerMember (admits : ClassAdmits context errors decl) {method : MethodDecl × Nat}
    (declared : method.1 ∈ decl.methods) :
    Ends errors (lowerMember context decl.name method) (·.2.body.Formed true) := by
  have either : Settles errors (if method.1.isConstructorOf decl.name then
      lowerConstructor context decl.name method.2 method.1
    else lowerMethod context decl.name method.2 method.1) (·.body.Formed true) := by
    split
    · exact settles_lowerConstructor admits method.2 declared
    · exact settles_lowerMethod decl.name method.2 (admits.body declared)
  exact (Ends.inRoutine either).bind fun _ formed => Ends.pure formed

/-- The raw constructor sets literals. -/
theorem formed_ctorMembers (span : Span) (chain : List (Initializer Source.Expr)) :
    ∀ member ∈ ctorMembers span chain, ∀ value, member.value? = some value →
      value.Formed true := by
  unfold ctorMembers
  intro member inside value held
  rcases List.mem_append.mp inside with field | pointer
  · obtain ⟨init, _, rfl⟩ := List.mem_map.mp field
    cases held
    cases init.default <;> exact trivial
  · rw [List.mem_singleton.mp pointer] at held
    cases held

/-- **Lowering a class fails with the errors of its expressions only**, and the layout is whole. -/
theorem ends_lowerClass (admits : ClassAdmits context errors decl) :
    Ends errors (lowerClass context decl) ClassLayout.Formed := by
  obtain ⟨chain, resolved, _⟩ := admits.chain
  obtain ⟨vtable, built⟩ := admits.vtable
  have members : Ends errors (decl.methods.zipIdx.mapM (lowerMember context decl.name))
      fun members => ∀ member ∈ members, member.2.body.Formed true :=
    Ends.mapM fun method inside => ends_lowerMember admits (List.fst_mem_of_mem_zipIdx inside)
  have kept {members : List (Bool × Method Stmt)} {keep : Bool × Method Stmt → Bool}
      (formed : ∀ member ∈ members, member.2.body.Formed true) :
      ∀ routine ∈ (members.filter keep).map (·.2), routine.body.Formed true :=
    List.forall_mem_map.mpr fun pair inside => formed pair (List.mem_filter.mp inside).1
  unfold lowerClass
  dsimp only
  rw [resolved]
  refine (ends_statics decl.name decl.span admits.statics).bind fun storages stored => ?_
  rw [built]
  refine members.bind fun members formed => ?_
  have values := formed_ctorMembers decl.span chain
  have whole {inits : List (Method Stmt)} (constructs : ∀ routine ∈ inits, routine.body.Formed true)
      (routine : Method Stmt) (member : routine ∈ inits ++ (members.filter (!·.1)).map (·.2)) :
      routine.body.Formed true :=
    List.forall_mem_append.mpr ⟨constructs, kept formed⟩ routine member
  split
  · rw [map_eq_pure_bind, bind_assoc]
    refine (Ends.inRoutine (settles_synthesizedInit admits)).bind fun routine made => ?_
    have alone := whole (List.forall_mem_singleton.mpr made)
    exact Ends.pure ⟨values, stored, alone⟩
  · exact Ends.pure ⟨values, stored, whole (kept formed)⟩

/-- **A class is whole, or lowering it ended in an error** that its expressions admit, or for want
of a chain or a vtable. -/
theorem ends_lowerClass_of_errors (unchained : errors (.missingInitializers decl.name))
    (unbuilt : errors (.unmet decl.name .vtable decl.span))
    (nodes : AdmitsAll context errors true decl.nodes)
    (values : ∀ chain, context.facts.chains.instance? decl.name = some chain →
      ∀ field ∈ ownValues decl.name chain, AdmitsAll context errors true field.2.nodes)
    (statics : ∀ init ∈ context.facts.chains.statics decl.name, ∀ value, init.value = some value →
      AdmitsAll context errors true value.nodes) :
    Ends errors (lowerClass context decl) ClassLayout.Formed := by
  cases resolved : context.facts.chains.instance? decl.name with
  | none =>
    unfold lowerClass
    dsimp only
    rw [resolved]
    exact unchained
  | some chain =>
  cases built : context.facts.vtables.get? decl.name with
  | none =>
    unfold lowerClass
    dsimp only
    rw [resolved]
    refine (ends_statics decl.name decl.span statics).bind fun storages _ => ?_
    rw [built]
    exact unbuilt
  | some vtable =>
    exact ends_lowerClass ⟨nodes, ⟨chain, resolved, values chain resolved⟩, statics,
      ⟨vtable, built⟩⟩

/-- **A class is whole, or lowering it ended in an error.** -/
theorem ends_lowerClass_always (decl : ClassDecl) :
    Ends (fun _ => True) (lowerClass context decl) ClassLayout.Formed := by
  have admits (nodes : List Source.Expr) : AdmitsAll context (fun _ => True) true nodes :=
    fun _ _ => ⟨fun _ _ => trivial, fun _ => rfl⟩
  exact ends_lowerClass_of_errors trivial trivial (admits _)
    (fun _ _ field _ => admits field.2.nodes) fun _ _ value _ => admits value.nodes

end Lowering

end ObjectLowering
