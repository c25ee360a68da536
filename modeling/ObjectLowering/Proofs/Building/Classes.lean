/-
**Building a class mirrors lowering it.**

The parts of a class agree one by one, and each of them leaves loose references only, which the
class takes.

* `methodAt`, `storageAt`, `memberAt`: a routine, a static field, a default of the raw constructor.
* `mirrors_buildMethod`, `mirrors_buildConstructor`, `mirrors_synthesizedInit`: routines.
* **`agrees_buildClass`**: the layout that is built is whole and reads as the one that is lowered.
-/

import ObjectLowering.Building.Class
import ObjectLowering.Proofs.Building.Trees

namespace ObjectLowering.Building

open Lowered
open Lowered.Assertion (Entails known)
open Lowering (Context)
open Source (ClassDecl MethodDecl)

variable {context : Context} {routine : Routine} {span : Span}

/-! ### The parts of a class -/

/-- A routine whose body reads as that of the other one. -/
def methodAt (made : Method NodeId) (tree : Method Lowered.Stmt) : Assertion :=
  stmtAt made.body tree.body + known (made.map (fun _ => tree.body) = tree)

/-- A routine with a mark that both have. -/
def markedAt (made : Bool × Method NodeId) (tree : Bool × Method Lowered.Stmt) : Assertion :=
  methodAt made.2 tree.2 + known (made.1 = tree.1)

/-- A static field whose value reads as that of the other one. -/
def storageAt (made : StaticStorage NodeId) (tree : StaticStorage Lowered.Expr) : Assertion :=
  exprAt made.init tree.init + known ({ made with init := tree.init } = tree)

/-- A member of the raw constructor whose value reads as that of the other one. -/
def memberAt : MemberInit NodeId → MemberInit Lowered.Expr → Assertion
  | .vtablePtr, .vtablePtr => 0
  | .field name value, .field other tree => exprAt value tree + known (name = other)
  | _, _ => known False

/-! ### Routines -/

theorem mirrors_assignField (field : Name × Source.Expr) :
    Mirrors 0 (assignField context routine span field)
      (Lowering.assignField context routine span field) stmtAt := by
  refine field.2.mirrors_build.seq fun value tree => ?_
  refine .make _ (makes_selfExpr context span) (.of_eq (zero_add _).symm) fun object => ?_
  refine .make (exprAt value tree) makes_field (.of_eq (by abel)) fun target => ?_
  refine .make 0 makes_assign (.of_eq (add_zero _).symm) fun assign => ?_
  exact .last makes_eval (.of_eq (add_zero _)) fun _ => .refl _

theorem makes_parentInit (span : Span) (parent : Name) :
    Makes 0 (parentInit context span parent)
      (stmtAt · (.eval (.initCall span parent [Lowering.selfExpr context span]))) := by
  refine .make 0 (makes_selfExpr context span) (.of_eq (add_zero 0).symm) fun receiver => ?_
  rw [add_zero, ← exprsAt_singleton receiver]
  have few : [Lowering.selfExpr context span].length ≤ maxListLength := Nat.le_add_left 1 65534
  refine .make 0 (makes_addExprs few) (.of_eq (add_zero _).symm) fun args => ?_
  refine .make 0 makes_initCall (.refl _) fun init => ?_
  exact makes_eval.entails (.of_eq (add_zero _))

theorem mirrors_prologue :
    Mirrors 0 (prologue context routine span) (Lowering.prologue context routine span)
      stmtsAt := by
  unfold prologue Lowering.prologue
  refine .make 0 (makes_parentInit span _) (.of_eq (add_zero 0).symm) fun init => ?_
  cases context.facts.chains.instance? routine.className with
  | none => exact .fail
  | some chain =>
    have each : List.Forall₂ (fun step lower => Mirrors 0 step lower stmtAt)
        ((Lowering.ownValues routine.className chain).map (assignField context routine span))
        ((Lowering.ownValues routine.className chain).map
          (Lowering.assignField context routine span)) := by
      rw [List.forall₂_map_left_iff, List.forall₂_map_right_iff, List.forall₂_same]
      exact fun field _ => mirrors_assignField field
    refine (Mirrors.runEach each).seq fun assigns stmts => .pure (.of_eq ?_)
    rw [add_zero, add_comm]
    rfl

theorem mirrors_buildMethod (owner : Name) (index : Nat) (method : MethodDecl) :
    Mirrors 0 (buildMethod context owner index method)
      (Lowering.lowerMethod context owner index method) methodAt := by
  refine (mirrors_buildBody (some method.body)).step 0 (.of_eq (add_zero _).symm)
    fun body stmt => ?_
  exact .pure (.trans (.of_eq (add_zero _)) (.add_known rfl _))

theorem mirrors_buildConstructor (owner : Name) (index : Nat) (method : MethodDecl) :
    Mirrors 0 (buildConstructor context owner index method)
      (Lowering.lowerConstructor context owner index method) methodAt := by
  unfold buildConstructor Lowering.lowerConstructor
  dsimp only
  split
  · rw [pure_bind, pure_bind]
    refine (@mirrors_buildBody _ _ [] [] _ (some method.body)).step 0 (.of_eq (add_zero _).symm)
      fun body stmt => ?_
    exact .pure (.trans (.of_eq (add_zero _)) (.add_known rfl _))
  · refine mirrors_prologue.seq fun start stmts => ?_
    refine (mirrors_buildBody (some method.body)).step 0 (.refl _) fun body stmt => ?_
    exact .pure (.trans (.of_eq (add_zero _)) (.add_known rfl _))

theorem mirrors_synthesizedInit (decl : ClassDecl) :
    Mirrors 0 (synthesizedInit context decl) (Lowering.synthesizedInit context decl)
      methodAt := by
  refine mirrors_prologue.seq fun start stmts => ?_
  refine (mirrors_buildBody none).step 0 (.refl _) fun body stmt => ?_
  exact .pure (.trans (.of_eq (add_zero _)) (.add_known rfl _))

theorem mirrors_buildStatic (className : Name) (init : Initializer Source.Expr) :
    Mirrors 0 (buildStatic context className span init)
      (Lowering.lowerStatic context className span init) storageAt := by
  unfold buildStatic Lowering.lowerStatic
  cases init.value with
  | none =>
    refine .make 0 (makes_defaultExpr span init.default) (.of_eq (add_zero 0).symm) fun value => ?_
    exact .pure (.trans (.of_eq (add_zero _)) (.add_known rfl _))
  | some value =>
    refine value.mirrors_build.seq fun id tree => ?_
    exact .pure (.trans (.of_eq (add_zero _)) (.add_known rfl _))

/-! ### Classes -/

/-- A routine alone counts its temporaries from zero. -/
theorem agrees_inRoutine {α β : Type} {build : BuildM α} {lower : LowerM β}
    {after : α → β → Assertion} (mirrors : Mirrors 0 build lower after) :
    Agrees 0 (inRoutine build) (Lowering.inRoutine lower) after := by
  have run : Lowering.inRoutine lower = lower.run 0 >>= fun tree => .ok tree.1 := by
    show (fun tree : β × Nat => tree.1) <$> lower.run 0 = _
    cases lower.run 0 <;> rfl
  rw [run]
  show Agrees 0 (build.run 0 >>= fun made => pure made.1) _ _
  exact (mirrors 0).bind fun made tree => .pure (.of_known fun _ => .refl _)

theorem makes_ctorMember (init : Initializer Source.Expr) :
    Makes 0 (ctorMember span init)
      (memberAt · (.field init.name (Lowering.defaultExpr span init.default))) := by
  refine .make 0 (makes_defaultExpr span init.default) (.of_eq (add_zero 0).symm) fun value => ?_
  exact .pure (.trans (.of_eq (add_zero _)) (.add_known rfl _))

theorem makes_defaults (chain : List (Initializer Source.Expr)) :
    Makes 0 (chain.mapM (ctorMember span)) (each memberAt · (chain.map fun init =>
      .field init.name (Lowering.defaultExpr span init.default))) := by
  induction chain with
  | nil => exact .pure (.refl 0)
  | cons init rest step =>
    rw [List.mapM_cons]
    refine .make 0 (makes_ctorMember init) (.of_eq (add_zero 0).symm) fun member => ?_
    refine .make _ step (.of_eq (by abel)) fun others => .pure (.of_eq ?_)
    rw [add_comm]
    rfl

theorem agrees_buildMember (owner : Name) (method : MethodDecl × Nat) :
    Agrees 0 (buildMember context owner method) (Lowering.lowerMember context owner method)
      markedAt := by
  have mirrors : Mirrors 0
      (if method.1.isConstructorOf owner then buildConstructor context owner method.2 method.1
        else buildMethod context owner method.2 method.1)
      (if method.1.isConstructorOf owner then
        Lowering.lowerConstructor context owner method.2 method.1
        else Lowering.lowerMethod context owner method.2 method.1) methodAt := by
    split
    · exact mirrors_buildConstructor owner method.2 method.1
    · exact mirrors_buildMethod owner method.2 method.1
  exact (agrees_inRoutine mirrors).bind fun _ _ => .pure (.add_known rfl _)

/-- The routines under a mark, apart from the others. -/
theorem entails_marked {made : List (Bool × Method NodeId)}
    {trees : List (Bool × Method Lowered.Stmt)} :
    (each markedAt made trees).Entails
      (each methodAt ((made.filter (·.1)).map (·.2)) ((trees.filter (·.1)).map (·.2)) +
        each methodAt ((made.filter (!·.1)).map (·.2)) ((trees.filter (!·.1)).map (·.2))) := by
  induction made generalizing trees with
  | nil =>
    cases trees with
    | nil => exact .of_eq (zero_add 0).symm
    | cons _ _ => exact fun _ _ meets => meets.2.elim
  | cons first made step =>
    cases trees with
    | nil => exact fun _ _ meets => meets.2.elim
    | cons tree trees =>
      obtain ⟨mark, method⟩ := first
      obtain ⟨other, found⟩ := tree
      refine .trans (.of_eq (?_ : _ = each markedAt made trees + methodAt method found +
        known (mark = other))) (.of_known fun same => ?_)
      · show methodAt method found + known (mark = other) + each markedAt made trees = _
        abel
      · cases same
        refine (step.add _).trans (.of_eq ?_)
        cases mark with
        | false => exact (add_assoc _ _ _).trans (congrArg _ (add_comm _ _))
        | true => exact (add_comm _ _).trans (add_assoc _ _ _).symm

/-- What is asserted of each item, if that says what the item refers to and how it is read. -/
theorem each_parts {α β : Type} {holds : α → β → Assertion} {references : α → Multiset Reference}
    {read : FlatArena → Nat → α → β} {arena : FlatArena}
    (parts : ∀ item tree, (holds item tree).fact arena →
      (holds item tree).loose = references item ∧ arena.Reads read item tree)
    {items : List α} {trees : List β} (fact : (each holds items trees).fact arena) :
    (each holds items trees).loose = (items.map references).sum ∧
      arena.Reads (fun arena depth items => items.map (read arena depth)) items trees := by
  have known := (forall₂_of_each fact).imp parts
  exact ⟨loose_each (known.imp fun _ _ parts => parts.1), fun _ _ sees =>
    FlatArena.map_reads (known.imp fun _ _ parts => parts.2) sees⟩

theorem methodAt_parts {arena : FlatArena} (made : Method NodeId) (tree : Method Lowered.Stmt)
    (fact : (methodAt made tree).fact arena) :
    (methodAt made tree).loose = made.references ∧
      arena.Reads (fun arena depth method => method.map (arena.readStmt depth)) made tree := by
  obtain ⟨⟨reads, _⟩, same⟩ := fact
  refine ⟨add_zero _, fun later depth sees => ?_⟩
  dsimp only
  rw [← same, Method.map, reads later depth sees]
  rfl

theorem storageAt_parts {arena : FlatArena} (made : StaticStorage NodeId)
    (tree : StaticStorage Lowered.Expr) (fact : (storageAt made tree).fact arena) :
    (storageAt made tree).loose = made.references ∧ arena.Reads
      (fun arena depth storage => { storage with init := arena.readExpr depth storage.init })
      made tree := by
  obtain ⟨reads, same⟩ := fact
  refine ⟨add_zero _, fun later depth sees => ?_⟩
  dsimp only
  rw [← same, reads later depth sees]

theorem memberAt_parts {arena : FlatArena} (made : MemberInit NodeId)
    (tree : MemberInit Lowered.Expr) (fact : (memberAt made tree).fact arena) :
    (memberAt made tree).loose = made.references ∧
      arena.Reads (fun arena depth member => member.map (arena.readExpr depth)) made tree := by
  cases made with
  | vtablePtr =>
    cases tree with
    | vtablePtr => exact ⟨rfl, fun _ _ _ => rfl⟩
    | field _ _ => exact fact.elim
  | field name value =>
    cases tree with
    | vtablePtr => exact fact.elim
    | field other tree =>
      obtain ⟨reads, same⟩ := fact
      refine ⟨add_zero _, fun later depth sees => ?_⟩
      dsimp only
      rw [MemberInit.map, reads later depth sees, same]

/-- The class with its trees in place of their numbers. -/
def readClass (arena : FlatArena) (depth : Nat) (layout : ClassLayout NodeId NodeId) :
    ClassLayout Lowered.Expr Lowered.Stmt :=
  layout.map (arena.readExpr depth) (arena.readStmt depth)

/-- A class that is whole and reads as the other one. -/
def classAt (made : ClassLayout NodeId NodeId) (tree : ClassLayout Lowered.Expr Lowered.Stmt) :
    Assertion where
  loose := made.references
  fact arena := made.Ordered ∧ arena.Reads readClass made tree
  mono grown := fun ⟨ordered, reads⟩ => ⟨ordered, reads.mono grown⟩

theorem classAt_parts {arena : FlatArena} (made : ClassLayout NodeId NodeId)
    (tree : ClassLayout Lowered.Expr Lowered.Stmt) (fact : (classAt made tree).fact arena) :
    (classAt made tree).loose = made.references ∧ arena.Reads readClass made tree :=
  ⟨rfl, fact.2⟩

section Layout

variable {decl : ClassDecl} {chain : List (Initializer Source.Expr)} {vtable : Vtable}
  {statics : List (StaticStorage NodeId)} {storages : List (StaticStorage Lowered.Expr)}
  {defaults : List (MemberInit NodeId)} {members : List (MemberInit Lowered.Expr)}
  {inits methods : List (Method NodeId)} {bodies others : List (Method Lowered.Stmt)}

theorem ordered_layoutOf (aligned : vtable.slots.map (·.name) = vtable.bindings.map (·.slot)) :
    (Lowering.layoutOf context decl chain vtable statics (defaults ++ [.vtablePtr]) inits
      methods).Ordered where
  data := rfl
  ctor := by simp [Lowering.layoutOf, MemberInit.value?]
  bindings := aligned

/-- A class takes what its parts leave. -/
theorem entails_classAt (aligned : vtable.slots.map (·.name) = vtable.bindings.map (·.slot)) :
    (each memberAt defaults members + each storageAt statics storages + each methodAt inits bodies +
      each methodAt methods others).Entails
      (classAt (Lowering.layoutOf context decl chain vtable statics (defaults ++ [.vtablePtr]) inits
        methods) (Lowering.layoutOf context decl chain vtable storages (members ++ [.vtablePtr])
          bodies others)) := by
  intro arena rest ⟨accounts, ⟨⟨members, statics⟩, inits⟩, methods⟩
  obtain ⟨looseMembers, members⟩ := each_parts memberAt_parts members
  obtain ⟨looseStatics, statics⟩ := each_parts storageAt_parts statics
  obtain ⟨looseInits, inits⟩ := each_parts methodAt_parts inits
  obtain ⟨looseMethods, methods⟩ := each_parts methodAt_parts methods
  refine ⟨?_, ordered_layoutOf aligned, fun later depth sees => ?_⟩
  · show arena.Accounts (ClassLayout.references _ + rest)
    unfold ClassLayout.references Lowering.layoutOf
    dsimp only
    rw [List.map_append, List.sum_append, ← looseMembers, ← looseStatics, ← looseInits,
      ← looseMethods, show ([MemberInit.vtablePtr].map MemberInit.references).sum = 0 from
        add_zero 0, add_zero]
    exact accounts
  · have members := members later depth sees
    have statics := statics later depth sees
    have inits := inits later depth sees
    have methods := methods later depth sees
    unfold readClass ClassLayout.map Lowering.layoutOf
    dsimp only at members statics inits methods ⊢
    rw [List.map_append, members, statics, inits, methods]
    rfl

end Layout

/-- **A class is built as it is lowered**, if the bindings of its vtable follow the slots. -/
theorem agrees_buildClass (decl : ClassDecl)
    (aligned : ∀ vtable, context.facts.vtables.get? decl.name = some vtable →
      vtable.slots.map (·.name) = vtable.bindings.map (·.slot)) :
    Agrees 0 (buildClass context decl) (Lowering.lowerClass context decl) classAt := by
  unfold buildClass Lowering.lowerClass
  dsimp only
  cases context.facts.chains.instance? decl.name with
  | none => exact .fail
  | some chain =>
  dsimp only
  refine .make 0 (makes_defaults chain) (.of_eq (add_zero 0).symm) fun defaults => ?_
  have mirrors : List.Forall₂ (fun step lower => Mirrors 0 step lower storageAt)
      ((context.facts.chains.statics decl.name).map (buildStatic context decl.name decl.span))
      ((context.facts.chains.statics decl.name).map
        (Lowering.lowerStatic context decl.name decl.span)) := by
    rw [List.forall₂_map_left_iff, List.forall₂_map_right_iff, List.forall₂_same]
    exact fun init _ => mirrors_buildStatic decl.name init
  refine (agrees_inRoutine (Mirrors.runEach mirrors)).step _ (.of_eq (zero_add _).symm)
    fun statics storages => ?_
  cases found : context.facts.vtables.get? decl.name with
  | none => exact .fail
  | some vtable =>
  dsimp only
  refine (Agrees.mapM fun method _ => agrees_buildMember decl.name method).step _
    (.of_eq (zero_add _).symm) fun members trees => ?_
  refine .entails ?_ (entails_marked.add _)
  generalize (members.filter (·.1)).map (·.2) = inits, (trees.filter (·.1)).map (·.2) = bodies,
    (members.filter (!·.1)).map (·.2) = methods, (trees.filter (!·.1)).map (·.2) = others
  refine .of_fact (fun _ fact => length_eq_of_each fact.1.1) fun same => ?_
  cases inits with
  | nil =>
    cases bodies with
    | cons _ _ => cases same
    | nil =>
      rw [List.isEmpty_nil, List.isEmpty_nil, if_pos rfl, if_pos rfl, map_eq_pure_bind,
        map_eq_pure_bind, bind_assoc, bind_assoc]
      refine (agrees_inRoutine (mirrors_synthesizedInit decl)).step _ (.of_eq (zero_add _).symm)
        fun init tree => ?_
      rw [pure_bind, pure_bind]
      refine .pure (.trans (.of_eq ?_) (entails_classAt (aligned vtable found)))
      show methodAt init tree + (0 + each methodAt methods others + _) =
        _ + (methodAt init tree + 0) + _
      abel
  | cons first rest =>
    cases bodies with
    | nil => cases same
    | cons _ _ =>
      rw [List.isEmpty_cons, List.isEmpty_cons, if_neg Bool.false_ne_true,
        if_neg Bool.false_ne_true, pure_bind, pure_bind]
      refine .pure (.trans (.of_eq ?_) (entails_classAt (aligned vtable found)))
      abel

end ObjectLowering.Building
