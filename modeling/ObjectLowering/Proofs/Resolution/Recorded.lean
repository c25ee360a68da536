/-
**Every recorded call has a declared target.**

Whatever a walk passes, and whether or not numbers are met twice, it records a call only where the
methods of some class were searched and one was found. So the target is a method that this class or
one above it declares.

* `ClassTable.Resolves` is what a record of a call rests on.
* `ClassTable.declared_of_target?`: the target stands in a class at or above the one that was
  searched.
* `Keeps` says that a step leaves only such records, if there were none but such before.
* **`Annotations.founded_ofUnit`**: all calls recorded for a unit are such.
-/

import ObjectLowering.Proofs.Hierarchy.Lineage
import ObjectLowering.Proofs.Resolution.Annotated

namespace ObjectLowering

open Inference
open Source (Expr Stmt)

/-! ### What is found among overloads -/

namespace ClassTable

variable {table : ClassTable} {className name : Name} {args : List (Option Ty)}

/-- The search of a class finds the target of a call, and its entry says how it is reached. -/
def Resolves (table : ClassTable) (className : Name) (call : CallInfo) : Prop :=
  ∃ method args info viaSuper,
    table.target? (some className) method args = some (call.target, info) ∧
      call.dispatch = .classify info.flags viaSuper

theorem mem_visibleMethods_of_mem_candidates {method : MethodRef × MethodInfo}
    (member : method ∈ table.candidates className name args) :
    method ∈ table.visibleMethods className := by
  unfold candidates at member
  generalize table.visibleMethods className = visible at member ⊢
  suffices all : ∀ found : List (MethodRef × MethodInfo),
      method ∈ visible.foldl (table.addCandidate name args) found → method ∈ found ++ visible from
    all [] member
  clear member
  induction visible with
  | nil => exact fun found member => List.mem_append_left _ member
  | cons first rest step =>
    intro found member
    have inside := step _ member
    unfold addCandidate at inside
    split at inside
    · rwa [List.append_assoc, List.singleton_append] at inside
    · rcases List.mem_append.mp inside with before | behind
      · exact List.mem_append_left _ before
      · exact List.mem_append_right _ (List.mem_cons_of_mem _ behind)

theorem mem_visibleMethods_of_resolveOverload {target : MethodRef}
    (found : table.resolveOverload className name args = some target) :
    ∃ info, (target, info) ∈ table.visibleMethods className := by
  unfold resolveOverload at found
  dsimp only at found
  split at found
  · rename_i method only
    cases found
    have member : method ∈ table.candidates className name args :=
      List.mem_of_mem_filter (only ▸ List.mem_singleton_self method)
    exact ⟨method.2, mem_visibleMethods_of_mem_candidates member⟩
  · cases found

theorem method?_of_mem_declaredMethods {decl : ClassInfo}
    (here : table.class? decl.name = some decl) {target : MethodRef} {info : MethodInfo}
    (declared : (target, info) ∈ decl.declaredMethods) :
    target.className = decl.name ∧ table.method? target = some info := by
  obtain ⟨named, read⟩ := ClassInfo.mem_declaredMethods.mp declared
  refine ⟨named, ?_⟩
  unfold method?
  rw [named, here]
  exact read

/-- **The target of a call stands in a class at or above the one that was searched.** -/
theorem declared_of_target? {method : Name} {target : MethodRef} {info : MethodInfo}
    (found : table.target? (some className) method args = some (target, info)) :
    ∃ decl ∈ table.ancestors className, decl.name = target.className ∧
      (target, info) ∈ decl.declaredMethods ∧ table.method? target = some info := by
  unfold target? at found
  rw [Option.bind_some, Option.bind_eq_some_iff] at found
  obtain ⟨_, overload, found⟩ := found
  obtain ⟨_, entry, same⟩ := Option.map_eq_some_iff.mp found
  cases same
  obtain ⟨_, visible⟩ := mem_visibleMethods_of_resolveOverload overload
  obtain ⟨decl, above, declared⟩ := List.mem_flatMap.mp visible
  obtain ⟨named, read⟩ := method?_of_mem_declaredMethods (class?_of_mem_ancestors above) declared
  rw [entry, Option.some.injEq] at read
  subst read
  exact ⟨decl, above, named.symm, declared, entry⟩

end ClassTable

/-! ### What a walk records -/

/-- What is found after an insertion is the new value or was there before. -/
theorem NodeMap.eq_or_of_get?_insert {α : Type} {map : NodeMap α} {id other : NodeId}
    {value found : α} (there : (map.insert id value).get? other = some found) :
    found = value ∨ map.get? other = some found := by
  by_cases same : other = id
  · subst same
    unfold insert get? at there
    rw [Array.getElem?_setIfInBounds_self] at there
    split at there <;> cases there
    exact .inl rfl
  · exact .inr ((get?_insert_of_ne _ _ same).symm.trans there)

/-- Every recorded call was found by a search. -/
def Annotations.Founded (table : ClassTable) (notes : Annotations) : Prop :=
  ∀ id call, notes.call? id = some call → ∃ className, table.Resolves className call

/-- A step that records only calls found by a search. -/
def Inference.Keeps {α : Type} (table : ClassTable) (step : Step α) : Prop :=
  ∀ state : Inference, state.notes.Founded table → (step.run state).2.notes.Founded table

namespace Inference.Keeps

variable {α β : Type} {table : ClassTable} {step : Step α} {next : α → Step β}

theorem of_calls (same : ∀ state : Inference, (step.run state).2.notes.calls = state.notes.calls) :
    Keeps table step := by
  intro state founded id call recorded
  unfold Annotations.call? at recorded
  rw [same] at recorded
  exact founded id call recorded

theorem pure (value : α) : Keeps table (pure value) := of_calls fun _ => rfl

theorem bind (first : Keeps table step) (second : ∀ value, Keeps table (next value)) :
    Keeps table (step >>= next) := fun state founded => second _ _ (first state founded)

theorem discard (keeps : Keeps table step) : Keeps table (discard step) := keeps

theorem typed {id : NodeId} {body : Step (Option Ty)} (keeps : Keeps table body) :
    Keeps table (typed id body) := by
  intro state founded other call recorded
  rw [run_typed] at recorded
  exact keeps state founded other call ((Annotations.call?_keepType _ _ other).symm.trans recorded)

theorem forM {ι : Type} {items : List ι} {walk : ι → Step PUnit}
    (each : ∀ item, Keeps table (walk item)) : Keeps table (items.forM walk) := by
  induction items with
  | nil => exact .pure _
  | cons item _ step => exact (each item).bind fun _ => step

theorem inFrame (keeps : Keeps table step) : Keeps table (inFrame step) := fun state founded =>
  keeps { state with frames := [] :: state.frames } founded

theorem declare (place : Place) (name : Name) (type : Ty) :
    Keeps table (declare place name type) := of_calls fun state => by
  obtain ⟨notes, frames⟩ := state
  obtain ⟨_, _, method⟩ := place
  cases method <;> cases frames <;> rfl

theorem fieldAccess (place : Place) (id : NodeId) (className name : Name) :
    Keeps table (fieldAccess place id className name) := of_calls fun state => by
  unfold Inference.fieldAccess
  split <;> rfl

theorem member (place : Place) (id : NodeId) (meaning : Option Meaning) (type : Option Ty)
    (name : Name) : Keeps table (member place id meaning type name) := by
  unfold Inference.member
  split
  · exact fieldAccess place id _ name
  · exact .pure _
  · exact fieldAccess place id _ name
  · exact .pure _

theorem identifier (place : Place) (id : NodeId) (name : Name) :
    Keeps table (identifier place id name) := by
  unfold Inference.identifier
  refine (of_calls fun _ => rfl : Keeps table (localInScope name)).bind fun type => ?_
  cases type with
  | some type => exact of_calls fun _ => rfl
  | none =>
    show Keeps table
      (if (place.table.lookupField place.owner name).isSome then
        Inference.fieldAccess place id place.owner name
      else if place.table.contains name then setMeaning id (.class name) >>= fun _ => Pure.pure none
      else Pure.pure none)
    split
    · exact fieldAccess place id place.owner name
    · split
      · exact of_calls fun _ => rfl
      · exact .pure _

/-- A call is recorded as its search found it. -/
theorem resolve (place : Place) (id : NodeId) (className : Option Name) (viaSuper : Bool)
    (method : Name) (args : List (Option Ty)) :
    Keeps place.table (resolve place id className viaSuper method args) := by
  rw [resolve_eq]
  cases resolved : place.table.target? className method args with
  | none => exact .pure _
  | some found =>
    intro state founded other call recorded
    rcases NodeMap.eq_or_of_get?_insert recorded with rfl | before
    · cases className with
      | none => cases resolved
      | some className => exact ⟨className, method, args, found.2, viaSuper, resolved, rfl⟩
    · exact founded other call before

end Inference.Keeps

open Inference (Keeps)

mutual

/-- The walk of an expression records only calls found by a search. -/
theorem Source.Expr.keeps_infer (place : Place) : ∀ expr : Expr,
    Keeps place.table (expr.infer place)
  | .int .. | .float .. | .bool .. | .char .. | .str .. | .null _ | .this _ | .super _ =>
    Keeps.typed (.pure _)
  | .ident tag name => Keeps.typed (.identifier place tag.id name)
  | .field tag receiver name => Keeps.typed <|
    (receiver.keeps_infer place).bind fun type =>
      (Keeps.of_calls fun _ => rfl).bind fun meaning => .member place tag.id meaning type name
  | .call tag none method args => Keeps.typed <|
    (Source.Expr.keeps_inferList place args).bind fun types =>
      .resolve place tag.id (some place.owner) false method types
  | .call tag (some receiver) method args => Keeps.typed <|
    (receiver.keeps_infer place).bind fun _ => (Keeps.of_calls fun _ => rfl).bind fun _ =>
      (Source.Expr.keeps_inferList place args).bind fun types =>
        .resolve place tag.id _ receiver.isSuper method types
  | .chain _ _ args | .newObject _ _ args | .newArray _ _ args _ => Keeps.typed <|
    (Source.Expr.keeps_inferList place args).bind fun _ => .pure _
  | .index _ left right | .assign _ left right | .binary _ _ left right => Keeps.typed <|
    (left.keeps_infer place).bind fun _ => (right.keeps_infer place).bind fun _ => .pure _
  | .unary _ _ operand | .cast _ _ operand | .instanceOf _ operand _ => Keeps.typed <|
    (operand.keeps_infer place).bind fun _ => .pure _

theorem Source.Expr.keeps_inferList (place : Place) : ∀ exprs : List Expr,
    Keeps place.table (Expr.inferList place exprs)
  | [] => Keeps.pure []
  | expr :: rest => (expr.keeps_infer place).bind fun type =>
    (Source.Expr.keeps_inferList place rest).bind fun types => .pure (type :: types)

end

theorem Source.Expr.keeps_inferOption (place : Place) (expr : Option Expr) :
    Keeps place.table (Expr.inferOption place expr) := by
  cases expr with
  | none => exact .pure ()
  | some expr => exact (expr.keeps_infer place).discard

mutual

theorem Source.Stmt.keeps_infer (place : Place) : ∀ stmt : Stmt,
    Keeps place.table (stmt.infer place)
  | .eval _ expr => (expr.keeps_infer place).discard
  | .localVar _ type name init =>
    (Source.Expr.keeps_inferOption place init).bind fun _ => .declare place name type
  | .block _ body => (Source.Stmt.keeps_inferList place body).inFrame
  | .branch _ cond yes none | .whileLoop _ cond yes =>
    (cond.keeps_infer place).discard.bind fun _ => yes.keeps_infer place
  | .branch _ cond yes (some no) =>
    (cond.keeps_infer place).discard.bind fun _ =>
      (yes.keeps_infer place).bind fun _ => no.keeps_infer place
  | .forLoop _ init cond update body => Keeps.inFrame <|
    (Source.Stmt.keeps_inferList place init).bind fun _ =>
      (Source.Expr.keeps_inferOption place cond).bind fun _ =>
        (Source.Expr.keeps_inferList place update).discard.bind fun _ => body.keeps_infer place
  | .ret _ value => Source.Expr.keeps_inferOption place value

theorem Source.Stmt.keeps_inferList (place : Place) : ∀ stmts : List Stmt,
    Keeps place.table (Stmt.inferList place stmts)
  | [] => Keeps.pure ()
  | stmt :: rest => (stmt.keeps_infer place).bind fun _ => Source.Stmt.keeps_inferList place rest

end

namespace Inference

theorem keeps_initializer (table : ClassTable) (owner : Name) (init : Expr) :
    Keeps table (initializer table owner init) := fun _ founded =>
  init.keeps_infer ⟨table, owner, none⟩ _ founded

theorem keeps_methodBody (table : ClassTable) (owner : Name) (method : Source.MethodDecl)
    (index : Nat) : Keeps table (methodBody table owner method index) := by
  have params : Keeps table (method.params.forM fun param =>
      declare ⟨table, owner, some ⟨owner, index⟩⟩ param.name param.type) :=
    .forM fun param => .declare _ param.name param.type
  have all := params.bind fun _ =>
    method.body.keeps_infer ⟨table, owner, some ⟨owner, index⟩⟩
  exact fun state founded => all { state with frames := [[]] } founded

theorem keeps_classBody (table : ClassTable) (decl : Source.ClassDecl) :
    Keeps table (classBody table decl) :=
  (Keeps.forM (keeps_initializer table decl.name)).bind fun _ =>
    .forM fun method => keeps_methodBody table decl.name method.1 method.2

end Inference

/-- **All calls recorded for a unit were found by a search.** -/
theorem Annotations.founded_ofUnit (table : ClassTable) (index : Nat) (unit : Source.SourceUnit) :
    (ofUnit table index unit).Founded table := by
  refine (Keeps.forM (keeps_classBody table)) { notes := empty unit.exprCount } ?_
  intro id call recorded
  cases (NodeMap.get?_empty unit.exprCount id).symm.trans recorded

end ObjectLowering
