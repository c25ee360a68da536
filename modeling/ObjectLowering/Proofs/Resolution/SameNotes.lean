/-
**A unit is annotated from outlines.**

The walk that annotates a unit looks up fields, parents and methods, and keeps what their outlines
say. So the annotations of a unit are the same in two programs whose tables answer alike, and so
are the targets of its calls.

* `Source.Expr.infer_among`, `Source.Stmt.infer_among`: a walk among the classes of another table.
* **`Annotations.ofUnit_congr`**: the annotations of a unit.
* `Facade.Alike`: two facades answer alike.
* **`CallSites.ofUnit_congr`**: the targets of its calls.
-/

import ObjectLowering.Mangling.CallSites
import ObjectLowering.Proofs.Hierarchy.Outlines
import ObjectLowering.Proofs.Resolution.Annotated

namespace ObjectLowering

open Source (Expr Stmt SourceUnit ClassDecl MethodDecl)
open Inference

/-! ### Expressions and statements -/

/-- The same place among the classes of another table. -/
def Inference.Place.among (place : Place) (table : ClassTable) : Place := { place with table }

section Walks

variable {place : Place} {other : ClassTable}

theorem fieldAccess_among (alike : place.table.Alike other) (id : NodeId) (className name : Name) :
    fieldAccess (place.among other) id className name = fieldAccess place id className name := by
  have type (field : FieldRef) :
      (other.field? field).map (·.type) = (place.table.field? field).map (·.type) :=
    (read_of_outline FieldInfo.outline (fun _ => rfl) (alike.field? field)).symm
  unfold fieldAccess Place.among
  dsimp only
  rw [← alike.lookupField]
  simp only [type]

theorem identifier_among (alike : place.table.Alike other) (id : NodeId) (name : Name) :
    identifier (place.among other) id name = identifier place id name := by
  unfold identifier
  rw [show (place.among other).owner = place.owner from rfl,
    show (place.among other).table = other from rfl, ← alike.lookupField, ← alike.contains,
    fieldAccess_among alike]

theorem member_among (alike : place.table.Alike other) (id : NodeId) (meaning : Option Meaning)
    (type : Option Ty) (name : Name) :
    member (place.among other) id meaning type name = member place id meaning type name := by
  unfold member
  simp only [fieldAccess_among alike]

theorem ClassTable.Alike.target? {table : ClassTable} (alike : table.Alike other)
    (className : Option Name) (method : Name) (args : List (Option Ty)) :
    (table.target? className method args).map ClassTable.Alike.outlined =
      (other.target? className method args).map ClassTable.Alike.outlined := by
  cases className with
  | none => rfl
  | some className =>
    have through (table : ClassTable) : (table.target? (some className) method args).map outlined =
        (table.resolveOverload className method args).bind fun target =>
          ((table.method? target).map (·.outline)).map (target, ·) := by
      unfold ClassTable.target?
      rw [Option.bind_some, Option.map_bind]
      refine congrArg (Option.bind _) (funext fun target => ?_)
      rw [Function.comp_apply, Option.map_map, Option.map_map]
      rfl
    rw [through, through, alike.resolveOverload]
    simp only [alike.method?]

theorem resolve_among (alike : place.table.Alike other) (id : NodeId) (className : Option Name)
    (viaSuper : Bool) (method : Name) (args : List (Option Ty)) :
    resolve (place.among other) id className viaSuper method args =
      resolve place id className viaSuper method args := by
  have target := rel_of_outline (alike.target? className method args)
  rw [resolve_eq, resolve_eq]
  unfold Place.among
  dsimp only
  generalize place.table.target? className method args = first at target ⊢
  generalize other.target? className method args = second at target ⊢
  cases target with
  | none => rfl
  | @some one another same =>
    obtain ⟨ref, info⟩ := one
    obtain ⟨refToo, found⟩ := another
    obtain ⟨rfl, same⟩ := Prod.mk.inj same
    have flags : info.flags = found.flags := congrArg (·.flags) same
    have ret : info.ret = found.ret := congrArg (·.ret) same
    dsimp only [Option.elim]
    rw [flags, ret]

mutual

/-- **An expression is walked alike.** -/
theorem Source.Expr.infer_among (alike : place.table.Alike other) : ∀ expr : Expr,
    expr.infer (place.among other) = expr.infer place
  | .int .. | .float .. | .bool .. | .char .. | .str .. | .null _ | .this _ => rfl
  | .ident tag name => congrArg (typed tag.id) (identifier_among alike tag.id name)
  | .super tag => by
    simp only [Source.Expr.infer, Place.among, alike.supertype?]
  | .field tag receiver name => by
    simp only [Source.Expr.infer, receiver.infer_among alike, member_among alike]
  | .call tag none method args => by
    simp only [Source.Expr.infer, Source.Expr.inferList_among alike args, resolve_among alike]
    rfl
  | .call tag (some receiver) method args => by
    simp only [Source.Expr.infer, receiver.infer_among alike,
      Source.Expr.inferList_among alike args, resolve_among alike]
  | .chain _ _ args => by
    simp only [Source.Expr.infer, Source.Expr.inferList_among alike args]
  | .newObject _ _ args => by
    simp only [Source.Expr.infer, Source.Expr.inferList_among alike args]
  | .newArray _ _ dims _ => by
    simp only [Source.Expr.infer, Source.Expr.inferList_among alike dims]
  | .index _ array position => by
    simp only [Source.Expr.infer, array.infer_among alike, position.infer_among alike]
  | .assign _ target value => by
    simp only [Source.Expr.infer, target.infer_among alike, value.infer_among alike]
  | .binary _ _ left right => by
    simp only [Source.Expr.infer, left.infer_among alike, right.infer_among alike]
  | .unary _ _ operand => by simp only [Source.Expr.infer, operand.infer_among alike]
  | .cast _ _ operand => by simp only [Source.Expr.infer, operand.infer_among alike]
  | .instanceOf _ operand _ => by simp only [Source.Expr.infer, operand.infer_among alike]

theorem Source.Expr.inferList_among (alike : place.table.Alike other) : ∀ exprs : List Expr,
    Source.Expr.inferList (place.among other) exprs = Source.Expr.inferList place exprs
  | [] => rfl
  | expr :: rest => by
    simp only [Source.Expr.inferList, expr.infer_among alike,
      Source.Expr.inferList_among alike rest]

end

theorem Source.Expr.inferOption_among (alike : place.table.Alike other) (expr : Option Expr) :
    Source.Expr.inferOption (place.among other) expr = Source.Expr.inferOption place expr := by
  cases expr with
  | none => rfl
  | some expr => exact congrArg (discard ·) (expr.infer_among alike)

mutual

/-- **A statement is walked alike.** -/
theorem Source.Stmt.infer_among (alike : place.table.Alike other) : ∀ stmt : Stmt,
    stmt.infer (place.among other) = stmt.infer place
  | .eval _ expr => congrArg (discard ·) (expr.infer_among alike)
  | .localVar _ _ _ init => by
    simp only [Source.Stmt.infer, Source.Expr.inferOption_among alike init]
    rfl
  | .block _ body => congrArg inFrame (Source.Stmt.inferList_among alike body)
  | .branch _ cond yes none => by
    simp only [Source.Stmt.infer, cond.infer_among alike, yes.infer_among alike]
  | .branch _ cond yes (some no) => by
    simp only [Source.Stmt.infer, cond.infer_among alike, yes.infer_among alike,
      no.infer_among alike]
  | .whileLoop _ cond body => by
    simp only [Source.Stmt.infer, cond.infer_among alike, body.infer_among alike]
  | .forLoop _ init cond update body => by
    simp only [Source.Stmt.infer, Source.Stmt.inferList_among alike init,
      Source.Expr.inferOption_among alike cond, Source.Expr.inferList_among alike update,
      body.infer_among alike]
  | .ret _ value => Source.Expr.inferOption_among alike value

theorem Source.Stmt.inferList_among (alike : place.table.Alike other) : ∀ stmts : List Stmt,
    Source.Stmt.inferList (place.among other) stmts = Source.Stmt.inferList place stmts
  | [] => rfl
  | stmt :: rest => by
    simp only [Source.Stmt.inferList, stmt.infer_among alike,
      Source.Stmt.inferList_among alike rest]

end

end Walks

/-! ### Units -/

section Units

variable {table other : ClassTable} {index position : Nat} {unit : SourceUnit}

/-- A class is walked alike. -/
theorem classBody_congr (alike : table.Alike other) (decl : ClassDecl) :
    classBody table decl = classBody other decl := by
  have inits : initializer table decl.name = initializer other decl.name := by
    refine funext fun init => ?_
    have same : init.infer (Place.among ⟨table, decl.name, none⟩ other) =
        init.infer ⟨table, decl.name, none⟩ := init.infer_among alike
    unfold initializer
    rw [← same]
    rfl
  have bodies (method : MethodDecl) (index : Nat) :
      methodBody table decl.name method index = methodBody other decl.name method index := by
    let place : Place := ⟨table, decl.name, some ⟨decl.name, index⟩⟩
    have same : method.body.infer (place.among other) = method.body.infer place :=
      method.body.infer_among alike
    unfold methodBody
    dsimp only
    rw [← same]
    rfl
  unfold classBody
  rw [inits]
  simp only [bodies]

/-- **The annotations of a unit are the same**, if it owns the same classes. -/
theorem Annotations.ofUnit_congr (alike : table.Alike other)
    (owns : ∀ decl ∈ unit.classes, table.owns index decl.name = other.owns position decl.name) :
    Annotations.ofUnit table index unit = Annotations.ofUnit other position unit := by
  have walks : classBody table = classBody other := funext (classBody_congr alike)
  unfold Annotations.ofUnit
  rw [List.filter_congr owns, walks]

/-- Two facades give the same answers, those about members and classes in outline. -/
structure Facade.Alike (facade other : Facade) : Prop where
  exprType : facade.exprType = other.exprType
  meaning : facade.meaning = other.meaning
  dispatch : facade.dispatch = other.dispatch
  resolveOverload : facade.resolveOverload = other.resolveOverload
  supertype : facade.supertype = other.supertype
  method : ∀ ref, (facade.method ref).map (·.outline) = (other.method ref).map (·.outline)
  field : ∀ ref, (facade.field ref).map (·.outline) = (other.field ref).map (·.outline)
  class? : ∀ name, (facade.class? name).map (·.outline) = (other.class? name).map (·.outline)

/-- The facades of a unit are alike. -/
theorem Facade.alike_ofUnit (alike : table.Alike other)
    (owns : ∀ decl ∈ unit.classes, table.owns index decl.name = other.owns position decl.name) :
    (Facade.ofUnit table (.ofUnit table index unit)).Alike
      (Facade.ofUnit other (.ofUnit other position unit)) := by
  rw [Annotations.ofUnit_congr alike owns]
  exact {
    exprType := rfl
    meaning := rfl
    dispatch := rfl
    resolveOverload := funext fun className => funext fun name => funext fun args =>
      alike.resolveOverload className name args
    supertype := funext alike.supertype?
    method := alike.method?
    field := alike.field?
    class? := alike.outline }

variable {facade others : Facade} {record records : MangleRecord}

theorem resolveCall_congr (alike : facade.Alike others) (named : record.Alike records)
    (owner : Name) (receiver : Option Expr) (method : Name) (args : List Expr) :
    resolveCall facade record owner receiver method args =
      resolveCall others records owner receiver method args := by
  have looked : lookupClass facade owner receiver = lookupClass others owner receiver := by
    unfold lookupClass
    rw [alike.supertype, alike.meaning, alike.exprType]
  unfold resolveCall
  rw [looked, alike.resolveOverload, alike.exprType]
  refine congrArg (Option.bind _) (funext fun className => ?_)
  refine congrArg (Option.bind _) (funext fun target => ?_)
  have found := rel_of_outline (alike.method target)
  generalize facade.method target = first at found ⊢
  generalize others.method target = second at found ⊢
  cases found with
  | none => rfl
  | @some info found same =>
    have name : info.name = found.name := congrArg (·.name) same
    have flags : info.flags = found.flags := congrArg (·.flags) same
    show some _ = some _
    rw [named, name, flags]

/-- **The targets of a unit's calls are the same**, if it owns the same classes. -/
theorem CallSites.ofUnit_congr (alike : facade.Alike others) (named : record.Alike records)
    (owns : ∀ decl ∈ unit.classes, facade.owns index decl.name = others.owns position decl.name) :
    CallSites.ofUnit facade record index unit = CallSites.ofUnit others records position unit := by
  have adds (owner : Name) : CallSites.add facade record owner =
      CallSites.add others records owner := by
    refine funext fun sites => funext fun expr => ?_
    unfold CallSites.add
    simp only [resolveCall_congr alike named]
  have classes : CallSites.addClass facade record = CallSites.addClass others records := by
    refine funext fun sites => funext fun decl => ?_
    unfold CallSites.addClass
    rw [adds]
  unfold CallSites.ofUnit
  rw [List.filter_congr owns, classes]

end Units

end ObjectLowering
