/-
**Both stages find the same target for a call.**

A call is resolved twice: while its unit is annotated, with the locals in scope at hand, and once
more from the finished annotations, with rules of its own for the receiver and another way through
the trees. Where every expression has a number of its own, both come to the same target.

* `Annotations.lookupClass_eq`: both look a call up in the same class.
* `Annotations.resolveCall_eq`: the second stage takes what `Annotations.target?` finds, from which
  `Annotations.callInfo?` is made as well.
* `CallSites.get?_ofUnit`: a call of a unit has the target that was found for it.
* **`resolved_alike`**: the two stages agree on every call of a unit's own classes.
-/

import ObjectLowering.Program
import ObjectLowering.Proofs.Resolution.Annotated

namespace ObjectLowering

open Source (Expr IsNumbered SourceUnit ClassDecl)
open Inference (receiverClass)

/-! ### One call -/

namespace Annotations

variable {table : ClassTable} {notes : Annotations} {owner : Name}

theorem receiverClass_of_ne {meaning : Option Meaning} (type : Option Ty)
    (other : ∀ name, meaning ≠ some (.class name)) :
    receiverClass meaning type = type.bind Ty.memberClass? := by
  unfold receiverClass
  split
  · rename_i name
    exact absurd rfl (other name)
  · rfl

/-- **Both stages look a call up in the same class.** -/
theorem lookupClass_eq {receiver : Option Expr}
    (described : ∀ expr, receiver = some expr → notes.Describes table owner expr) :
    lookupClass (.ofUnit table notes) owner receiver = notes.receiverClass? owner receiver := by
  cases receiver with
  | none => rfl
  | some expr =>
    have account := described expr rfl
    cases expr with
    | this tag =>
      obtain ⟨type, meaning⟩ := account
      show some owner = receiverClass (notes.meaning? tag.id) (notes.type? tag.id)
      rw [meaning, type]
      rfl
    | super tag =>
      obtain ⟨type, meaning⟩ := account
      show table.supertype? owner = receiverClass (notes.meaning? tag.id) (notes.type? tag.id)
      rw [meaning, type]
      cases table.supertype? owner <;> rfl
    | ident tag name =>
      show _ = receiverClass (notes.meaning? tag.id) (notes.type? tag.id)
      unfold receiverClass
      rfl
    | field tag object name =>
      refine (receiverClass_of_ne _ fun name named => ?_).symm
      obtain ⟨field, isField⟩ := account _ named
      cases isField
    | newArray tag element dims extra =>
      refine (receiverClass_of_ne _ fun name named => ?_).symm
      cases account.2.symm.trans named
    | _ =>
      refine (receiverClass_of_ne _ fun name named => ?_).symm
      cases account.symm.trans named

/-- **Both stages find the same target.** -/
theorem resolveCall_eq {receiver : Option Expr}
    (described : ∀ expr, receiver = some expr → notes.Describes table owner expr)
    (record : MangleRecord) (method : Name) (args : List Expr) :
    resolveCall (.ofUnit table notes) record owner receiver method args =
      (notes.target? table owner receiver method args).map fun found =>
        ⟨found.1, (record.mangled? found.1).getD found.2.name,
          receiver.isNone && !found.2.flags.isStatic⟩ := by
  unfold resolveCall target? ClassTable.target?
  rw [lookupClass_eq described]
  cases notes.receiverClass? owner receiver with
  | none => rfl
  | some className =>
    show (table.resolveOverload className method (args.map (notes.type? ·.id))).bind _ =
      ((table.resolveOverload className method (args.map (notes.type? ·.id))).bind _).map _
    rw [Option.map_bind]
    refine congrArg _ (funext fun target => ?_)
    show (table.method? target).bind _ = ((table.method? target).map _).map _
    cases table.method? target <;> rfl

end Annotations

/-! ### The calls of a unit -/

namespace CallSites

variable (facade : Facade) (record : MangleRecord)

/-- An expression with the class in which it stands. -/
abbrev Located := Name × Expr

/-- Adds the target of an expression in its class. -/
def addLocated (sites : CallSites) (located : Located) : CallSites :=
  add facade record located.1 sites located.2

/-- The expressions of classes, each with its class. -/
def located (decls : List ClassDecl) : List Located :=
  decls.flatMap fun decl => decl.nodes.map (decl.name, ·)

theorem ofUnit_eq (index : Nat) (unit : SourceUnit) :
    ofUnit facade record index unit =
      (located (unit.classes.filter (facade.owns index ·.name))).foldl (addLocated facade record)
        (NodeMap.empty unit.exprCount) := by
  unfold ofUnit located
  rw [List.foldl_flatMap]
  refine congrArg (fun step => List.foldl step _ _) (funext fun sites => funext fun decl => ?_)
  rw [List.foldl_map]
  rfl

theorem located_snd (decls : List ClassDecl) :
    (located decls).map (·.2) = decls.flatMap (·.nodes) := by
  unfold located
  rw [List.map_flatMap]
  refine congrArg (fun step => List.flatMap step decls) (funext fun decl => ?_)
  rw [List.map_map]
  exact List.map_id _

theorem get?_addLocated_of_ne (sites : CallSites) {located : Located} {id : NodeId}
    (other : id ≠ located.2.id) :
    (addLocated facade record sites located).get? id = sites.get? id := by
  unfold addLocated add
  split
  · rename_i expr tag receiver method args here
    rw [here] at other
    split
    · exact NodeMap.get?_insert_of_ne _ _ other
    · rfl
  · rfl

theorem bound_addLocated (sites : CallSites) (located : Located) :
    (addLocated facade record sites located).bound = sites.bound := by
  unfold addLocated add
  split
  · split
    · exact NodeMap.bound_insert _ _ _
    · rfl
  · rfl

theorem get?_addLocated_call (sites : CallSites) {owner method : Name} {tag : Source.Tag}
    {receiver : Option Expr} {args : List Expr} (inside : tag.id < sites.bound) :
    (addLocated facade record sites (owner, .call tag receiver method args)).get? tag.id =
      (resolveCall facade record owner receiver method args).or (sites.get? tag.id) := by
  unfold addLocated add
  dsimp only
  cases resolveCall facade record owner receiver method args with
  | none => rfl
  | some site => exact (NodeMap.get?_insert _ _ _ inside).trans (if_pos rfl)

theorem get?_foldl_of_not_mem {places : List Located} (sites : CallSites) {id : NodeId}
    (absent : id ∉ places.map (·.2.id)) :
    (places.foldl (addLocated facade record) sites).get? id = sites.get? id := by
  induction places generalizing sites with
  | nil => rfl
  | cons place rest step =>
    rw [List.map_cons, List.mem_cons, not_or] at absent
    rw [List.foldl_cons, step _ absent.2, get?_addLocated_of_ne _ _ _ absent.1]

/-- **Where no number occurs twice, a call keeps the target that was found for it.** -/
theorem get?_foldl_of_mem {places : List Located} {sites : CallSites} {owner method : Name}
    {tag : Source.Tag} {receiver : Option Expr} {args : List Expr}
    (numbered : IsNumbered sites.bound (places.map (·.2)))
    (reached : (owner, .call tag receiver method args) ∈ places)
    (blank : sites.get? tag.id = none) :
    (places.foldl (addLocated facade record) sites).get? tag.id =
      resolveCall facade record owner receiver method args := by
  induction places generalizing sites with
  | nil => cases reached
  | cons place rest step =>
    rw [List.foldl_cons]
    have onward : IsNumbered (addLocated facade record sites place).bound (rest.map (·.2)) := by
      rw [bound_addLocated]
      exact numbered.sublist (List.sublist_cons_self _ _)
    have apart : place.2.id ∉ rest.map (·.2.id) := by
      have below := numbered.root_apart
      rwa [List.map_map] at below
    rcases List.mem_cons.mp reached with rfl | reached
    · have inside : tag.id < sites.bound := numbered.inside _ List.mem_cons_self
      refine (get?_foldl_of_not_mem _ _ _ apart).trans ?_
      refine (get?_addLocated_call facade record sites inside).trans ?_
      rw [blank, Option.or_none]
    · have other : tag.id ≠ place.2.id := fun same => apart <| by
        rw [← same]
        exact List.mem_map_of_mem reached
      exact step onward reached ((get?_addLocated_of_ne _ _ _ other).trans blank)

/-- A call of a unit has the target that was found for it. -/
theorem get?_ofUnit {index : Nat} {unit : SourceUnit} (forest : unit.IsForest) {decl : ClassDecl}
    (declared : decl ∈ unit.classes) (owned : facade.owns index decl.name = true)
    {method : Name} {tag : Source.Tag} {receiver : Option Expr} {args : List Expr}
    (reached : .call tag receiver method args ∈ decl.nodes) :
    (ofUnit facade record index unit).get? tag.id =
      resolveCall facade record decl.name receiver method args := by
  rw [ofUnit_eq]
  refine get?_foldl_of_mem facade record ?_ ?_ (NodeMap.get?_empty _ _)
  · rw [located_snd, NodeMap.bound_empty]
    exact forest.filter _
  · exact List.mem_flatMap.mpr ⟨decl, List.mem_filter.mpr ⟨declared, owned⟩,
      List.mem_map_of_mem reached⟩

end CallSites

/-! ### The units of a program -/

theorem DispatchKind.classify_eq_static {flags : MethodFlags} {viaSuper : Bool} :
    classify flags viaSuper = .static ↔ flags.isStatic = true := by
  unfold classify
  split
  · rename_i isStatic
    exact ⟨fun _ => isStatic, fun _ => rfl⟩
  · rename_i isInstance
    refine ⟨fun static => ?_, fun isStatic => absurd isStatic isInstance⟩
    split at static <;> cases static

namespace Program

variable {units : List SourceUnit} {index : Nat} {unit : SourceUnit}

theorem notes_ofUnits (here : units[index]? = some unit) :
    (ofUnits units).notes[index]? = some (.ofUnit (.ofUnits units) index unit) := by
  unfold ofUnits
  rw [List.getElem?_map, List.getElem?_zipIdx, here, Nat.zero_add]
  rfl

theorem parts_ofUnits (here : units[index]? = some unit) :
    ((ofUnits units).parts .unchanged)[index]? =
      some (unit, .ofUnit (.ofUnits units) (.ofUnit (.ofUnits units) index unit)) := by
  refine List.getElem?_zip_eq_some.mpr ⟨here, ?_⟩
  unfold facades
  rw [List.getElem?_map, notes_ofUnits here]
  rfl

theorem sites_ofUnits (options : LoweringOptions) (here : units[index]? = some unit) :
    ((ofUnits units).mangle options .unchanged).units[index]? =
      some (.ofUnit (.ofUnit (.ofUnits units) (.ofUnit (.ofUnits units) index unit))
        ((ofUnits units).mangle options .unchanged).record index unit) := by
  unfold mangle MangleTable.ofProgram MangleTable.ofRecord
  dsimp only
  rw [List.getElem?_map, List.getElem?_zipIdx, parts_ofUnits here, Nat.zero_add]
  rfl

end Program

/-- **The two stages agree on every call of a unit's own classes.** -/
theorem resolved_alike {units : List SourceUnit} (options : LoweringOptions) {index : Nat}
    {unit : SourceUnit} (here : units[index]? = some unit) (forest : unit.IsForest)
    {decl : ClassDecl} (declared : decl ∈ unit.classes)
    (owned : (ClassTable.ofUnits units).owns index decl.name = true)
    {tag : Source.Tag} {receiver : Option Expr} {method : Name} {args : List Expr}
    (reached : .call tag receiver method args ∈ decl.nodes) :
    ∃ notes sites, (Program.ofUnits units).notes[index]? = some notes ∧
      ((Program.ofUnits units).mangle options .unchanged).units[index]? = some sites ∧
      ((sites.get? tag.id).isSome ↔ (notes.call? tag.id).isSome) ∧
      ∀ site call, sites.get? tag.id = some site → notes.call? tag.id = some call →
        site.target = call.target ∧
          (site.needsSelf = true ↔ receiver = none ∧ call.dispatch ≠ .static) := by
  refine ⟨_, _, Program.notes_ofUnits here, Program.sites_ofUnits options here, ?_⟩
  obtain ⟨_, described, call⟩ :=
    Annotations.accounts_ofUnit (.ofUnits units) forest declared owned _ reached
  rw [CallSites.get?_ofUnit (.ofUnit (.ofUnits units) _) _ forest declared owned reached,
    Annotations.resolveCall_eq described, call]
  unfold Annotations.callInfo?
  cases Annotations.target? _ _ decl.name receiver method args with
  | none => exact ⟨Iff.rfl, fun _ _ absent => nomatch absent⟩
  | some found =>
    refine ⟨Iff.rfl, ?_⟩
    rintro _ _ ⟨⟩ ⟨⟩
    refine ⟨rfl, ?_⟩
    rw [Ne, DispatchKind.classify_eq_static, Bool.and_eq_true, Option.isNone_iff_eq_none,
      Bool.not_eq_true', Bool.not_eq_true]

/-- A class that calls a virtual method of its own, and a class that overrides the method. -/
def Source.SourceUnit.shapes : SourceUnit where
  path := "Shapes"
  package := []
  imports := []
  classes := [
    { name := "Shape", parent := none, fields := [], span := ⟨0, 1⟩
      methods := [
        { name := "area", params := [], ret := .int, modifiers := {}, span := ⟨4, 5⟩
          body := .block ⟨3, 4⟩ [.ret ⟨2, 3⟩ (some (.int ⟨0, 1, 2⟩ 0))] },
        { name := "report", params := [], ret := .int, modifiers := {}, span := ⟨8, 9⟩
          body := .block ⟨7, 8⟩ [.ret ⟨6, 7⟩ (some (.call ⟨1, 5, 6⟩ none "area" []))] }] },
    { name := "Square", parent := some "Shape", fields := [], span := ⟨9, 10⟩
      methods := [
        { name := "area", params := [], ret := .int, modifiers := {}, span := ⟨13, 14⟩
          body := .block ⟨12, 13⟩ [.ret ⟨11, 12⟩ (some (.int ⟨2, 10, 11⟩ 4))] }] }]
  nodes := #[.int ⟨0, 1, 2⟩ 0, .call ⟨1, 5, 6⟩ none "area" [], .int ⟨2, 10, 11⟩ 4]
  stmtCount := 6

theorem Source.SourceUnit.isForest_shapes : shapes.IsForest := ⟨by decide, by decide⟩

/-- The call of the overridden method is one on which the stages agree. -/
theorem resolved_alike_shapes :
    ∃ notes sites, (Program.ofUnits [.shapes]).notes[0]? = some notes ∧
      ((Program.ofUnits [.shapes]).mangle {} .unchanged).units[0]? = some sites ∧
      ((sites.get? 1).isSome ↔ (notes.call? 1).isSome) ∧
      ∀ site call, sites.get? 1 = some site → notes.call? 1 = some call →
        site.target = call.target ∧
          (site.needsSelf = true ↔ (none : Option Expr) = none ∧ call.dispatch ≠ .static) :=
  resolved_alike {} rfl Source.SourceUnit.isForest_shapes List.mem_cons_self (by decide +kernel)
    (List.mem_cons_of_mem _ List.mem_cons_self)

end ObjectLowering
