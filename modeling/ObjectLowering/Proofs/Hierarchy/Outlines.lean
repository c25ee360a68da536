/-
**What a class shows to other classes.**

Looking up members, choosing among overloads and building vtables ask a class for its parent, its
fields and the signatures of its methods. Nothing of it asks for the value of a field, for a span
or for the unit that declares the class. So two tables that hold the same classes in outline answer
alike, in whatever order they hold them.

* `ClassInfo.outline` is a class without what is not asked for.
* `ClassTable.Alike`: two tables find the same outline under every name.
* `ClassTable.Alike.ancestors`, `ClassTable.Alike.lookupField`,
  **`ClassTable.Alike.resolveOverload`**: such tables find the same members.
* `ClassTable.Alike.lineage`, **`ClassTable.Alike.along`**: the same lineages and vtables.
* `ClassTable.Alike.markOverrides`: they are marked alike.
-/

import ObjectLowering.Hierarchy.Vtable
import ObjectLowering.Proofs.Hierarchy.Table

namespace ObjectLowering

/-- A field without its value and its place. -/
def FieldInfo.outline (field : FieldInfo) : FieldInfo :=
  { field with init := none, span := .generated }

/-- A method without its place. -/
def MethodInfo.outline (method : MethodInfo) : MethodInfo := { method with span := .generated }

/-- A class without the unit that declares it, the values of its fields and all places. -/
def ClassInfo.outline (info : ClassInfo) : ClassInfo :=
  { info with
    unit := none
    fields := info.fields.map (·.outline)
    methods := info.methods.map (·.outline) }

namespace ClassInfo

/-- The methods of an outline are those of the class, under the same references. -/
theorem declaredMethods_outline (info : ClassInfo) :
    info.outline.declaredMethods =
      info.declaredMethods.map fun method => (method.1, method.2.outline) := by
  unfold declaredMethods outline
  rw [List.zipIdx_map, List.map_map, List.map_map]
  rfl

theorem findIdx?_outline (info : ClassInfo) (field : Name) :
    info.outline.fields.findIdx? (·.name == field) = info.fields.findIdx? (·.name == field) := by
  unfold outline
  rw [List.findIdx?_map]
  rfl

end ClassInfo

/-! ### Optional answers -/

section Answers

variable {α β : Type} {outline : α → α} {first second : Option α}

/-- Two answers with one outline are both there or both missing. -/
theorem rel_of_outline (same : first.map outline = second.map outline) :
    Option.Rel (fun one another => outline one = outline another) first second := by
  cases first with
  | none =>
    rw [Option.map_none, eq_comm, Option.map_eq_none_iff] at same
    rw [same]
    exact .none
  | some one =>
    rw [Option.map_some, eq_comm, Option.map_eq_some_iff] at same
    obtain ⟨another, rfl, same⟩ := same
    exact .some same.symm

/-- What can be read off an outline is the same. -/
theorem read_of_outline (outline : α → α) {read : α → β}
    (through : ∀ answer, read (outline answer) = read answer)
    (same : first.map outline = second.map outline) : first.map read = second.map read := by
  have whole : read ∘ outline = read := funext through
  have read := congrArg (Option.map read) same
  rwa [Option.map_map, Option.map_map, whole] at read

end Answers

namespace ClassTable

/-- Assignability asks a table for nothing but the classes above a class. -/
theorem isAssignable_congr {table other : ClassTable}
    (same : ∀ sub super, table.isSubclass sub super = other.isSubclass sub super)
    (source target : Ty) : table.isAssignable source target = other.isAssignable source target := by
  induction source generalizing target with
  | array element step => cases target <;> simp only [isAssignable, step]
  | «class» sub => cases target <;> simp only [isAssignable, same]
  | _ => cases target <;> rfl

/-- Two tables of the same size find the same classes, in outline. -/
structure Alike (table other : ClassTable) : Prop where
  size : table.size = other.size
  outline : ∀ name, (table.class? name).map (·.outline) = (other.class? name).map (·.outline)

namespace Alike

variable {table other : ClassTable}

theorem refl (table : ClassTable) : table.Alike table := ⟨rfl, fun _ => rfl⟩

theorem contains (alike : table.Alike other) (name : Name) :
    table.contains name = other.contains name := by
  have same := congrArg Option.isSome (alike.outline name)
  rwa [Option.isSome_map, Option.isSome_map] at same

theorem supertype? (alike : table.Alike other) (name : Name) :
    table.supertype? name = other.supertype? name := by
  have parents : (table.class? name).map (·.parent) = (other.class? name).map (·.parent) :=
    read_of_outline ClassInfo.outline (fun _ => rfl) (alike.outline name)
  have named (table : ClassTable) : table.supertype? name =
      ((table.class? name).map (·.parent)).bind fun parent =>
        if parent = Reserved.empty then none else some parent := by
    rw [Option.bind_map]
    rfl
  rw [named, named, parents]

/-! ### Ancestors and fields -/

theorem climb (alike : table.Alike other) (steps : Nat) (name : Name) :
    (table.climb steps name).map (·.outline) = (other.climb steps name).map (·.outline) := by
  induction steps generalizing name with
  | zero => rfl
  | succ steps step =>
    unfold ClassTable.climb
    have found := rel_of_outline (alike.outline name)
    generalize table.class? name = first at found ⊢
    generalize other.class? name = second at found ⊢
    cases found with
    | none => rfl
    | @some info found same =>
      have parent : info.parent = found.parent := congrArg (·.parent) same
      dsimp only
      rw [List.map_cons, List.map_cons, same, parent]
      split
      · rfl
      · rw [step]

/-- **A class has the same ancestors.** -/
theorem ancestors (alike : table.Alike other) (name : Name) :
    (table.ancestors name).map (·.outline) = (other.ancestors name).map (·.outline) := by
  unfold ClassTable.ancestors
  split
  · rfl
  · rw [alike.size]
    exact alike.climb _ name

theorem isSubclass (alike : table.Alike other) (sub super : Name) :
    table.isSubclass sub super = other.isSubclass sub super := by
  have same := congrArg (List.any · (·.name == super)) (alike.ancestors sub)
  rwa [List.any_map, List.any_map] at same

theorem lookupField (alike : table.Alike other) (name field : Name) :
    table.lookupField name field = other.lookupField name field := by
  have through (table : ClassTable) : table.lookupField name field =
      ((table.ancestors name).map (·.outline)).findSome? fun info =>
        (info.fields.findIdx? (·.name == field)).map (⟨info.name, ·⟩) := by
    rw [List.findSome?_map]
    unfold ClassTable.lookupField
    refine congrArg (List.findSome? · _) (funext fun info => ?_)
    rw [Function.comp_apply, info.findIdx?_outline]
    rfl
  rw [through, through, alike.ancestors]

theorem field? (alike : table.Alike other) (ref : FieldRef) :
    (table.field? ref).map (·.outline) = (other.field? ref).map (·.outline) := by
  have through (table : ClassTable) : (table.field? ref).map (·.outline) =
      ((table.class? ref.className).map (·.outline)).bind (·.fields[ref.index]?) := by
    unfold ClassTable.field?
    rw [Option.map_bind, Option.bind_map]
    refine congrArg (Option.bind _) (funext fun info => ?_)
    exact List.getElem?_map.symm
  rw [through, through, alike.outline]

/-! ### Methods -/

theorem method? (alike : table.Alike other) (ref : MethodRef) :
    (table.method? ref).map (·.outline) = (other.method? ref).map (·.outline) := by
  have through (table : ClassTable) : (table.method? ref).map (·.outline) =
      ((table.class? ref.className).map (·.outline)).bind (·.methods[ref.index]?) := by
    unfold ClassTable.method?
    rw [Option.map_bind, Option.bind_map]
    refine congrArg (Option.bind _) (funext fun info => ?_)
    exact List.getElem?_map.symm
  rw [through, through, alike.outline]

theorem isAssignable (alike : table.Alike other) (source target : Ty) :
    table.isAssignable source target = other.isAssignable source target :=
  isAssignable_congr alike.isSubclass source target

/-- A method with its reference, in outline. -/
def outlined (method : MethodRef × MethodInfo) : MethodRef × MethodInfo :=
  (method.1, method.2.outline)

theorem visibleMethods (alike : table.Alike other) (name : Name) :
    (table.visibleMethods name).map outlined = (other.visibleMethods name).map outlined := by
  have through (table : ClassTable) : (table.visibleMethods name).map outlined =
      ((table.ancestors name).map (·.outline)).flatMap (·.declaredMethods) := by
    unfold ClassTable.visibleMethods
    rw [List.map_flatMap, List.flatMap_map]
    refine congrArg (List.flatMap · _) (funext fun info => ?_)
    exact info.declaredMethods_outline.symm
  rw [through, through, alike.ancestors]

theorem addCandidate (alike : table.Alike other) (name : Name) (args : List (Option Ty))
    (found : List (MethodRef × MethodInfo)) (method : MethodRef × MethodInfo) :
    (table.addCandidate name args found method).map outlined =
      other.addCandidate name args (found.map outlined) (outlined method) := by
  have hidden : (found.map outlined).any (·.2.params == method.2.params) =
      found.any (·.2.params == method.2.params) := List.any_map
  have applies : table.isApplicable method.2 args = other.isApplicable method.2 args := by
    unfold isApplicable
    simp only [alike.isAssignable]
  unfold ClassTable.addCandidate
  rw [apply_ite (List.map outlined), List.map_append, ← hidden, applies]
  rfl

theorem candidates (alike : table.Alike other) (className name : Name) (args : List (Option Ty)) :
    (table.candidates className name args).map outlined =
      (other.candidates className name args).map outlined := by
  -- Candidates are chosen among outlines as among the methods themselves.
  have through {first second : ClassTable} (same : first.Alike second)
      (methods found : List (MethodRef × MethodInfo)) :
      (methods.foldl (first.addCandidate name args) found).map outlined =
        (methods.map outlined).foldl (second.addCandidate name args) (found.map outlined) := by
    induction methods generalizing found with
    | nil => rfl
    | cons method rest step =>
      rw [List.foldl_cons, step, same.addCandidate, List.map_cons, List.foldl_cons]
  unfold ClassTable.candidates
  rw [through alike, through (refl other), alike.visibleMethods]

/-- The method of a list that has one. -/
def only : List (MethodRef × MethodInfo) → Option MethodRef
  | [method] => some method.1
  | _ => none

theorem only_map_outlined (found : List (MethodRef × MethodInfo)) :
    only (found.map outlined) = only found := by
  rcases found with _ | ⟨_, _ | ⟨_, _⟩⟩ <;> rfl

/-- **A call means the same method.** -/
theorem resolveOverload (alike : table.Alike other) (className name : Name)
    (args : List (Option Ty)) :
    table.resolveOverload className name args = other.resolveOverload className name args := by
  have specific (first second : MethodInfo) :
      table.isMoreSpecific first second = other.isMoreSpecific first second := by
    unfold isMoreSpecific
    simp only [alike.isAssignable]
  let best (found : List (MethodRef × MethodInfo)) : List (MethodRef × MethodInfo) :=
    found.filter fun method => found.all fun rival => other.isMoreSpecific method.2 rival.2
  -- The choice is made among outlines.
  have through (found : List (MethodRef × MethodInfo)) :
      (best found).map outlined = best (found.map outlined) := by
    show (found.filter _).map outlined = (found.map outlined).filter _
    rw [List.filter_map]
    refine congrArg (List.map outlined) (List.filter_congr fun method _ => ?_)
    show _ = (found.map outlined).all _
    rw [List.all_map]
    rfl
  calc table.resolveOverload className name args
      = only (best (table.candidates className name args)) := by
        unfold ClassTable.resolveOverload
        simp only [specific]
        rfl
    _ = only (best (other.candidates className name args)) := by
        rw [← only_map_outlined, through, alike.candidates, ← through, only_map_outlined]
    _ = other.resolveOverload className name args := rfl

theorem inheritsSlot (alike : table.Alike other) (parent : Name) (method : MethodInfo) :
    table.inheritsSlot parent method = other.inheritsSlot parent method := by
  have through (table : ClassTable) : table.inheritsSlot parent method =
      ((table.ancestors parent).map (·.outline)).any fun ancestor =>
        ancestor.methods.any fun other => other.flags.isVirtual && other.sameSignature method := by
    rw [List.any_map]
    refine congrArg (List.any _) (funext fun ancestor => ?_)
    show _ = (ancestor.methods.map (·.outline)).any _
    rw [List.any_map]
    rfl
  rw [through, through, alike.ancestors]

end Alike

/-! ### Overriding methods -/

section Marks

variable {table other : ClassTable}

theorem class?_markOverrides (table : ClassTable) (name : Name) :
    table.markOverrides.class? name = (table.class? name).map (·.withOverrides table) := by
  unfold class? markOverrides
  exact List.find?_map

/-- **Tables that answer alike are marked alike.** -/
theorem Alike.markOverrides (alike : table.Alike other) :
    table.markOverrides.Alike other.markOverrides := by
  have through {first second : ClassTable} (same : first.Alike second) (info : ClassInfo) :
      (info.withOverrides first).outline = info.outline.withOverrides second := by
    unfold ClassInfo.outline ClassInfo.withOverrides
    dsimp only
    rw [List.map_map, List.map_map]
    refine congrArg (ClassInfo.mk _ _ _ _ _) (List.map_congr_left fun method _ => ?_)
    rw [Function.comp_apply, Function.comp_apply, apply_ite MethodInfo.outline, same.inheritsSlot]
    rfl
  refine ⟨?_, fun name => ?_⟩
  · unfold ClassTable.size ClassTable.markOverrides
    rw [List.length_map, List.length_map]
    exact alike.size
  · have same := congrArg (Option.map (·.withOverrides other)) (alike.outline name)
    rw [class?_markOverrides, class?_markOverrides, Option.map_map, Option.map_map]
    rw [Option.map_map, Option.map_map] at same
    refine Eq.trans ?_ (same.trans ?_)
    · exact congrArg (Option.map · _) (funext fun info => through alike info)
    · exact congrArg (Option.map · _) (funext fun info => (through (.refl other) info).symm)

/-- Tables that find the same outlines are of one size, where no name has two entries. -/
theorem Alike.of_outline (distinct : table.names.Nodup) (distinctToo : other.names.Nodup)
    (outline : ∀ name, (table.class? name).map (·.outline) = (other.class? name).map (·.outline)) :
    table.Alike other := by
  have contains (name : Name) : table.contains name = other.contains name := by
    have same := congrArg Option.isSome (outline name)
    rwa [Option.isSome_map, Option.isSome_map] at same
  have perm : table.names.Perm other.names := by
    refine (List.perm_ext_iff_of_nodup distinct distinctToo).mpr fun name => ?_
    rw [← contains_iff_mem_names, ← contains_iff_mem_names, contains]
  have size := perm.length_eq
  unfold names at size
  rw [List.length_map, List.length_map] at size
  exact ⟨size, outline⟩

/-- Where no name has two entries, an outline is found under its name. -/
theorem map_class?_eq_some_iff (distinct : table.names.Nodup) {name : Name} {info : ClassInfo} :
    (table.class? name).map (·.outline) = some info ↔
      info ∈ table.classes.map (·.outline) ∧ info.name = name := by
  rw [Option.map_eq_some_iff, List.mem_map]
  constructor
  · rintro ⟨whole, found, rfl⟩
    have named : whole.name = name := name_of_class? found
    exact ⟨⟨whole, List.mem_of_find?_eq_some found, rfl⟩, named⟩
  · rintro ⟨⟨whole, member, rfl⟩, rfl⟩
    exact ⟨whole, class?_of_mem distinct member, rfl⟩

/-- **The order of a table does not matter.** -/
theorem map_class?_of_perm (distinct : table.names.Nodup)
    (perm : (table.classes.map (·.outline)).Perm (other.classes.map (·.outline))) (name : Name) :
    (table.class? name).map (·.outline) = (other.class? name).map (·.outline) := by
  have names : table.names.Perm other.names := by
    have same := perm.map (·.name)
    rwa [List.map_map, List.map_map] at same
  refine Option.ext fun info => ?_
  rw [map_class?_eq_some_iff distinct, map_class?_eq_some_iff (names.nodup_iff.mp distinct),
    perm.mem_iff]

end Marks

end ClassTable

/-! ### Lineages and vtables -/

namespace Lineage

variable {parents others : ParentMap}

theorem climb_congr (same : ∀ name, parents.lookup name = others.lookup name) (steps : Nat)
    (passed : List Name) (name : Name) :
    climb parents steps passed name = climb others steps passed name := by
  induction steps generalizing passed name with
  | zero => rfl
  | succ steps step =>
    unfold climb
    simp only [same, step]

theorem of_congr (same : ∀ name, parents.lookup name = others.lookup name)
    (length : parents.length = others.length) (name : Name) : of parents name = of others name := by
  unfold of
  rw [length, climb_congr same]

end Lineage

/-- Two records give a method the same name. -/
def MangleRecord.Alike (record other : MangleRecord) : Prop :=
  ∀ method, record.mangled? method = other.mangled? method

namespace Vtable

variable {record other : MangleRecord}

theorem extend_outline (record : MangleRecord) (vtable : Vtable) (info : ClassInfo) :
    vtable.extend record info.outline = vtable.extend record info := by
  unfold extend
  rw [info.declaredMethods_outline, List.filter_map, List.foldl_map]
  rfl

theorem extend_congr (alike : record.Alike other) (vtable : Vtable) (info : ClassInfo) :
    vtable.extend record info = vtable.extend other info := by
  unfold extend
  refine congrArg (fun step => List.foldl step vtable _)
    (funext fun vtable => funext fun method => ?_)
  unfold add
  rw [alike]

end Vtable

namespace ClassTable.Alike

variable {table other : ClassTable}

theorem lookup_parentMap (alike : table.Alike other) (name : Name) :
    table.parentMap.lookup name = other.parentMap.lookup name := by
  rw [ClassTable.lookup_parentMap, ClassTable.lookup_parentMap]
  exact read_of_outline ClassInfo.outline (fun _ => rfl) (alike.outline name)

/-- **A class has the same lineage**, or fails to have one in the same way. -/
theorem lineage (alike : table.Alike other) (name : Name) :
    Lineage.of table.parentMap name = Lineage.of other.parentMap name := by
  refine Lineage.of_congr alike.lookup_parentMap ?_ name
  unfold parentMap
  rw [List.length_map, List.length_map]
  exact alike.size

/-- **A lineage has the same vtable.** -/
theorem along (alike : table.Alike other) {record others : MangleRecord}
    (named : record.Alike others) (lineage : List Name) :
    Vtable.along table record lineage = Vtable.along other others lineage := by
  have through (table : ClassTable) : Vtable.along table record lineage =
      (lineage.reverse.filterMap fun name => (table.class? name).map (·.outline)).foldl
        (Vtable.extend record) .empty := by
    rw [← List.map_filterMap, List.foldl_map]
    unfold Vtable.along
    simp only [Vtable.extend_outline]
  have outlines : (fun name => (table.class? name).map (·.outline)) =
      fun name => (other.class? name).map (·.outline) := funext alike.outline
  have steps : Vtable.extend record = Vtable.extend others :=
    funext fun vtable => funext fun info => Vtable.extend_congr named vtable info
  rw [through, outlines, ← through]
  unfold Vtable.along
  rw [steps]

end ClassTable.Alike

end ObjectLowering
