/-
**A call of a slot's signature means the method that fills the slot.**

A class fills a slot with the nearest virtual method of its name and parameter types. A call with
arguments of exactly these types may mean other methods too, but assignability is a partial order,
so only a method of exactly these types is at least as specific as all of them; and a method hides
those of its parameter types further up.

* `ClassTable.isMoreSpecific_antisymm`: of two methods of different parameter types at most one is
  more specific.
* `ClassTable.resolveOverload_of_first`: a call with arguments for a method's own parameters means
  the first visible method that has them.
* `ClassTable.first_of_nearestVirtual?`: this is the nearest virtual one, where no class has two
  such methods or one without a slot.
* **`overload_chooses_binding`**: both choose the same method.
-/

import ObjectLowering.Proofs.Calls.CallTargets
import ObjectLowering.Proofs.Construction.TwoPhases
import ObjectLowering.Proofs.Hierarchy.Acyclic
import ObjectLowering.Proofs.Hierarchy.Assignability

namespace ObjectLowering

open Source (SourceUnit)

namespace ClassTable

variable {table : ClassTable} {className name : Name}

/-! ### Applicable and more specific methods -/

/-- Arguments of known types are what a method of these parameters would have to accept. -/
theorem isApplicable_map_some (method : MethodInfo) (params : List Ty) :
    table.isApplicable method (params.map some) =
      (params.zip method.params).all fun (param, other) => table.isAssignable param other := by
  unfold isApplicable
  generalize method.params = accepted
  induction accepted generalizing params with
  | nil => cases params <;> rfl
  | cons _ _ step =>
    cases params with
    | nil => rfl
    | cons _ _ =>
      rw [List.map_cons, List.zip_cons_cons, List.zip_cons_cons, List.all_cons, List.all_cons, step]
      rfl

/-- A method accepts arguments of its own parameter types. -/
theorem isApplicable_self (method : MethodInfo) :
    table.isApplicable method (method.params.map some) = true := by
  rw [isApplicable_map_some]
  generalize method.params = params
  induction params with
  | nil => rfl
  | cons param _ step =>
    rw [List.zip_cons_cons, List.all_cons, step, Bool.and_true]
    exact isAssignable_refl table param

/-- Of two methods only one is more specific, unless they have the same parameter types. -/
theorem isMoreSpecific_antisymm (apart : ∀ name above, table.isSubclass name above = true →
      table.isSubclass above name = true → name = above) {first second : MethodInfo}
    (counted : first.params.length = second.params.length)
    (there : table.isMoreSpecific first second = true)
    (back : table.isMoreSpecific second first = true) : first.params = second.params := by
  unfold isMoreSpecific at there back
  generalize first.params = params at *
  generalize second.params = others at *
  induction params generalizing others with
  | nil => exact (List.length_eq_zero_iff.mp counted.symm).symm
  | cons param _ step =>
    cases others with
    | nil => cases counted
    | cons other _ =>
      rw [List.zip_cons_cons, List.all_cons, Bool.and_eq_true] at there back
      rw [isAssignable_antisymm apart there.1 back.1,
        step _ (Nat.succ.inj counted) there.2 back.2]

/-! ### Candidates -/

variable {args : List (Option Ty)}

theorem subset_foldl_addCandidate (methods found : List (MethodRef × MethodInfo)) :
    found ⊆ methods.foldl (table.addCandidate name args) found := by
  induction methods generalizing found with
  | nil => exact fun _ member => member
  | cons method rest step =>
    refine List.Subset.trans ?_ (step _)
    obtain ⟨_, _, added⟩ | ⟨_, left⟩ := addCandidate_eq found method
    · rw [added]
      exact List.subset_append_left _ _
    · rw [left]
      exact List.Subset.refl _

/-- Of a visible method that fits, some candidate has the parameter types. -/
theorem exists_candidate {method : MethodRef × MethodInfo}
    (visible : method ∈ table.visibleMethods className) (fits : table.Fits name args method.2) :
    ∃ other ∈ table.candidates className name args, other.2.params = method.2.params := by
  unfold candidates
  generalize table.visibleMethods className = methods at visible
  suffices all : ∀ found, ∃ other ∈ methods.foldl (table.addCandidate name args) found,
      other.2.params = method.2.params from all []
  induction methods with
  | nil => cases visible
  | cons first rest step =>
    intro found
    rcases List.mem_cons.mp visible with rfl | visible
    · rw [List.foldl_cons]
      obtain ⟨_, _, added⟩ | ⟨covered, left⟩ := addCandidate_eq found method
      · rw [added]
        exact ⟨method, subset_foldl_addCandidate _ _ List.mem_concat_self, rfl⟩
      · obtain ⟨other, inside, same⟩ := covered fits
        rw [left]
        exact ⟨other, subset_foldl_addCandidate _ _ inside, same⟩
    · exact step visible _

/-- No two candidates have the same parameter types. -/
theorem nodup_candidates :
    ((table.candidates className name args).map (·.2.params)).Nodup := by
  unfold candidates
  generalize table.visibleMethods className = methods
  suffices all : ∀ found : List (MethodRef × MethodInfo), (found.map (·.2.params)).Nodup →
      ((methods.foldl (table.addCandidate name args) found).map (·.2.params)).Nodup from
    all [] List.nodup_nil
  induction methods with
  | nil => exact fun _ distinct => distinct
  | cons method rest step =>
    intro found distinct
    refine step _ ?_
    obtain ⟨_, new, added⟩ | ⟨_, left⟩ := addCandidate_eq found method
    · rw [added, List.map_append, List.nodup_append]
      refine ⟨distinct, List.pairwise_singleton _ _, ?_⟩
      rintro _ inside _ here rfl
      obtain ⟨other, member, same⟩ := List.mem_map.mp inside
      exact new other member (same.trans (List.mem_singleton.mp here))
    · rwa [left]

/-- The candidate that alone is at least as specific as every other is the one that is meant. -/
theorem resolveOverload_of_best {best : MethodRef × MethodInfo}
    (member : best ∈ table.candidates className name args)
    (specific : ∀ other ∈ table.candidates className name args,
      table.isMoreSpecific best.2 other.2 = true)
    (only : ∀ other ∈ table.candidates className name args,
      table.isMoreSpecific other.2 best.2 = true → other = best) :
    table.resolveOverload className name args = some best.1 := by
  have distinct : (table.candidates className name args).Nodup :=
    .of_map _ nodup_candidates
  unfold resolveOverload
  dsimp only
  generalize table.candidates className name args = found at *
  have single : (found.filter fun method =>
      found.all fun other => table.isMoreSpecific method.2 other.2) = [best] := by
    refine List.perm_singleton.mp ((List.perm_ext_iff_of_nodup (distinct.filter _)
      (List.nodup_singleton _)).mpr fun other => ?_)
    rw [List.mem_filter, List.mem_singleton, List.all_eq_true]
    refine ⟨fun ⟨inside, all⟩ => only other inside (all best member), ?_⟩
    rintro rfl
    exact ⟨member, specific⟩
  rw [single]

/-- **A call with arguments for a method's own parameters means the first visible method that has
them**, whatever else is applicable. -/
theorem resolveOverload_of_first (rooted : table.Rooted) {params : List Ty}
    {method : MethodRef × MethodInfo}
    (first : (table.visibleMethods className).find? (·.2.answers name params) = some method) :
    table.resolveOverload className name (params.map some) = some method.1 := by
  have answers : method.2.answers name params = true := by
    have answers := List.find?_some first
    exact answers
  obtain ⟨named, isMethod, same⟩ := MethodInfo.answers_iff.mp answers
  have fits : table.Fits name (params.map some) method.2 := by
    refine ⟨named, isMethod, ?_, ?_⟩
    · rw [List.length_map, same]
    · rw [← same]
      exact isApplicable_self method.2
  have member : method ∈ table.candidates className name (params.map some) := by
    obtain ⟨other, member, alike⟩ := exists_candidate (List.mem_of_find?_eq_some first) fits
    have earliest := (first_of_mem_candidates member).2
    rw [alike, same, first, Option.some.injEq] at earliest
    rwa [earliest]
  have specific : ∀ other ∈ table.candidates className name (params.map some),
      table.isMoreSpecific method.2 other.2 = true := by
    intro other inside
    have applicable := (first_of_mem_candidates inside).1.applicable
    rwa [isApplicable_map_some, ← same] at applicable
  refine resolveOverload_of_best member specific fun other inside back => ?_
  have counted := (first_of_mem_candidates inside).1.counted
  rw [List.length_map, ← same] at counted
  have alike := isMoreSpecific_antisymm (fun _ _ => isSubclass_antisymm rooted) counted back
    (specific other inside)
  exact List.inj_on_of_nodup_map nodup_candidates inside member alike

end ClassTable

/-! ### Methods with a slot -/

/-- No class at or above declares two methods of the name and parameter types, nor a static or a
private one. -/
def ClassTable.DeclaresPlainly (table : ClassTable) (className name : Name) (params : List Ty) :
    Prop :=
  ∀ info ∈ table.ancestors className,
    (info.declaredMethods.filter (·.2.answers name params)).length ≤ 1 ∧
    ∀ method ∈ info.declaredMethods, method.2.answers name params = true →
      method.2.flags.isStatic = false ∧ method.2.flags.isPrivate = false

instance (table : ClassTable) (className name : Name) (params : List Ty) :
    Decidable (table.DeclaresPlainly className name params) :=
  inferInstanceAs (Decidable (∀ info ∈ _, _ ∧ ∀ method ∈ _, _ → _))

theorem MethodInfo.fills_iff {method : MethodInfo} {name : Name} {params : List Ty} :
    method.fills name params = true ↔
      method.flags.isVirtual = true ∧ method.name = name ∧ method.params = params := by
  unfold fills
  rw [Bool.and_eq_true, Bool.and_eq_true, beq_iff_eq, beq_iff_eq]

namespace ClassTable

variable {units : List SourceUnit} {className name : Name} {params : List Ty} {info : ClassInfo}
  {method : MethodRef × MethodInfo}

/-- A method of a class declared in source has a slot if nothing speaks against it. -/
theorem isVirtual_of_user (found : (ofUnits units).class? className = some info)
    (user : info.isProvided = false) (declared : method ∈ info.declaredMethods) :
    method.2.flags.isVirtual = (!method.2.flags.isConstructor && !method.2.flags.isStatic &&
      !method.2.flags.isPrivate) := by
  obtain ⟨place, _, rfl⟩ := Program.find?_placed found user
  rw [PlacedClass.declaredMethods_entry] at declared
  obtain ⟨⟨decl, index⟩, _, rfl⟩ := List.mem_map.mp declared
  show (place.methodInfo _ decl).flags.isVirtual = _
  unfold PlacedClass.methodInfo
  dsimp only
  split <;> rfl

/-- A method of a provided class is no constructor, and none of them has a slot and the name of
one that has none. -/
theorem isVirtual_of_provided (found : (ofUnits units).class? className = some info)
    (isProvided : info.isProvided = true) (declared : method ∈ info.declaredMethods) :
    method.2.flags.isConstructor = false ∧
      method.2.flags.isVirtual = !(["length", "charAt", "getName"].contains method.2.name) := by
  have listed : ∀ info ∈ provided, ∀ method ∈ info.methods,
      method.flags.isConstructor = false ∧ method.flags.isVirtual =
        !(["length", "charAt", "getName"].contains method.name) := by decide
  obtain ⟨plain, given, rfl⟩ : ∃ plain ∈ provided, info = plain.withOverrides (unmarked units) := by
    have member := List.mem_of_find?_eq_some found
    rw [classes_ofUnits] at member
    obtain ⟨plain, inside, rfl⟩ := List.mem_map.mp member
    refine ⟨plain, (List.mem_append.mp inside).resolve_right fun counted => ?_, rfl⟩
    obtain ⟨_, _, _, _, _, rfl⟩ := declared_of_mem_counted counted
    cases isProvided
  have there := (ClassInfo.mem_declaredMethods.mp declared).2
  obtain ⟨first, inside, same⟩ := List.mem_map.mp (List.mem_of_getElem? there)
  have known := listed plain given first inside
  rw [← same]
  split <;> exact known

/-- Provided classes are at the end of a lineage. -/
theorem pairwise_provided {classes : List Name}
    (lineage : IsLineage (ofUnits units).parentMap className classes) :
    (classes.filterMap (ofUnits units).class?).Pairwise fun lower upper =>
      lower.isProvided = true → upper.isProvided = true := by
  induction lineage with
  | @root name _ =>
    cases found : (ofUnits units).class? name with
    | none => rw [List.filterMap_cons_none found]; exact .nil
    | some info => rw [List.filterMap_cons_some found]; exact List.pairwise_singleton _ _
  | @child name parent older declared named known rest fresh step =>
    obtain ⟨info, found, _⟩ : ∃ info, (ofUnits units).class? name = some info ∧
        info.parent = parent := by
      rw [lookup_parentMap] at declared
      exact Option.map_eq_some_iff.mp declared
    rw [List.filterMap_cons_some found]
    refine List.pairwise_cons.mpr ⟨fun upper member isProvided => ?_, step⟩
    refine (provided_of_lineage (.child declared named known rest fresh)
      (mem_names_provided found isProvided) upper ?_).1
    rw [List.filterMap_cons_some found]
    exact List.mem_cons_of_mem _ member

theorem answers_of_fills (found : (ofUnits units).class? className = some info)
    (declared : method ∈ info.declaredMethods) (fills : method.2.fills name params = true) :
    method.2.answers name params = true := by
  obtain ⟨isVirtual, named, same⟩ := MethodInfo.fills_iff.mp fills
  refine MethodInfo.answers_iff.mpr ⟨named, ?_, same⟩
  cases user : info.isProvided with
  | true => exact (isVirtual_of_provided found user declared).1
  | false =>
    rw [isVirtual_of_user found user declared, Bool.and_eq_true, Bool.and_eq_true] at isVirtual
    rw [← Bool.not_eq_true']
    exact isVirtual.1.1

/-- Below a class that has a slot for a signature, a method that answers for it fills the slot. It
is not a provided one, since there is none of the same name without a slot. -/
theorem fills_of_answers (rooted : (ofUnits units).Rooted)
    (plain : (ofUnits units).DeclaresPlainly className name params) {upper : ClassInfo}
    {before behind : List ClassInfo}
    (split : (ofUnits units).ancestors className = before ++ upper :: behind)
    {other : MethodRef × MethodInfo} (declaredAbove : other ∈ upper.declaredMethods)
    (fills : other.2.fills name params = true) (below : info ∈ before)
    (declared : method ∈ info.declaredMethods) (answers : method.2.answers name params = true) :
    method.2.fills name params = true := by
  have member : info ∈ (ofUnits units).ancestors className :=
    split.symm ▸ List.mem_append_left _ below
  have memberAbove : upper ∈ (ofUnits units).ancestors className :=
    split.symm ▸ List.mem_append_right _ List.mem_cons_self
  obtain ⟨named, isMethod, same⟩ := MethodInfo.answers_iff.mp answers
  refine MethodInfo.fills_iff.mpr ⟨?_, named, same⟩
  cases user : info.isProvided with
  | false =>
    obtain ⟨isInstance, isPublic⟩ := (plain info member).2 method declared answers
    rw [isVirtual_of_user (class?_of_mem_ancestors member) user declared, isMethod, isInstance,
      isPublic]
    rfl
  | true =>
    obtain ⟨inside, notEmpty⟩ := inside_of_mem_ancestors member
    obtain ⟨classes, lineage⟩ := rooted className inside
    have ordered := pairwise_provided lineage
    rw [← ancestors_of_isLineage lineage inside notEmpty, split, List.pairwise_append] at ordered
    have providedAbove := ordered.2.2 info below upper List.mem_cons_self user
    have slot := (isVirtual_of_provided (class?_of_mem_ancestors memberAbove) providedAbove
      declaredAbove).2
    obtain ⟨isVirtual, namedAbove, _⟩ := MethodInfo.fills_iff.mp fills
    rw [(isVirtual_of_provided (class?_of_mem_ancestors member) user declared).2, named,
      ← namedAbove, ← slot, isVirtual]

/-- **The nearest virtual method of a signature is the first visible method that has it**, where no
class declares two of them or one without a slot. -/
theorem first_of_nearestVirtual? (rooted : (ofUnits units).Rooted)
    (plain : (ofUnits units).DeclaresPlainly className name params) {nearest : ClassInfo}
    {last : MethodRef × MethodInfo}
    (chosen : (ofUnits units).nearestVirtual? className name params = some (nearest, last)) :
    nearest ∈ (ofUnits units).ancestors className ∧ last ∈ nearest.declaredMethods ∧
      ((ofUnits units).visibleMethods className).find? (·.2.answers name params) = some last := by
  unfold nearestVirtual? at chosen
  obtain ⟨before, _, behind, split, chosen, absent⟩ := List.findSome?_eq_some_iff.mp chosen
  obtain ⟨_, isLast, same⟩ := Option.map_eq_some_iff.mp chosen
  cases same
  have above : nearest ∈ (ofUnits units).ancestors className :=
    split.symm ▸ List.mem_append_right _ List.mem_cons_self
  obtain ⟨declared, fills⟩ := List.mem_filter.mp (List.mem_of_getLast? isLast)
  refine ⟨above, declared, ?_⟩
  unfold visibleMethods
  rw [split, List.flatMap_append, List.flatMap_cons, List.find?_append, List.find?_append]
  have none : (before.flatMap (·.declaredMethods)).find? (·.2.answers name params) = none := by
    refine List.find?_eq_none.mpr fun method visible answers => ?_
    obtain ⟨lower, below, inside⟩ := List.mem_flatMap.mp visible
    have filled := fills_of_answers rooted plain split declared fills below inside answers
    have unfilled := Option.map_eq_none_iff.mp (absent lower below)
    exact List.filter_eq_nil_iff.mp (List.getLast?_eq_none_iff.mp unfilled) method inside filled
  have only : nearest.declaredMethods.filter (·.2.answers name params) = [last] := by
    have answers := answers_of_fills (class?_of_mem_ancestors above) declared fills
    have member : last ∈ nearest.declaredMethods.filter (·.2.answers name params) :=
      List.mem_filter.mpr ⟨declared, answers⟩
    obtain ⟨single, alone⟩ := List.length_eq_one_iff.mp
      (Nat.le_antisymm (plain nearest above).1 (List.length_pos_of_mem member))
    rw [alone] at member
    rw [alone, List.mem_singleton.mp member]
  rw [none, Option.none_or, ← List.head?_filter, only]
  rfl

end ClassTable

/-! ### The choice -/

/-- A call with arguments for the parameters of a slot means the method that fills the slot. -/
def Vtable.ChosenAt (vtable : Vtable) (table : ClassTable) (record : MangleRecord)
    (className : Name) (position : Nat) (slot : VtableSlot) : Prop :=
  ∃ binding target info, vtable.bindings[position]? = some binding ∧
    table.resolveOverload className slot.source (slot.params.map some) = some target ∧
    table.method? target = some info ∧ info.name = slot.source ∧ info.params = slot.params ∧
    target.className = binding.owner ∧
    binding.implName = (record.mangled? target).getD info.name

/-- **A call of a slot's signature means the method that fills the slot**: in a closed hierarchy
without cycles, on a class of a non-empty name, where no class at or above it declares two methods
of the signature or a static or private one. -/
theorem overload_chooses_binding (units : List SourceUnit) (record : MangleRecord)
    (closed : (ClassTable.ofUnits units).Closed)
    (acyclic : ∀ name, ¬(ClassTable.ofUnits units).Circular name) :
    ∃ set, VtableSet.ofTable (.ofUnits units) record = .ok set ∧
      ∀ className, (ClassTable.ofUnits units).contains className = true →
        className ≠ Reserved.empty → ∃ vtable, set.get? className = some vtable ∧
          ∀ (position : Nat) (slot : VtableSlot), vtable.slots[position]? = some slot →
            (ClassTable.ofUnits units).DeclaresPlainly className slot.source slot.params →
            vtable.ChosenAt (.ofUnits units) record className position slot := by
  have rooted := closed.rooted acyclic
  obtain ⟨set, computed⟩ := VtableSet.exists_ofTable rooted record
  refine ⟨set, computed, fun className inside named => ?_⟩
  obtain ⟨classes, lineage, built⟩ := VtableSet.get?_of_contains computed inside
  refine ⟨_, built, fun position slot there plain => ?_⟩
  obtain ⟨binding, bound, filled⟩ :=
    Vtable.binding_of_slot (Vtable.signatures_nodup _ record classes) there
  rw [Vtable.implementation?_along, ← ClassTable.ancestors_of_isLineage lineage inside named]
    at filled
  obtain ⟨nearest, last, chosen, owned, implNamed⟩ := ClassTable.nearestVirtual?_of_names filled
  obtain ⟨above, declared, first⟩ := ClassTable.first_of_nearestVirtual? rooted plain chosen
  obtain ⟨ownedBy, entry⟩ := ClassTable.method?_of_mem_declaredMethods
    (ClassTable.class?_of_mem_ancestors above) declared
  have answers : last.2.answers slot.source slot.params = true := by
    have answers := List.find?_some first
    exact answers
  obtain ⟨sourceSame, _, paramsSame⟩ := MethodInfo.answers_iff.mp answers
  exact ⟨binding, last.1, last.2, bound, ClassTable.resolveOverload_of_first rooted first, entry,
    sourceSame, paramsSame, ownedBy.trans owned.symm, implNamed⟩

/-- A call of `area` on a square means the method that fills the slot introduced by `Shape`. -/
theorem overload_chooses_binding_shapes :
    (ClassTable.ofUnits [.shapes]).Closed ∧
      (∀ name, ¬(ClassTable.ofUnits [.shapes]).Circular name) ∧
      ∃ set vtable, VtableSet.ofTable (.ofUnits [.shapes]) ⟨[]⟩ = .ok set ∧
        set.get? "Square" = some vtable ∧
        vtable.slots[4]? = some ⟨"area", "area", [], .int, "Shape"⟩ ∧
        vtable.ChosenAt (.ofUnits [.shapes]) ⟨[]⟩ "Square" 4
          ⟨"area", "area", [], .int, "Shape"⟩ := by
  have slot : (VtableSet.ofTable (.ofUnits [.shapes]) ⟨[]⟩).toOption.bind
      (fun set => (set.get? "Square").bind (·.slots[4]?)) =
        some ⟨"area", "area", [], .int, "Shape"⟩ := by decide +kernel
  obtain ⟨set, built⟩ : ∃ set, VtableSet.ofTable (.ofUnits [.shapes]) ⟨[]⟩ = .ok set := by
    cases built : VtableSet.ofTable (.ofUnits [.shapes]) ⟨[]⟩ with
    | error _ =>
      rw [built] at slot
      cases slot
    | ok set => exact ⟨set, rfl⟩
  obtain ⟨closed, acyclic⟩ := (ClassTable.closed_acyclic_iff (ClassTable.names_nodup_ofUnits _)).mpr
    (VtableSet.rooted_of_ofTable built)
  obtain ⟨other, again, each⟩ := overload_chooses_binding [.shapes] ⟨[]⟩ closed acyclic
  cases built.symm.trans again
  obtain ⟨vtable, found, chosen⟩ := each "Square" (by decide +kernel) (by decide)
  rw [built] at slot
  have there : vtable.slots[4]? = some ⟨"area", "area", [], .int, "Shape"⟩ := by
    rw [← slot]
    show _ = (set.get? "Square").bind _
    rw [found]
    rfl
  exact ⟨closed, acyclic, set, vtable, built, found, there, chosen 4 _ there (by decide +kernel)⟩

/-- A class under the empty name, which stands for no class elsewhere. -/
def Source.SourceUnit.underEmptyName : SourceUnit where
  path := "N"
  package := []
  imports := []
  classes := [{ name := "", parent := none, fields := [], methods := [], span := ⟨0, 1⟩ }]
  nodes := #[]
  stmtCount := 0

/-- The class has a vtable with the slots of the root class, each of them declared once and plainly,
but calls of their signatures mean nothing on it: the search passes no class. -/
theorem overload_misses_slots_of_empty_name :
    (ClassTable.ofUnits [.underEmptyName]).Closed ∧
      (∀ name, ¬(ClassTable.ofUnits [.underEmptyName]).Circular name) ∧
      ∃ set vtable, VtableSet.ofTable (.ofUnits [.underEmptyName]) ⟨[]⟩ = .ok set ∧
        set.get? "" = some vtable ∧
        vtable.slots[0]? = some ⟨"hashCode", "hashCode", [], .int, "Object"⟩ ∧
        (∀ name ∈ ["", "Object"],
          (ClassTable.ofUnits [.underEmptyName]).DeclaresPlainly name "hashCode" []) ∧
        (ClassTable.ofUnits [.underEmptyName]).resolveOverload "" "hashCode" [] = none := by
  have slot : (VtableSet.ofTable (.ofUnits [.underEmptyName]) ⟨[]⟩).toOption.bind
      (fun set => (set.get? "").bind (·.slots[0]?)) =
        some ⟨"hashCode", "hashCode", [], .int, "Object"⟩ := by decide +kernel
  cases built : VtableSet.ofTable (.ofUnits [.underEmptyName]) ⟨[]⟩ with
  | error _ =>
    rw [built] at slot
    cases slot
  | ok set =>
    obtain ⟨closed, acyclic⟩ :=
      (ClassTable.closed_acyclic_iff (ClassTable.names_nodup_ofUnits _)).mpr
        (VtableSet.rooted_of_ofTable built)
    rw [built, Except.toOption, Option.bind_some] at slot
    obtain ⟨vtable, found, there⟩ := Option.bind_eq_some_iff.mp slot
    exact ⟨closed, acyclic, set, vtable, rfl, found, there, by decide +kernel, by decide +kernel⟩

end ObjectLowering
