/-
**Which methods override, and whose slots they fill.**

The class table marks the virtual methods that override one of an ancestor. It looks through the
ancestors of the parent while no mark is set yet. Vtables are built along lineages, root first: a
method fills the slot of its signature where the vtable has one so far, else it brings a new one.
Both ask whether a class above declares a virtual method of the signature, so they agree. A static
or private method above counts for neither, and two methods of one signature in a class are marked
alike.

* `ClassTable.ancestors_markOverrides`: marks do not change which classes are above.
* `ClassTable.isOverride_iff`: a virtual method is marked exactly if a class above its own declares
  its signature.
* `Vtable.Shape.declaredIn_ne_iff`: exactly then its slot comes from another class.
* **`overrides_agree`**: in a closed hierarchy without cycles a virtual method is marked exactly if
  the parent's vtable has its slot, exactly if its slot comes from another class.
-/

import ObjectLowering.Proofs.Hierarchy.Outlines
import ObjectLowering.Proofs.Overloads.SlotSignatures
import ObjectLowering.Proofs.Vtables.VtableShape

namespace ObjectLowering

open Source (SourceUnit)

/-- The class has a vtable with a slot of the name and parameter types. -/
def VtableSet.HasSlot (set : VtableSet) (className source : Name) (params : List Ty) : Prop :=
  ∃ vtable, set.get? className = some vtable ∧ (source, params) ∈ vtable.slots.map (·.signature)

/-- What the mark of a virtual method says of the slots of its class and of the parent. -/
structure VtableSet.MarksAgree (set : VtableSet) (table : ClassTable) (info : ClassInfo)
    (method : MethodInfo) : Prop where
  /-- The method overrides exactly if the parent has its slot. -/
  inherited : method.flags.isOverride = true ↔
    ∃ parent, table.Declares info.name parent ∧ set.HasSlot parent method.name method.params
  /-- The class has one slot for it, and it overrides exactly if this is another class's. -/
  introduced : ∃ vtable slot, set.get? info.name = some vtable ∧
    (∀ other, other ∈ vtable.slots ∧ other.signature = (method.name, method.params) ↔
      other = slot) ∧
    (method.flags.isOverride = true ↔ slot.declaredIn ≠ info.name)

/-! ### Marks -/

theorem ClassInfo.declares_withOverrides (table : ClassTable) (info : ClassInfo) (source : Name)
    (params : List Ty) :
    (info.withOverrides table).declares source params = info.declares source params := by
  unfold declares withOverrides
  dsimp only
  rw [List.any_map]
  refine congrArg (List.any _) (funext fun method => ?_)
  rw [Function.comp_apply]
  split <;> rfl

namespace ClassTable

variable {table : ClassTable} {units : List SourceUnit} {name : Name} {info : ClassInfo}
  {method : MethodInfo}

theorem climb_markOverrides (table : ClassTable) (steps : Nat) (name : Name) :
    table.markOverrides.climb steps name =
      (table.climb steps name).map (·.withOverrides table) := by
  induction steps generalizing name with
  | zero => rfl
  | succ steps step =>
    unfold climb
    rw [class?_markOverrides]
    cases table.class? name with
    | none => rfl
    | some info =>
      have parent : (info.withOverrides table).parent = info.parent := rfl
      rw [Option.map_some]
      dsimp only
      rw [List.map_cons, parent]
      split
      · rfl
      · rw [step]

/-- **Marks do not change which classes are above.** -/
theorem ancestors_markOverrides (table : ClassTable) (name : Name) :
    table.markOverrides.ancestors name = (table.ancestors name).map (·.withOverrides table) := by
  have size : table.markOverrides.size = table.size := List.length_map _
  unfold ancestors
  split
  · rfl
  · rw [size, climb_markOverrides]

/-- A slot is inherited if a class at or above the parent declares a virtual method of the
signature. -/
theorem inheritsSlot_iff {parent : Name} : table.inheritsSlot parent method = true ↔
    ∃ upper ∈ table.ancestors parent, upper.declares method.name method.params = true := by
  unfold inheritsSlot
  rw [List.any_eq_true]
  rfl

theorem inheritsSlot_markOverrides (table : ClassTable) (parent : Name) (method : MethodInfo) :
    table.markOverrides.inheritsSlot parent method = table.inheritsSlot parent method := by
  unfold inheritsSlot
  rw [ancestors_markOverrides, List.any_map]
  exact congrArg (List.any _) (funext fun upper => upper.declares_withOverrides table _ _)

/-- No method is marked before the marking. -/
theorem isOverride_unmarked (member : info ∈ (unmarked units).classes)
    (declared : method ∈ info.methods) : method.flags.isOverride = false := by
  have classes : (unmarked units).classes = provided ++ counted units :=
    classes_foldl_add (entries units) ⟨provided⟩
  rw [classes] at member
  rcases List.mem_append.mp member with given | kept
  · have unmarked : ∀ info ∈ provided, ∀ method ∈ info.methods,
        method.flags.isOverride = false := by decide
    exact unmarked info given method declared
  · obtain ⟨_, _, _, _, _, rfl⟩ := declared_of_mem_counted kept
    obtain ⟨_, _, rfl⟩ := List.mem_map.mp declared
    rfl

/-- **A virtual method is marked exactly if a class above its own declares its signature.** -/
theorem isOverride_iff (found : (ofUnits units).class? name = some info)
    (declared : method ∈ info.methods) (isVirtual : method.flags.isVirtual = true) :
    method.flags.isOverride = true ↔ ∃ upper ∈ (ofUnits units).ancestors info.parent,
      upper.declares method.name method.params = true := by
  rw [← inheritsSlot_iff]
  change _ ↔ (unmarked units).markOverrides.inheritsSlot info.parent method = true
  rw [inheritsSlot_markOverrides]
  have marked := (class?_markOverrides (unmarked units) name).symm.trans found
  obtain ⟨plain, given, rfl⟩ := Option.map_eq_some_iff.mp marked
  obtain ⟨before, inside, rfl⟩ := List.mem_map.mp declared
  have unset := isOverride_unmarked (List.mem_of_find?_eq_some given) inside
  split at isVirtual
  · rename_i overrides
    rw [if_pos overrides]
    exact iff_of_true rfl (Bool.and_eq_true_iff.mp overrides).2
  · rename_i stays
    rw [if_neg stays, unset]
    rw [isVirtual, Bool.true_and] at stays
    exact iff_of_false Bool.false_ne_true stays

end ClassTable

/-! ### Slots -/

/-- The slot of a signature comes from another class than the youngest exactly if one above
declares it. -/
theorem Vtable.Shape.declaredIn_ne_iff {vtable : Vtable} {info : ClassInfo}
    {above : List ClassInfo} (shape : vtable.Shape (info :: above))
    (apart : ∀ upper ∈ above, upper.name ≠ info.name) {slot : VtableSlot}
    (member : slot ∈ vtable.slots) :
    slot.declaredIn ≠ info.name ↔
      ∃ upper ∈ above, upper.declares slot.source slot.params = true := by
  obtain ⟨younger, first, older, split, named, declares, undeclared⟩ :=
    shape.introduced slot member
  cases younger with
  | nil =>
    obtain ⟨rfl, rfl⟩ := List.cons_eq_cons.mp split
    refine iff_of_false (fun other => other named.symm) ?_
    rintro ⟨upper, inside, declaresToo⟩
    cases (undeclared upper inside).symm.trans declaresToo
  | cons youngest between =>
    obtain ⟨rfl, rfl⟩ := List.cons_eq_cons.mp split
    have inside : first ∈ between ++ first :: older :=
      List.mem_append_right _ List.mem_cons_self
    rw [← named]
    exact iff_of_true (apart first inside) ⟨first, inside, declares⟩

/-- A vtable has one slot of a signature that its lineage declares. -/
theorem Vtable.Shape.exists_slot {vtable : Vtable} {lineage : List ClassInfo}
    (shape : vtable.Shape lineage) {info : ClassInfo} (inside : info ∈ lineage) {source : Name}
    {params : List Ty} (declares : info.declares source params = true) :
    ∃ slot, ∀ other, other ∈ vtable.slots ∧ other.signature = (source, params) ↔ other = slot := by
  obtain ⟨slot, member, same⟩ :=
    List.mem_map.mp ((shape.signatures source params).mpr ⟨info, inside, declares⟩)
  refine ⟨slot, fun other => ⟨fun ⟨memberToo, sameToo⟩ => ?_, ?_⟩⟩
  · exact List.inj_on_of_nodup_map shape.distinct memberToo member (sameToo.trans same.symm)
  · rintro rfl
    exact ⟨member, same⟩

/-! ### Both -/

/-- The entries of a lineage are the class and those of the ancestors of its parent. -/
theorem ClassTable.filterMap_lineage {table : ClassTable} (closed : table.Closed) {name : Name}
    {info : ClassInfo} (found : table.class? name = some info) {classes : List Name}
    (lineage : IsLineage table.parentMap name classes) :
    classes.filterMap table.class? = info :: table.ancestors info.parent := by
  by_cases rootless : info.parent = Reserved.empty
  · cases lineage with
    | root _ =>
      rw [List.filterMap_cons_some found, rootless]
      rfl
    | child declared named _ _ _ =>
      rw [declared_of_class? found, Option.some.injEq] at declared
      exact absurd (declared.symm.trans rootless) named
  · have up := declares_iff.mpr ⟨declared_of_class? found, rootless⟩
    obtain ⟨older, rfl, rest⟩ := up.lineage lineage
    have known := (closed info (List.mem_of_find?_eq_some found)).resolve_left rootless
    rw [List.filterMap_cons_some found, ancestors_of_isLineage rest known rootless]

/-- **The marks agree with the slots**: in a closed hierarchy without cycles a virtual method is
marked as overriding exactly if the vtable of the parent has a slot of its name and parameter types,
and exactly if the slot of its own class comes from another class. -/
theorem overrides_agree (units : List SourceUnit) (record : MangleRecord)
    (closed : (ClassTable.ofUnits units).Closed)
    (acyclic : ∀ name, ¬(ClassTable.ofUnits units).Circular name) :
    ∃ set, VtableSet.ofTable (.ofUnits units) record = .ok set ∧
      ∀ name info, (ClassTable.ofUnits units).class? name = some info →
        ∀ method ∈ info.methods, method.flags.isVirtual = true →
          set.MarksAgree (.ofUnits units) info method := by
  obtain ⟨set, computed, shaped⟩ := VtableSet.exists_shaped (closed.rooted acyclic) record
  refine ⟨set, computed, fun name info found method declared isVirtual => ?_⟩
  obtain rfl := ClassTable.name_of_class? found
  obtain ⟨classes, vtable, lineage, here, shape, _⟩ :=
    shaped _ (ClassTable.contains_of_class? found)
  have marked := ClassTable.isOverride_iff found declared isVirtual
  have fills : method.fills method.name method.params = true :=
    MethodInfo.fills_iff.mpr ⟨isVirtual, rfl, rfl⟩
  have declares : info.declares method.name method.params = true :=
    List.any_eq_true.mpr ⟨method, declared, fills⟩
  rw [ClassTable.filterMap_lineage closed found lineage] at shape
  -- What the parent has slots for is what the classes from it on declare.
  have inherits : ∀ parent, (ClassTable.ofUnits units).Declares info.name parent →
      parent = info.parent ∧ (set.HasSlot parent method.name method.params ↔
        ∃ upper ∈ (ClassTable.ofUnits units).ancestors parent,
          upper.declares method.name method.params = true) := by
    intro parent up
    obtain ⟨declaredAbove, named⟩ := ClassTable.declares_iff.mp up
    rw [ClassTable.declared_of_class? found, Option.some.injEq] at declaredAbove
    subst declaredAbove
    have known := (closed info (List.mem_of_find?_eq_some found)).resolve_left named
    obtain ⟨older, inherited, rest, there, shapeAbove, _⟩ := shaped info.parent known
    rw [← ClassTable.ancestors_of_isLineage rest known named] at shapeAbove
    refine ⟨rfl, ⟨?_, fun declared => ⟨inherited, there, (shapeAbove.signatures _ _).mpr declared⟩⟩⟩
    rintro ⟨_, thereToo, slot⟩
    cases there.symm.trans thereToo
    exact (shapeAbove.signatures _ _).mp slot
  constructor
  · rw [marked]
    constructor
    · rintro ⟨upper, member, declared⟩
      have named : info.parent ≠ Reserved.empty := (ClassTable.inside_of_mem_ancestors member).2
      have up := ClassTable.declares_iff.mpr ⟨ClassTable.declared_of_class? found, named⟩
      exact ⟨_, up, (inherits _ up).2.mpr ⟨upper, member, declared⟩⟩
    · rintro ⟨parent, up, slot⟩
      obtain ⟨rfl, slots⟩ := inherits parent up
      exact slots.mp slot
  · obtain ⟨slot, only⟩ := shape.exists_slot List.mem_cons_self declares
    obtain ⟨member, same⟩ := (only slot).mpr rfl
    obtain ⟨source, params⟩ := Prod.mk.inj same
    refine ⟨vtable, slot, here, only, ?_⟩
    rw [marked, shape.declaredIn_ne_iff (fun upper => ?_) member, source, params]
    exact ClassTable.name_ne_of_mem_ancestors_parent (acyclic _) found

/-- A square's `area` is marked, and it fills a slot that comes from `Shape`. -/
theorem overrides_agree_shapes :
    (ClassTable.ofUnits [.shapes]).Closed ∧
      (∀ name, ¬(ClassTable.ofUnits [.shapes]).Circular name) ∧
      ∃ set info method, VtableSet.ofTable (.ofUnits [.shapes]) ⟨[]⟩ = .ok set ∧
        (ClassTable.ofUnits [.shapes]).class? "Square" = some info ∧ method ∈ info.methods ∧
        method.name = "area" ∧ method.flags.isVirtual = true ∧ method.flags.isOverride = true ∧
        set.MarksAgree (.ofUnits [.shapes]) info method := by
  have area : ((ClassTable.ofUnits [.shapes]).class? "Square").bind
      (·.methods.find? fun method => method.name == "area" && method.flags.isVirtual &&
        method.flags.isOverride) |>.isSome := by decide +kernel
  obtain ⟨method, chosen⟩ := Option.isSome_iff_exists.mp area
  obtain ⟨info, found, chosen⟩ := Option.bind_eq_some_iff.mp chosen
  have declared := List.mem_of_find?_eq_some chosen
  have marked := List.find?_some chosen
  rw [Bool.and_eq_true, Bool.and_eq_true, beq_iff_eq] at marked
  obtain ⟨⟨named, isVirtual⟩, isOverride⟩ := marked
  obtain ⟨before, built⟩ := exists_of_isOk
    (show (VtableSet.ofTable (.ofUnits [.shapes]) ⟨[]⟩).isOk = true by decide +kernel)
  obtain ⟨closed, acyclic⟩ := (ClassTable.closed_acyclic_iff (ClassTable.names_nodup_ofUnits _)).mpr
    (VtableSet.rooted_of_ofTable built)
  obtain ⟨set, computed, each⟩ := overrides_agree [.shapes] ⟨[]⟩ closed acyclic
  exact ⟨closed, acyclic, set, info, method, computed, found, declared, named, isVirtual,
    isOverride, each "Square" info found method declared isVirtual⟩

end ObjectLowering
