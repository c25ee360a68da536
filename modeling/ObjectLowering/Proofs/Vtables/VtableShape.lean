/-
**The shape of a vtable.**

A class adds its virtual methods one by one: a method takes over the slot of its signature, or
brings a new one to the end. So the slots of the parent come first, and a slot stays with the class
that was the first to declare its signature, counted from the root. The binding beside a slot
changes hands, and has a cast whenever it is not in the hands of that class.

* `Vtable.introducer?` is the class that introduced the slot of a signature;
  `Vtable.introducer?_along`: it is the one nearest to the root that declares the signature.
* `Vtable.along_aligned`: what a binding says of the slot beside it.
* `Vtable.Shape` says all of this of one vtable.
* **`vtables_shaped`**: in a closed hierarchy without cycles every class has a vtable of this shape,
  which starts with the slots of its parent.
-/

import ObjectLowering.Proofs.Hierarchy.Acyclic

namespace ObjectLowering

/-- Whether a class declares a virtual method of a signature. -/
def ClassInfo.declares (info : ClassInfo) (source : Name) (params : List Ty) : Bool :=
  info.methods.any (·.fills source params)

/-- The slots of a vtable and their bindings, given the class and its ancestors, root last. -/
structure Vtable.Shape (vtable : Vtable) (lineage : List ClassInfo) : Prop where
  /-- There are as many bindings as slots. -/
  length_eq : vtable.bindings.length = vtable.slots.length
  /-- A binding has its slot's name, and a cast exactly if another class introduced the slot. -/
  aligned : ∀ (position : Nat) (slot : VtableSlot) (binding : SlotBinding),
    vtable.slots[position]? = some slot → vtable.bindings[position]? = some binding →
      binding.slot = slot.name ∧ (binding.needsCast = true ↔ binding.owner ≠ slot.declaredIn)
  /-- No two slots have one signature. -/
  distinct : (vtable.slots.map (·.signature)).Nodup
  /-- The signatures are those of the virtual methods of the lineage. -/
  signatures : ∀ source params, (source, params) ∈ vtable.slots.map (·.signature) ↔
    ∃ info ∈ lineage, info.declares source params = true
  /-- A slot was introduced by the class nearest to the root that declares its signature. -/
  introduced : ∀ slot ∈ vtable.slots, ∃ younger info older, lineage = younger ++ info :: older ∧
    info.name = slot.declaredIn ∧ info.declares slot.source slot.params = true ∧
      ∀ above ∈ older, above.declares slot.source slot.params = false

namespace Vtable

variable {record : MangleRecord} {className source : Name} {params : List Ty}

/-! ### Who introduced a slot -/

/-- The class that introduced the slot of a signature. -/
def introducer? (vtable : Vtable) (source : Name) (params : List Ty) : Option Name :=
  (vtable.slots.find? (·.hasSignature source params)).map (·.declaredIn)

/-- A method introduces the slot of its signature unless there is one. -/
theorem introducer?_add (vtable : Vtable) (method : MethodRef × MethodInfo) :
    (vtable.add record className method).introducer? source params =
      (vtable.introducer? source params).or
        (if method.2.name == source && method.2.params == params then some className
          else none) := by
  unfold introducer?
  rw [slots_add, List.find?_append, Option.map_or]
  cases inherited : vtable.entries.any (·.slot.hasSignature method.2.name method.2.params) with
  | false =>
    refine congrArg (Option.or _) ?_
    rw [if_neg Bool.false_ne_true, List.find?_singleton]
    change Option.map _ (if (method.2.name == source && method.2.params == params) = true then
      _ else _) = _
    split <;> rfl
  | true =>
    rw [if_pos rfl, List.find?_nil, Option.map_none, Option.or_none]
    split
    · -- The slot of the signature is there already.
      rename_i same
      rw [Bool.and_eq_true, beq_iff_eq, beq_iff_eq] at same
      obtain ⟨rfl, rfl⟩ := same
      obtain ⟨entry, stored, matching⟩ := List.any_eq_true.mp inherited
      have found : (vtable.slots.find?
          (·.hasSignature method.2.name method.2.params)).isSome = true :=
        List.find?_isSome.mpr ⟨entry.slot, List.mem_map_of_mem stored, matching⟩
      obtain ⟨slot, found⟩ := Option.isSome_iff_exists.mp found
      rw [found]
      rfl
    · exact Option.or_none.symm

theorem introducer?_extend (vtable : Vtable) (info : ClassInfo) :
    (vtable.extend record info).introducer? source params =
      (vtable.introducer? source params).or
        (if info.declares source params then some info.name else none) := by
  have each (methods : List (MethodRef × MethodInfo)) (vtable : Vtable) :
      (methods.foldl (add record info.name) vtable).introducer? source params =
        (vtable.introducer? source params).or
          (if methods.any (fun method => method.2.name == source && method.2.params == params)
            then some info.name else none) := by
    induction methods generalizing vtable with
    | nil => exact Option.or_none.symm
    | cons method rest step =>
      rw [List.foldl_cons, step, introducer?_add, Option.or_assoc, List.any_cons]
      refine congrArg (Option.or _) ?_
      cases method.2.name == source && method.2.params == params <;> rfl
  have declares : (info.declaredMethods.filter (·.2.flags.isVirtual)).any
      (fun method => method.2.name == source && method.2.params == params) =
        info.declares source params := by
    calc _ = (info.methods.zipIdx.map Prod.fst).any (·.fills source params) := by
          unfold ClassInfo.declaredMethods
          rw [List.any_filter, List.any_map, List.any_map]
          rfl
      _ = info.declares source params := by
          rw [List.zipIdx_map_fst]
          rfl
  unfold extend
  rw [each, declares]

/-- **The slot of a signature was introduced by the class nearest to the root that declares it.** -/
theorem introducer?_along (table : ClassTable) (record : MangleRecord) (classes : List Name) :
    (along table record classes).introducer? source params =
      ((classes.filterMap table.class?).reverse.find? (·.declares source params)).map (·.name) := by
  have each (infos : List ClassInfo) (vtable : Vtable) :
      (infos.foldl (extend record) vtable).introducer? source params =
        (vtable.introducer? source params).or
          ((infos.find? (·.declares source params)).map (·.name)) := by
    induction infos generalizing vtable with
    | nil => exact Option.or_none.symm
    | cons info rest step =>
      rw [List.foldl_cons, step, introducer?_extend, Option.or_assoc, List.find?_cons]
      refine congrArg (Option.or _) ?_
      cases info.declares source params <;> rfl
  unfold along
  rw [each, List.filterMap_reverse]
  rfl

/-! ### Slots and bindings -/

/-- **A binding has the name of the slot beside it, and a cast exactly if another class introduced
the slot.** -/
theorem along_aligned (table : ClassTable) (record : MangleRecord) (classes : List Name) :
    ∀ entry ∈ (along table record classes).entries, entry.binding.slot = entry.slot.name ∧
      (entry.binding.needsCast = true ↔ entry.binding.owner ≠ entry.slot.declaredIn) := by
  refine along_induction (fun vtable => ∀ entry ∈ vtable.entries,
    entry.binding.slot = entry.slot.name ∧
      (entry.binding.needsCast = true ↔ entry.binding.owner ≠ entry.slot.declaredIn))
    (fun _ member => (nomatch member)) ?_
  intro vtable info method _ _ _ each
  rw [entries_add]
  refine forall_redefine each (fun entry _ _ => ⟨rfl, ?_⟩) ⟨rfl, ?_⟩
  · exact bne_iff_ne.trans ne_comm
  · exact iff_of_false Bool.false_ne_true fun other => other rfl

/-- A signature has a slot if somebody introduced one. -/
theorem isSome_introducer? {vtable : Vtable} :
    (vtable.introducer? source params).isSome = true ↔
      (source, params) ∈ vtable.slots.map (·.signature) := by
  unfold introducer?
  rw [Option.isSome_map, List.find?_isSome, List.mem_map]
  simp only [VtableSlot.hasSignature_iff]

theorem shape_along (table : ClassTable) (record : MangleRecord) (classes : List Name) :
    (along table record classes).Shape (classes.filterMap table.class?) where
  length_eq := by
    unfold bindings slots
    rw [List.length_map, List.length_map]
  aligned := by
    intro position slot binding slotHere bindingHere
    unfold slots at slotHere
    unfold bindings at bindingHere
    rw [List.getElem?_map] at slotHere bindingHere
    obtain ⟨entry, here, rfl⟩ := Option.map_eq_some_iff.mp slotHere
    rw [here] at bindingHere
    cases bindingHere
    exact along_aligned table record classes entry (List.mem_of_getElem? here)
  distinct := signatures_nodup table record classes
  signatures := by
    intro source params
    rw [← isSome_introducer?, introducer?_along, Option.isSome_map, List.find?_isSome]
    simp only [List.mem_reverse]
  introduced := by
    intro slot member
    have found := find?_of_nodup_map (signatures_nodup table record classes) member
      fun _ => VtableSlot.hasSignature_iff
    have introduces : (along table record classes).introducer? slot.source slot.params =
        some slot.declaredIn := congrArg (Option.map VtableSlot.declaredIn) found
    rw [introducer?_along] at introduces
    obtain ⟨info, first, named⟩ := Option.map_eq_some_iff.mp introduces
    obtain ⟨declares, older, younger, split, above⟩ := List.find?_eq_some_iff_append.mp first
    refine ⟨younger.reverse, info, older.reverse, ?_, named, declares, fun other member => ?_⟩
    · rw [← List.reverse_reverse (classes.filterMap table.class?), split]
      simp
    · exact (Bool.not_eq_true' _).mp (above other (List.mem_reverse.mp member))

end Vtable

/-- Where every class has a lineage, every class has a vtable of this shape. -/
theorem VtableSet.exists_shaped {table : ClassTable} (rooted : table.Rooted)
    (record : MangleRecord) :
    ∃ set, VtableSet.ofTable table record = .ok set ∧
      ∀ name, table.contains name = true → ∃ classes vtable,
        IsLineage table.parentMap name classes ∧ set.get? name = some vtable ∧
        vtable.Shape (classes.filterMap table.class?) ∧
        ∀ parent, table.Declares name parent →
          ∃ upper, set.get? parent = some upper ∧ upper.slots <+: vtable.slots := by
  obtain ⟨set, computed⟩ := VtableSet.exists_ofTable rooted record
  refine ⟨set, computed, fun name inside => ?_⟩
  obtain ⟨classes, lineage, built⟩ := VtableSet.get?_of_contains computed inside
  refine ⟨classes, _, lineage, built, Vtable.shape_along table record classes, ?_⟩
  intro parent up
  obtain ⟨older, rfl, rest⟩ := up.lineage lineage
  have known := ((ClassTable.rooted_iff.mp rooted name inside).upward (.single up)).inside
  obtain ⟨others, upper, above⟩ := VtableSet.get?_of_contains computed known
  rw [← rest.unique upper] at above
  refine ⟨_, above, ?_⟩
  rw [← List.singleton_append, Vtable.along_append]
  exact Vtable.slots_foldl _ _

/-- **Every class of a closed hierarchy without cycles has a vtable of this shape**, whose first
slots are those of its parent. -/
theorem vtables_shaped {table : ClassTable} (closed : table.Closed)
    (acyclic : ∀ name, ¬table.Circular name) (record : MangleRecord) :
    ∃ set, VtableSet.ofTable table record = .ok set ∧
      ∀ name, table.contains name = true → ∃ classes vtable,
        IsLineage table.parentMap name classes ∧ set.get? name = some vtable ∧
        vtable.Shape (classes.filterMap table.class?) ∧
        ∀ parent, table.Declares name parent →
          ∃ upper, set.get? parent = some upper ∧ upper.slots <+: vtable.slots :=
  VtableSet.exists_shaped (closed.rooted acyclic) record

/-- The square fills the slot of the shape by a cast. -/
theorem vtables_shaped_shapes :
    (ClassTable.ofUnits [.shapes]).Closed ∧
      (∀ name, ¬(ClassTable.ofUnits [.shapes]).Circular name) ∧
      ∃ set vtable upper, VtableSet.ofTable (.ofUnits [.shapes]) ⟨[]⟩ = .ok set ∧
        set.get? "Square" = some vtable ∧ set.get? "Shape" = some upper ∧
        vtable.Shape (["Square", "Shape", "Object"].filterMap
          (ClassTable.ofUnits [.shapes]).class?) ∧
        upper.slots <+: vtable.slots ∧
        vtable.bindings[4]? = some ⟨"area", "Square", "area", true⟩ := by
  have binding : (VtableSet.ofTable (.ofUnits [.shapes]) ⟨[]⟩).toOption.bind
      (fun set => (set.get? "Square").bind (·.bindings[4]?)) =
        some ⟨"area", "Square", "area", true⟩ := by decide +kernel
  have walked : Lineage.of (ClassTable.ofUnits [.shapes]).parentMap "Square" =
      .complete ["Square", "Shape", "Object"] := by decide +kernel
  obtain ⟨set, built⟩ := exists_of_isOk
    (show (VtableSet.ofTable (.ofUnits [.shapes]) ⟨[]⟩).isOk = true by decide +kernel)
  obtain ⟨closed, acyclic⟩ := (ClassTable.closed_acyclic_iff (ClassTable.names_nodup_ofUnits _)).mpr
    (VtableSet.rooted_of_ofTable built)
  obtain ⟨other, again, each⟩ := vtables_shaped closed acyclic ⟨[]⟩
  cases built.symm.trans again
  obtain ⟨classes, vtable, lineage, here, shape, child⟩ := each "Square" (by decide +kernel)
  rw [lineage.unique (isLineage_of_complete walked)] at shape
  obtain ⟨upper, above, front⟩ := child "Shape" (by decide +kernel)
  rw [built] at binding
  refine ⟨closed, acyclic, set, vtable, upper, built, here, above, shape, front, ?_⟩
  rw [← binding]
  show _ = (set.get? "Square").bind _
  rw [here]
  rfl

end ObjectLowering
