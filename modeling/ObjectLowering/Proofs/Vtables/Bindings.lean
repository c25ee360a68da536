/-
**What a class finds in its vtable.**

A vtable grows along a lineage, root first: `redefine` keeps every slot where it is, and each class
rebinds the slots whose signature it declares. So a slot stands at one position in the vtables of
all classes below the one that introduced it, and what fills it is the nearest declaration.

* `Vtable.slots_extend`: a class keeps the slots of its parent in place.
* `Vtable.signatures_nodup`: no two slots of a vtable have one signature.
* `Vtable.along_induction`: what adding one virtual method keeps holds of every vtable.
* `Vtable.implementation?_foldl`: a slot is filled by the last class that declares its signature.
* **`VtableSet.get?_of_isSubclass`**: a slot of a class is at the same position in every class below
  it, filled by the nearest class that declares its signature.
-/

import Mathlib.Data.List.Nodup
import ObjectLowering.Hierarchy.Vtable
import ObjectLowering.Proofs.Hierarchy.Lineage
import ObjectLowering.Proofs.Lowering.Success

namespace ObjectLowering

/-! ### Inherited lists -/

section Redefine

variable {α β : Type} (redefines : α → Bool) (replace : α → α) (fresh : α) (inherited : List α)

/-- A key that replacing keeps is read in the old order, with at most the new entry's behind. -/
theorem map_redefine (key : α → β) (kept : ∀ entry, key (replace entry) = key entry) :
    (redefine redefines replace fresh inherited).map key =
      inherited.map key ++ if inherited.any redefines then [] else [key fresh] := by
  induction inherited with
  | nil => rfl
  | cons entry rest step =>
    unfold redefine
    cases here : redefines entry with
    | true => simp [here, kept]
    | false => simp [here, step]

theorem find?_redefine_self (kept : ∀ entry, redefines (replace entry) = redefines entry)
    (new : redefines fresh = true) :
    (redefine redefines replace fresh inherited).find? redefines =
      some (((inherited.find? redefines).map replace).getD fresh) := by
  induction inherited with
  | nil => simp [redefine, new]
  | cons entry rest step =>
    unfold redefine
    cases here : redefines entry with
    | true => simp [here, kept]
    | false => simp [here, step]

theorem find?_redefine_other {other : α → Bool}
    (apart : ∀ entry, redefines entry = true → other entry = false ∧ other (replace entry) = false)
    (new : other fresh = false) :
    (redefine redefines replace fresh inherited).find? other = inherited.find? other := by
  induction inherited with
  | nil => simp [redefine, new]
  | cons entry rest step =>
    unfold redefine
    cases here : redefines entry with
    | true => simp [apart entry here]
    | false =>
      rw [if_neg Bool.false_ne_true, List.find?_cons, List.find?_cons, step]

end Redefine

/-- Where keys differ, an item is found by its own key. -/
theorem find?_of_nodup_map {α κ : Type} {items : List α} {key : α → κ}
    (distinct : (items.map key).Nodup) {item : α} (member : item ∈ items) {test : α → Bool}
    (tests : ∀ other, test other = true ↔ key other = key item) : items.find? test = some item := by
  induction items with
  | nil => cases member
  | cons first rest step =>
    rw [List.map_cons, List.nodup_cons] at distinct
    rcases List.mem_cons.mp member with rfl | later
    · exact List.find?_cons_of_pos ((tests item).mpr rfl)
    · refine (List.find?_cons_of_neg fun same => distinct.1 ?_).trans (step distinct.2 later)
      rw [(tests first).mp same]
      exact List.mem_map_of_mem later

/-! ### Virtual methods by signature -/

/-- A slot is told from others by its source name and parameter types. -/
def VtableSlot.signature (slot : VtableSlot) : Name × List Ty := (slot.source, slot.params)

/-- Whether a method fills the slots of a signature. -/
def MethodInfo.fills (method : MethodInfo) (source : Name) (params : List Ty) : Bool :=
  method.flags.isVirtual && (method.name == source && method.params == params)

/-- The last virtual method of a signature that a class declares. -/
def ClassInfo.lastVirtual? (info : ClassInfo) (source : Name) (params : List Ty) :
    Option (MethodRef × MethodInfo) :=
  (info.declaredMethods.filter (·.2.fills source params)).getLast?

/-- The name under which a method is lowered: the one it was given, else its source name. -/
def MangleRecord.implName (record : MangleRecord) (method : MethodRef × MethodInfo) : Name :=
  (record.mangled? method.1).getD method.2.name

theorem VtableSlot.hasSignature_iff {slot : VtableSlot} {source : Name} {params : List Ty} :
    slot.hasSignature source params = true ↔ slot.signature = (source, params) := by
  unfold hasSignature signature
  rw [Bool.and_eq_true, beq_iff_eq, beq_iff_eq, Prod.mk.injEq]

namespace Vtable

variable {record : MangleRecord} {className source : Name} {params : List Ty}

/-- What is found under a signature: the class that fills the slot and the name it does so with. -/
def implementation? (vtable : Vtable) (source : Name) (params : List Ty) : Option (Name × Name) :=
  (vtable.entries.find? (·.slot.hasSignature source params)).map fun entry =>
    (entry.binding.owner, entry.binding.implName)

/-! ### One method -/

/-- A slot that a method of a class takes over. -/
def rebound (record : MangleRecord) (className : Name) (method : MethodRef × MethodInfo)
    (entry : VtableEntry) : VtableEntry :=
  { entry with
    binding := ⟨entry.slot.name, className, record.implName method,
      entry.slot.declaredIn != className⟩ }

/-- The slot that a method of a class introduces. -/
def introduced (record : MangleRecord) (className : Name) (vtable : Vtable)
    (method : MethodRef × MethodInfo) : VtableEntry :=
  let slotName := vtable.slotName className (record.implName method)
  ⟨⟨slotName, method.2.name, method.2.params, method.2.ret, className⟩,
    ⟨slotName, className, record.implName method, false⟩⟩

theorem entries_add (vtable : Vtable) (method : MethodRef × MethodInfo) :
    (vtable.add record className method).entries =
      redefine (·.slot.hasSignature method.2.name method.2.params) (rebound record className method)
        (introduced record className vtable method) vtable.entries := rfl

theorem slots_add (vtable : Vtable) (method : MethodRef × MethodInfo) :
    (vtable.add record className method).slots = vtable.slots ++
      if vtable.entries.any (·.slot.hasSignature method.2.name method.2.params) then []
      else [(introduced record className vtable method).slot] := by
  unfold slots
  rw [entries_add]
  exact map_redefine _ _ _ vtable.entries (·.slot) fun _ => rfl

theorem signatures_nodup_add {vtable : Vtable} (distinct : (vtable.slots.map (·.signature)).Nodup)
    (method : MethodRef × MethodInfo) :
    ((vtable.add record className method).slots.map (·.signature)).Nodup := by
  rw [slots_add]
  split
  · rwa [List.append_nil]
  · rename_i absent
    rw [List.map_append, List.nodup_append]
    refine ⟨distinct, List.pairwise_singleton _ _, ?_⟩
    rintro _ inside _ new rfl
    obtain ⟨slot, member, same⟩ := List.mem_map.mp inside
    obtain ⟨entry, stored, rfl⟩ := List.mem_map.mp member
    apply absent
    refine List.any_eq_true.mpr ⟨entry, stored, VtableSlot.hasSignature_iff.mpr ?_⟩
    rw [same]
    exact List.mem_singleton.mp new

/-- **A method fills the slot of its signature and no other.** -/
theorem implementation?_add (vtable : Vtable) (method : MethodRef × MethodInfo) :
    (vtable.add record className method).implementation? source params =
      if method.2.name == source && method.2.params == params then
        some (className, record.implName method)
      else vtable.implementation? source params := by
  unfold implementation?
  rw [entries_add]
  split
  · rename_i same
    obtain ⟨rfl, rfl⟩ : method.2.name = source ∧ method.2.params = params := by
      rw [Bool.and_eq_true, beq_iff_eq, beq_iff_eq] at same
      exact same
    rw [find?_redefine_self (fun entry => entry.slot.hasSignature method.2.name method.2.params)
      (rebound record className method) _ _ (fun _ => rfl) (VtableSlot.hasSignature_iff.mpr rfl)]
    cases vtable.entries.find? _ <;> rfl
  · rename_i different
    -- A slot has one signature, so it cannot be that of the method and the one asked for.
    have apart {slot : VtableSlot} (here : slot.signature = (method.2.name, method.2.params)) :
        slot.hasSignature source params = false := by
      refine Bool.eq_false_iff.mpr fun both => different ?_
      rw [VtableSlot.hasSignature_iff, here, Prod.mk.injEq] at both
      rw [both.1, both.2, Bool.and_eq_true, beq_iff_eq, beq_iff_eq]
      exact ⟨rfl, rfl⟩
    have new :
        (introduced record className vtable method).slot.hasSignature source params = false :=
      apart rfl
    refine congrArg _ (find?_redefine_other _ _ _ _ (fun entry here => ?_) new)
    have there := apart (VtableSlot.hasSignature_iff.mp here)
    exact ⟨there, there⟩

/-! ### One class -/

theorem slots_extend (vtable : Vtable) (info : ClassInfo) :
    vtable.slots <+: (vtable.extend record info).slots := by
  unfold extend
  generalize info.declaredMethods.filter _ = methods
  induction methods generalizing vtable with
  | nil => exact List.prefix_rfl
  | cons method rest step =>
    have first : vtable.slots <+: (vtable.add record info.name method).slots := by
      rw [slots_add]
      exact List.prefix_append _ _
    exact first.trans (step _)

/-- **A class fills a slot with its last virtual method of the signature**, if it has one. -/
theorem implementation?_extend (vtable : Vtable) (info : ClassInfo) :
    (vtable.extend record info).implementation? source params =
      ((info.lastVirtual? source params).map fun method =>
        (info.name, record.implName method)).or (vtable.implementation? source params) := by
  have each : ∀ (methods : List (MethodRef × MethodInfo)) (vtable : Vtable),
      (methods.foldl (add record info.name) vtable).implementation? source params =
        (((methods.filter fun method =>
          method.2.name == source && method.2.params == params).getLast?).map fun method =>
            (info.name, record.implName method)).or (vtable.implementation? source params) := by
    intro methods
    induction methods with
    | nil => intro vtable; rfl
    | cons method rest step =>
      intro vtable
      rw [List.foldl_cons, step, implementation?_add]
      cases same : method.2.name == source && method.2.params == params with
      | false => rw [List.filter_cons_of_neg (by simp [same])]; rfl
      | true =>
        rw [if_pos rfl, List.filter_cons, if_pos same, List.getLast?_cons]
        cases (rest.filter _).getLast? <;> rfl
  unfold extend ClassInfo.lastVirtual?
  rw [each, List.filter_filter]
  congr 4
  funext method
  exact Bool.and_comm _ _

/-! ### A lineage -/

theorem slots_foldl (infos : List ClassInfo) (vtable : Vtable) :
    vtable.slots <+: (infos.foldl (extend record) vtable).slots := by
  induction infos generalizing vtable with
  | nil => exact List.prefix_rfl
  | cons info rest step => exact (slots_extend vtable info).trans (step _)

/-- **What adding the virtual methods of its classes keeps holds of the vtable of a lineage.** -/
theorem along_induction {table : ClassTable} {classes : List Name} (property : Vtable → Prop)
    (start : property empty)
    (step : ∀ vtable info method, (∃ name ∈ classes, table.class? name = some info) →
      method ∈ info.declaredMethods → method.2.flags.isVirtual = true → property vtable →
      property (vtable.add record info.name method)) :
    property (along table record classes) := by
  unfold along
  have known : ∀ info ∈ classes.reverse.filterMap table.class?,
      ∃ name ∈ classes, table.class? name = some info := by
    intro info member
    obtain ⟨name, onWay, found⟩ := List.mem_filterMap.mp member
    exact ⟨name, List.mem_reverse.mp onWay, found⟩
  refine List.foldlRecOn _ _ start fun vtable holds info member => ?_
  unfold extend
  refine List.foldlRecOn _ _ holds fun vtable holds method inside => ?_
  obtain ⟨declared, isVirtual⟩ := List.mem_filter.mp inside
  exact step vtable info method (known info member) declared isVirtual holds

/-- **No two slots of a vtable have one signature.** -/
theorem signatures_nodup (table : ClassTable) (record : MangleRecord) (classes : List Name) :
    ((along table record classes).slots.map (·.signature)).Nodup :=
  along_induction (fun vtable => (vtable.slots.map (·.signature)).Nodup) List.nodup_nil
    fun _ _ method _ _ _ distinct => signatures_nodup_add distinct method

/-- A binding stands at the position of its slot. -/
theorem names_slots_along (table : ClassTable) (record : MangleRecord) (classes : List Name) :
    (along table record classes).slots.map (·.name) =
      (along table record classes).bindings.map (·.slot) := by
  have each : ∀ entry ∈ (along table record classes).entries,
      entry.slot.name = entry.binding.slot := by
    refine along_induction (fun vtable => ∀ entry ∈ vtable.entries,
      entry.slot.name = entry.binding.slot) (fun _ member => (nomatch member)) ?_
    intro vtable info method _ _ _ each
    rw [entries_add]
    exact forall_redefine each (fun _ _ _ => rfl) rfl
  unfold slots bindings
  rw [List.map_map, List.map_map]
  exact List.map_congr_left each

/-- **A slot is filled by the last class that declares its signature.** -/
theorem implementation?_foldl (infos : List ClassInfo) (vtable : Vtable) :
    (infos.foldl (extend record) vtable).implementation? source params =
      (infos.reverse.findSome? fun info => (info.lastVirtual? source params).map fun method =>
        (info.name, record.implName method)).or (vtable.implementation? source params) := by
  induction infos generalizing vtable with
  | nil => rfl
  | cons info rest step =>
    rw [List.foldl_cons, step, implementation?_extend, List.reverse_cons, List.findSome?_append,
      Option.or_assoc]
    rw [List.findSome?_singleton]

/-- The vtable of a class continues that of each class above it. -/
theorem along_append (table : ClassTable) (record : MangleRecord) (younger older : List Name) :
    along table record (younger ++ older) =
      (younger.reverse.filterMap table.class?).foldl (extend record)
        (along table record older) := by
  unfold along
  rw [List.reverse_append, List.filterMap_append, List.foldl_append]

/-- **In the vtable of a lineage each slot is filled by the nearest class that declares it.** -/
theorem implementation?_along (table : ClassTable) (record : MangleRecord) (classes : List Name) :
    (along table record classes).implementation? source params =
      (classes.filterMap table.class?).findSome? fun info =>
        (info.lastVirtual? source params).map fun method =>
          (info.name, record.implName method) := by
  unfold along
  rw [implementation?_foldl, ← List.filterMap_reverse, List.reverse_reverse]
  exact Option.or_none

theorem binding_of_slot {vtable : Vtable} (distinct : (vtable.slots.map (·.signature)).Nodup)
    {position : Nat} {slot : VtableSlot} (there : vtable.slots[position]? = some slot) :
    ∃ binding, vtable.bindings[position]? = some binding ∧
      vtable.implementation? slot.source slot.params =
        some (binding.owner, binding.implName) := by
  unfold slots at there
  rw [List.getElem?_map] at there
  obtain ⟨entry, stored, rfl⟩ := Option.map_eq_some_iff.mp there
  refine ⟨entry.binding, by unfold bindings; rw [List.getElem?_map, stored]; rfl, ?_⟩
  unfold implementation?
  unfold slots at distinct
  rw [List.map_map] at distinct
  rw [find?_of_nodup_map distinct (List.mem_of_getElem? stored) fun _ =>
    VtableSlot.hasSignature_iff]
  rfl

end Vtable

/-! ### The vtables of a program -/

namespace VtableSet

variable {table : ClassTable} {record : MangleRecord} {set : VtableSet}

/-- Where all vtables could be built, that of a class is built along its lineage. -/
theorem get?_of_contains (computed : ofTable table record = .ok set) {name : Name}
    (inside : table.contains name = true) :
    ∃ classes, IsLineage table.parentMap name classes ∧
      set.get? name = some (.along table record classes) := by
  obtain ⟨results, done, rfl⟩ := ok_of_map computed
  have member := ClassTable.mem_classes_parentMap.mpr inside
  have each := ok_of_mapM done
  clear computed done
  unfold get?
  generalize table.parentMap.classes = names at member each
  induction each with
  | nil => cases member
  | @cons first result _ _ built _ step =>
    obtain ⟨vtable, rfl⟩ : ∃ vtable, result = (first, vtable) := by
      unfold ofClass at built
      split at built <;> cases built
      exact ⟨_, rfl⟩
    rw [List.lookup_cons]
    by_cases same : name = first
    · subst same
      unfold ofClass at built
      split at built
      · rename_i classes complete
        cases built
        rw [beq_self_eq_true]
        exact ⟨classes, isLineage_of_complete complete, rfl⟩
      · cases built
      · cases built
    · rw [beq_false_of_ne same]
      exact step ((List.mem_cons.mp member).resolve_left same)

/-- Only a class of the table has a vtable. -/
theorem contains_of_get? (computed : ofTable table record = .ok set) {name : Name}
    {vtable : Vtable} (found : set.get? name = some vtable) : table.contains name = true := by
  obtain ⟨results, done, rfl⟩ := ok_of_map computed
  have each := ok_of_mapM done
  obtain ⟨before, behind, split, _⟩ := List.lookup_eq_some_iff.mp found
  have listed : (name, vtable) ∈ results := by
    rw [show results = before ++ (name, vtable) :: behind from split]
    exact List.mem_append_right _ List.mem_cons_self
  obtain ⟨first, member, built⟩ := exists_of_mem_right each listed
  have named : first = name := by
    unfold ofClass at built
    split at built <;> cases built
    rfl
  subst named
  exact ClassTable.mem_classes_parentMap.mp member

theorem get?_of_not_contains (computed : ofTable table record = .ok set) {name : Name}
    (outside : table.contains name = false) : set.get? name = none := by
  refine Option.eq_none_iff_forall_ne_some.mpr fun vtable found => ?_
  cases outside.symm.trans (contains_of_get? computed found)

/-- No slot stands at two positions of a vtable. -/
theorem slots_nodup (computed : ofTable table record = .ok set) {name : Name}
    (inside : table.contains name = true) {vtable : Vtable} (found : set.get? name = some vtable) :
    vtable.slots.Nodup := by
  obtain ⟨classes, _, built⟩ := get?_of_contains computed inside
  rw [found, Option.some.injEq] at built
  rw [built]
  exact List.Nodup.of_map _ (Vtable.signatures_nodup table record classes)

/-- **A slot of a class is at the same position in every class below it**, filled by the nearest
class that declares its signature with the last of its declarations. -/
theorem get?_of_isSubclass (computed : ofTable table record = .ok set) {above below : Name}
    (sub : table.isSubclass below above = true) {upper : Vtable}
    (found : set.get? above = some upper) {position : Nat} {slot : VtableSlot}
    (there : upper.slots[position]? = some slot) :
    ∃ lower binding, set.get? below = some lower ∧ lower.slots[position]? = some slot ∧
      lower.bindings[position]? = some binding ∧
      (table.ancestors below).findSome? (fun info =>
        (info.lastVirtual? slot.source slot.params).map fun method =>
          (info.name, record.implName method)) = some (binding.owner, binding.implName) := by
  obtain ⟨info, member, rfl⟩ := ClassTable.isSubclass_iff_mem_ancestors.mp sub
  obtain ⟨inside, named⟩ := ClassTable.inside_of_mem_ancestors member
  obtain ⟨classes, lineage, lowerFound⟩ := get?_of_contains computed inside
  obtain ⟨younger, older, rfl, upperLineage⟩ :=
    lineage.split (ClassTable.mem_of_isSubclass lineage sub)
  have upperInside : table.contains info.name = true :=
    ClassTable.contains_of_class? (ClassTable.class?_of_mem_ancestors member)
  obtain ⟨others, sameLineage, upperFound⟩ := get?_of_contains computed upperInside
  rw [← upperLineage.unique sameLineage, found, Option.some.injEq] at upperFound
  have kept : upper.slots <+: (Vtable.along table record (younger ++ older)).slots := by
    rw [upperFound, Vtable.along_append]
    exact Vtable.slots_foldl _ _
  have still : (Vtable.along table record (younger ++ older)).slots[position]? = some slot := by
    obtain ⟨behind, split⟩ := kept
    rw [← split, List.getElem?_append_left (List.getElem?_eq_some_iff.mp there).1]
    exact there
  obtain ⟨binding, bound, filled⟩ :=
    Vtable.binding_of_slot (Vtable.signatures_nodup table record _) still
  refine ⟨_, binding, lowerFound, still, bound, ?_⟩
  rw [ClassTable.ancestors_of_isLineage lineage inside named, ← filled]
  exact (Vtable.implementation?_along table record _).symm

/-- A class has a slot for every virtual method that it declares. -/
theorem slotFor?_of_declared (computed : ofTable table record = .ok set) {info : ClassInfo}
    (found : table.class? info.name = some info) {method : MethodRef × MethodInfo}
    (declared : method ∈ info.declaredMethods) (isVirtual : method.2.flags.isVirtual = true) :
    ∃ (vtable : Vtable) (position : Nat) (slot : VtableSlot),
      set.get? info.name = some vtable ∧
      set.slotFor? info.name method.2.name method.2.params = some slot ∧
      vtable.slots[position]? = some slot ∧ slot.signature = (method.2.name, method.2.params) := by
  have inside : table.contains info.name = true := ClassTable.contains_of_class? found
  obtain ⟨classes, lineage, vtableFound⟩ := get?_of_contains computed inside
  have filled : ((Vtable.along table record classes).implementation? method.2.name
      method.2.params).isSome := by
    rw [Vtable.implementation?_along]
    obtain ⟨older, rfl⟩ := lineage.head_eq
    rw [List.filterMap_cons_some found, List.findSome?_cons]
    have last : method ∈ info.declaredMethods.filter (·.2.fills method.2.name method.2.params) := by
      refine List.mem_filter.mpr ⟨declared, ?_⟩
      unfold MethodInfo.fills
      rw [isVirtual, beq_self_eq_true, beq_self_eq_true]
      rfl
    obtain ⟨final, isLast⟩ := Option.ne_none_iff_exists'.mp
      (mt List.getLast?_eq_none_iff.mp (List.ne_nil_of_mem last))
    unfold ClassInfo.lastVirtual?
    rw [isLast]
    rfl
  unfold Vtable.implementation? at filled
  rw [Option.isSome_map] at filled
  obtain ⟨entry, entryFound⟩ := Option.isSome_iff_exists.mp filled
  obtain ⟨position, inside, same⟩ := List.getElem_of_mem (List.mem_of_find?_eq_some entryFound)
  refine ⟨_, position, entry.slot, vtableFound, ?_, ?_, ?_⟩
  · unfold slotFor?
    rw [vtableFound]
    show ((Vtable.along table record classes).entries.map (·.slot)).find? _ = _
    rw [List.find?_map]
    exact congrArg (Option.map (·.slot)) entryFound
  · unfold Vtable.slots
    rw [List.getElem?_map, List.getElem?_eq_getElem inside, same]
    rfl
  · have matching := List.find?_some entryFound
    exact VtableSlot.hasSignature_iff.mp matching

end VtableSet

end ObjectLowering
