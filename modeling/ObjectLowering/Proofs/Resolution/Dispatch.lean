/-
**A virtual call reaches the nearest override.**

A call that was recorded as virtual has a target that some class declares, so this class has a slot
for it. The class of the receiver at run time is at or below that class; there the slot stands at
the same position, filled by the nearest class that declares a virtual method of the signature.

* `ClassTable.nearestVirtual?` is the method that a call should run.
* **`virtual_call_reaches_nearest`**: it is the one that the vtable of the receiver's class has at
  the position of the slot, and the class that was searched is such a class.
-/

import ObjectLowering.Proofs.Resolution.Recorded
import ObjectLowering.Proofs.Resolution.Stages
import ObjectLowering.Proofs.Vtables.Bindings

namespace ObjectLowering

open Source (Expr SourceUnit ClassDecl)

/-- The nearest class at or above the given one that declares a virtual method of a signature, with
the last such method of it. -/
def ClassTable.nearestVirtual? (table : ClassTable) (className source : Name) (params : List Ty) :
    Option (ClassInfo × MethodRef × MethodInfo) :=
  (table.ancestors className).findSome? fun info =>
    (info.lastVirtual? source params).map (info, ·)

theorem DispatchKind.isVirtual_of_classify {flags : MethodFlags} {viaSuper : Bool}
    (kind : virtual = classify flags viaSuper) : flags.isVirtual = true := by
  unfold classify at kind
  split at kind
  · cases kind
  · split at kind
    · cases kind
    · rename_i direct
      rw [Bool.or_eq_true, not_or, Bool.not_eq_true', Bool.not_eq_false] at direct
      exact direct.2

/-- What the name of an implementation is read off is the nearest method itself. -/
theorem ClassTable.nearestVirtual?_of_names {table : ClassTable} {record : MangleRecord}
    {className source : Name} {params : List Ty} {owner implName : Name}
    (named : (table.ancestors className).findSome? (fun info =>
      (info.lastVirtual? source params).map fun method => (info.name, record.implName method)) =
        some (owner, implName)) :
    ∃ nearest last, table.nearestVirtual? className source params = some (nearest, last) ∧
      owner = nearest.name ∧ implName = record.implName last := by
  unfold nearestVirtual?
  generalize table.ancestors className = above at named ⊢
  induction above with
  | nil => cases named
  | cons info rest step =>
    rw [List.findSome?_cons] at named ⊢
    cases found : info.lastVirtual? source params with
    | none =>
      rw [found] at named
      exact step named
    | some last =>
      rw [found] at named
      cases named
      exact ⟨info, last, rfl, rfl, rfl⟩

namespace Program

variable {units : List SourceUnit} {index : Nat}

theorem unit_of_notes {notes : Annotations} (here : (ofUnits units).notes[index]? = some notes) :
    ∃ unit, units[index]? = some unit ∧ notes = .ofUnit (.ofUnits units) index unit := by
  have inside : index < units.length := by
    have bound := (List.getElem?_eq_some_iff.mp here).1
    unfold ofUnits at bound
    rwa [List.length_map, List.length_zipIdx] at bound
  have there : units[index]? = some units[index] := List.getElem?_eq_getElem inside
  refine ⟨_, there, ?_⟩
  rw [notes_ofUnits there, Option.some.injEq] at here
  exact here.symm

/-- The vtables of a program are built with the names that its facts hold. -/
theorem vtables_of_facts {names : NameTable} {options : LoweringOptions} {facts : Facts}
    (computed : (ofUnits units).facts names options = .ok facts) :
    VtableSet.ofTable (.ofUnits units) facts.mangle.record = .ok facts.vtables := by
  obtain ⟨_, _, computed⟩ := ok_of_bind computed
  obtain ⟨_, built, computed⟩ := ok_of_bind computed
  cases computed
  exact built

end Program

/-- What a class at or below that of a virtual method has at the position of the method's slot. -/
def Vtable.Runs (lower : Vtable) (table : ClassTable) (record : MangleRecord) (below : Name)
    (position : Nat) (slot : VtableSlot) (info : MethodInfo) : Prop :=
  lower.slots[position]? = some slot ∧ ∃ binding nearest last,
    lower.bindings[position]? = some binding ∧
    table.nearestVirtual? below info.name info.params = some (nearest, last) ∧
    binding.owner = nearest.name ∧ binding.implName = record.implName last

/-- The slot of a declared virtual method is found at one position, and every class below runs the
nearest override from there. -/
theorem VtableSet.runs_of_declared {table : ClassTable} {record : MangleRecord} {set : VtableSet}
    (computed : ofTable table record = .ok set) {decl : ClassInfo}
    (found : table.class? decl.name = some decl) {method : MethodRef × MethodInfo}
    (declared : method ∈ decl.declaredMethods) (isVirtual : method.2.flags.isVirtual = true) :
    ∃ (upper : Vtable) (position : Nat) (slot : VtableSlot), set.get? decl.name = some upper ∧
      set.slotFor? decl.name method.2.name method.2.params = some slot ∧
      (∀ other, upper.slots[other]? = some slot ↔ other = position) ∧
      ∀ below, table.isSubclass below decl.name = true → ∃ lower, set.get? below = some lower ∧
        lower.Runs table record below position slot method.2 := by
  obtain ⟨upper, position, slot, upperFound, slotFound, there, signed⟩ :=
    slotFor?_of_declared computed found declared isVirtual
  have inside : table.contains decl.name = true := ClassTable.contains_of_class? found
  refine ⟨upper, position, slot, upperFound, slotFound, fun other => ?_, fun below sub => ?_⟩
  · refine ⟨fun again => ?_, fun same => by rw [same]; exact there⟩
    have distinct := slots_nodup computed inside upperFound
    obtain ⟨bound, _⟩ := List.getElem?_eq_some_iff.mp again
    exact (List.getElem?_inj bound distinct).mp (again.trans there.symm)
  · obtain ⟨lower, binding, lowerFound, still, bound, filled⟩ :=
      get?_of_isSubclass computed sub upperFound there
    obtain ⟨sourceSame, paramsSame⟩ := Prod.mk.inj signed
    rw [sourceSame, paramsSame] at filled
    obtain ⟨nearest, last, chosen, owned, named⟩ := ClassTable.nearestVirtual?_of_names filled
    exact ⟨lower, lowerFound, still, binding, nearest, last, bound, chosen, owned, named⟩

/-- **A virtual call reaches the nearest override**, whatever class at or below that of its target
the receiver has; and the class that was searched for the target is such a class. -/
theorem virtual_call_reaches_nearest {units : List SourceUnit} {names : NameTable}
    {options : LoweringOptions} {facts : Facts}
    (computed : (Program.ofUnits units).facts names options = .ok facts) {index : Nat}
    {notes : Annotations} (here : (Program.ofUnits units).notes[index]? = some notes)
    {id : NodeId} {target : MethodRef} (recorded : notes.call? id = some ⟨target, .virtual⟩) :
    let table := ClassTable.ofUnits units
    (∃ info upper position slot, table.method? target = some info ∧
      facts.vtables.get? target.className = some upper ∧
      facts.vtables.slotFor? target.className info.name info.params = some slot ∧
      (∀ other, upper.slots[other]? = some slot ↔ other = position) ∧
      ∀ below, table.isSubclass below target.className = true →
        ∃ lower, facts.vtables.get? below = some lower ∧
          lower.Runs table facts.mangle.record below position slot info) ∧
    (∃ searched, table.Resolves searched ⟨target, .virtual⟩ ∧
      table.isSubclass searched target.className = true) ∧
    ∀ unit decl tag receiver method args, units[index]? = some unit → unit.IsForest →
      decl ∈ unit.classes → table.owns index decl.name = true →
      Expr.call tag receiver method args ∈ decl.nodes → tag.id = id →
      ∃ searched, notes.receiverClass? decl.name receiver = some searched ∧
        table.isSubclass searched target.className = true := by
  obtain ⟨unit, unitHere, rfl⟩ := Program.unit_of_notes here
  have founded := Annotations.founded_ofUnit (.ofUnits units) index unit
  obtain ⟨searched, method, args, info, viaSuper, found, kind⟩ := founded id _ recorded
  obtain ⟨decl, above, named, declared, entry⟩ := ClassTable.declared_of_target? found
  refine ⟨?_, ⟨searched, ⟨method, args, info, viaSuper, found, kind⟩, ?_⟩, ?_⟩
  · obtain ⟨upper, position, slot, runs⟩ := VtableSet.runs_of_declared
      (Program.vtables_of_facts computed) (ClassTable.class?_of_mem_ancestors above) declared
      (DispatchKind.isVirtual_of_classify kind)
    rw [named] at runs
    exact ⟨info, upper, position, slot, entry, runs⟩
  · exact ClassTable.isSubclass_iff_mem_ancestors.mpr ⟨decl, above, named⟩
  · rintro other caller tag receiver method args otherHere forest declared owned reached rfl
    cases unitHere.symm.trans otherHere
    obtain ⟨_, _, call⟩ :=
      Annotations.accounts_ofUnit (.ofUnits units) forest declared owned _ reached
    obtain ⟨⟨_, _⟩, resolved, same⟩ := Option.map_eq_some_iff.mp (call.symm.trans recorded)
    obtain ⟨rfl, _⟩ := CallInfo.mk.inj same
    cases searched : Annotations.receiverClass? _ caller.name receiver with
    | none =>
      unfold Annotations.target? at resolved
      rw [searched] at resolved
      cases resolved
    | some className =>
      unfold Annotations.target? at resolved
      rw [searched] at resolved
      obtain ⟨decl, above, named, _⟩ := ClassTable.declared_of_target? resolved
      exact ⟨className, rfl, ClassTable.isSubclass_iff_mem_ancestors.mpr ⟨decl, above, named⟩⟩

/-- The call in the class above runs the override of the class below. -/
theorem virtual_call_reaches_square :
    ∃ facts info lower position slot, (Program.ofUnits [.shapes]).facts ⟨[]⟩ {} = .ok facts ∧
      (ClassTable.ofUnits [.shapes]).method? ⟨"Shape", 0⟩ = some info ∧
      facts.vtables.get? "Square" = some lower ∧
      lower.Runs (.ofUnits [.shapes]) facts.mangle.record "Square" position slot info := by
  cases computed : (Program.ofUnits [.shapes]).facts ⟨[]⟩ {} with
  | error _ =>
    have succeeds : ((Program.ofUnits [.shapes]).facts ⟨[]⟩ {}).isOk = true := by decide +kernel
    rw [computed] at succeeds
    cases succeeds
  | ok facts =>
    have recorded : ((Annotations.ofUnit (.ofUnits [.shapes]) 0 .shapes).call? 1) =
        some ⟨⟨"Shape", 0⟩, .virtual⟩ := by decide +kernel
    obtain ⟨⟨info, _, position, slot, entry, _, _, _, runs⟩, _⟩ :=
      virtual_call_reaches_nearest computed (Program.notes_ofUnits rfl) recorded
    obtain ⟨lower, found, runs⟩ := runs "Square" (by decide +kernel)
    exact ⟨facts, info, lower, position, slot, rfl, entry, found, runs⟩

end ObjectLowering
