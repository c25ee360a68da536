/-
**The names of slots.**

A slot takes the name of the implementation that introduces it, or that name with the class's behind
an underscore, where a slot has the name already. The name with the class's behind it is not looked
up again. It is a new one all the same, unless it is the renamed name of the entry point: several
methods of one class may be called like the entry point, and all of them are renamed alike. This is
for classes whose names have no underscore: where they have, `foo_0` of a class `x_0_E` is renamed
like `foo_0_x_0` of a class `E`.

* `ClassTable.Rooted` says that the hierarchy of a table is closed and without cycles;
  `VtableSet.exists_ofTable`: then every class has a vtable.
* `Vtable.Named` says where the names of a vtable come from and which of them may be equal.
* `Vtable.Named.add`, `Vtable.Named.of_along`: adding a virtual method keeps this, so every vtable
  has it.
* **`slot_names_nodup_iff`**: the slots of a class have names of their own exactly if no class
  introduces two of them that are renamed behind the entry point, and so they have where no class
  has two virtual methods called like the entry point.
-/

import ObjectLowering.Proofs.Naming.MangledNames

namespace ObjectLowering

open Source (SourceUnit MethodDecl)

/-! ### Closed hierarchies -/

/-- Every class has a lineage: parents are classes of the table, and none is above itself. -/
def ClassTable.Rooted (table : ClassTable) : Prop :=
  ∀ name, table.contains name = true → ∃ classes, IsLineage table.parentMap name classes

/-- **In a closed hierarchy every class has a vtable.** -/
theorem VtableSet.exists_ofTable {table : ClassTable} (rooted : table.Rooted)
    (record : MangleRecord) : ∃ set, ofTable table record = .ok set := by
  have each : ∀ name ∈ table.parentMap.classes, ∃ result,
      ofClass table record name = .ok result := by
    intro name member
    have inside := ClassTable.mem_classes_parentMap.mp member
    obtain ⟨classes, lineage⟩ := rooted name inside
    unfold ofClass
    rw [ClassTable.complete_of_isLineage lineage inside]
    exact ⟨_, rfl⟩
  obtain ⟨results, built⟩ := exists_mapM each
  refine ⟨⟨results⟩, ?_⟩
  unfold ofTable
  rw [built]
  rfl

/-- Where vtables could be built, the hierarchy is closed. -/
theorem VtableSet.rooted_of_ofTable {table : ClassTable} {record : MangleRecord} {set : VtableSet}
    (computed : ofTable table record = .ok set) : table.Rooted := by
  intro name inside
  obtain ⟨classes, lineage, _⟩ := get?_of_contains computed inside
  exact ⟨classes, lineage⟩

/-! ### Where names come from -/

/-- The name can stand behind an underscore: it has none itself and is no number. -/
def IsSuffix (name : Name) : Prop :=
  Unbroken name ∧ name.toList.any (!·.isDigit) = true

instance (name : Name) : Decidable (IsSuffix name) := inferInstanceAs (Decidable (_ ∧ _))

theorem IsSuffix.ne_toString {name : Name} (suffix : IsSuffix name) (number : Nat) :
    name ≠ toString number := by
  rintro rfl
  obtain ⟨char, member, notDigit⟩ := List.any_eq_true.mp suffix.2
  have digits : (toString number).toList = Nat.toDigits 10 number := Nat.toList_repr
  rw [digits] at member
  have isDigit := Nat.isDigit_of_mem_toDigits (by decide) (by decide) member
  rw [isDigit] at notDigit
  cases notDigit

/-- The slot was introduced by a virtual method of its class, whose name it has, or that name with
the class's behind an underscore. -/
def VtableSlot.Arises (table : ClassTable) (record : MangleRecord) (slot : VtableSlot) : Prop :=
  ∃ info method, table.class? slot.declaredIn = some info ∧ info.HasVirtual method ∧
    slot.signature = (method.2.name, method.2.params) ∧
    (slot.name = record.implName method ∨
      slot.name = record.implName method ++ "_" ++ slot.declaredIn)

/-- Each class has at most one virtual method of the source name. -/
def ClassTable.DeclaresOnce (table : ClassTable) (source : Name) : Prop :=
  ∀ info ∈ table.classes, (info.declaredMethods.filter fun method =>
    method.2.flags.isVirtual && method.2.name == source).length ≤ 1

instance (table : ClassTable) (source : Name) : Decidable (table.DeclaresOnce source) :=
  inferInstanceAs (Decidable (∀ info ∈ _, _))

theorem ClassTable.DeclaresOnce.eq {table : ClassTable} {source name : Name}
    (once : table.DeclaresOnce source) {info : ClassInfo}
    (found : table.class? name = some info) {method other : MethodRef × MethodInfo}
    (isVirtual : info.HasVirtual method) (isVirtualToo : info.HasVirtual other)
    (called : method.2.name = source) (calledToo : other.2.name = source) : method = other := by
  have among {method : MethodRef × MethodInfo} (isVirtual : info.HasVirtual method)
      (called : method.2.name = source) : method ∈ info.declaredMethods.filter fun method =>
        method.2.flags.isVirtual && method.2.name == source := by
    refine List.mem_filter.mpr ⟨isVirtual.1, ?_⟩
    rw [isVirtual.2, called, beq_self_eq_true]
    rfl
  have here := among isVirtual called
  have there := among isVirtualToo calledToo
  have short := once info (List.mem_of_find?_eq_some found)
  obtain ⟨single, only⟩ := List.length_eq_one_iff.mp
    (Nat.le_antisymm short (List.length_pos_of_mem here))
  rw [only] at here there
  exact (List.mem_singleton.mp here).trans (List.mem_singleton.mp there).symm

/-- Each slot arises from a method, and only slots that one class introduced and that are renamed
behind the entry point share a name. -/
structure Vtable.Named (table : ClassTable) (record : MangleRecord) (entryPoint : Name)
    (vtable : Vtable) : Prop where
  arises : ∀ slot ∈ vtable.slots, slot.Arises table record
  apart : vtable.slots.Pairwise fun first second => first.name = second.name →
    first.declaredIn = second.declaredIn ∧
      second.name = entryPoint ++ "_" ++ second.declaredIn

namespace Vtable

variable {table : ClassTable} {record : MangleRecord} {entryPoint className : Name}
  {vtable : Vtable} {info : ClassInfo} {method : MethodRef × MethodInfo}

theorem slotName_cases (vtable : Vtable) (className implName : Name) :
    ((∀ slot ∈ vtable.slots, slot.name ≠ implName) ∧
        vtable.slotName className implName = implName) ∨
      vtable.slotName className implName = implName ++ "_" ++ className := by
  unfold slotName
  split
  · exact .inr rfl
  · rename_i absent
    refine .inl ⟨fun slot member same => absent ?_, rfl⟩
    exact List.any_eq_true.mpr ⟨slot, member, beq_iff_eq.mpr same⟩

/-- A name with a class behind an underscore is that of a renamed slot, which the class introduced
by a method with the name in front. -/
theorem introduces_of_renamed (distinguishes : record.Distinguishes table entryPoint)
    (suffixes : ∀ name ∈ table.names, IsSuffix name) {slot : VtableSlot}
    (arises : slot.Arises table record) (suffix : IsSuffix className) {front : Name}
    (renamed : slot.name = front ++ "_" ++ className) :
    slot.declaredIn = className ∧ ∃ info method, table.class? className = some info ∧
      info.HasVirtual method ∧ slot.signature = (method.2.name, method.2.params) ∧
      record.implName method = front := by
  obtain ⟨info, method, found, isVirtual, signature, plain | behind⟩ := arises
  · -- A whole name has no underscore, and behind that of a numbered one is a number.
    exfalso
    rw [plain] at renamed
    rcases distinguishes.form found isVirtual with whole | ⟨source, before, numbered⟩
    · rw [renamed] at whole
      exact not_unbroken_underscore _ _ whole
    · rw [renamed] at numbered
      obtain ⟨_, number⟩ := append_underscore_inj suffix.1 (unbroken_toString before) numbered
      exact suffix.ne_toString before number
  · have known : IsSuffix slot.declaredIn := suffixes _ (ClassTable.mem_names_of_class? found)
    obtain ⟨names, rfl⟩ :=
      append_underscore_inj known.1 suffix.1 (behind.symm.trans renamed)
    exact ⟨rfl, info, method, found, isVirtual, signature, names⟩

/-- **A renamed slot has the name of no other**, unless it is renamed behind the entry point. -/
theorem eq_entryPoint_of_renamed (distinguishes : record.Distinguishes table entryPoint)
    (suffixes : ∀ name ∈ table.names, IsSuffix name)
    (found : table.class? info.name = some info) (isVirtual : info.HasVirtual method)
    {slot : VtableSlot} (arises : slot.Arises table record)
    (other : slot.signature ≠ (method.2.name, method.2.params))
    (same : slot.name = record.implName method ++ "_" ++ info.name) :
    slot.declaredIn = info.name ∧ record.implName method = entryPoint := by
  have suffix : IsSuffix info.name := suffixes _ (ClassTable.mem_names_of_class? found)
  obtain ⟨sameClass, owner, introduces, ownerFound, introducesVirtual, signature, names⟩ :=
    introduces_of_renamed distinguishes suffixes arises suffix same
  rw [found, Option.some.injEq] at ownerFound
  subst ownerFound
  refine ⟨sameClass, ?_⟩
  by_contra notEntry
  have equal := distinguishes.apart found isVirtual introducesVirtual names.symm notEntry
  exact other (equal ▸ signature)

namespace Named

/-- **Adding a virtual method keeps what is known of the names.** -/
theorem add (distinguishes : record.Distinguishes table entryPoint)
    (suffixes : ∀ name ∈ table.names, IsSuffix name)
    (found : table.class? info.name = some info) (isVirtual : info.HasVirtual method)
    (named : vtable.Named table record entryPoint) :
    (vtable.add record info.name method).Named table record entryPoint := by
  cases inherited : vtable.entries.any (·.slot.hasSignature method.2.name method.2.params) with
  | true =>
    have kept : (vtable.add record info.name method).slots = vtable.slots := by
      rw [slots_add, if_pos inherited, List.append_nil]
    exact ⟨kept ▸ named.arises, kept ▸ named.apart⟩
  | false =>
    have grown : (vtable.add record info.name method).slots =
        vtable.slots ++ [(introduced record info.name vtable method).slot] := by
      rw [slots_add, if_neg (Bool.eq_false_iff.mp inherited)]
    constructor
    · intro slot member
      rw [grown] at member
      rcases List.mem_append.mp member with old | new
      · exact named.arises slot old
      · rw [List.mem_singleton.mp new]
        refine ⟨info, method, found, isVirtual, rfl, ?_⟩
        exact (slotName_cases vtable info.name (record.implName method)).imp_left (·.2)
    · rw [grown, List.pairwise_append]
      refine ⟨named.apart, List.pairwise_singleton _ _, fun slot old new isNew same => ?_⟩
      rw [List.mem_singleton.mp isNew] at same ⊢
      rcases slotName_cases vtable info.name (record.implName method) with ⟨fresh, plain⟩ | renamed
      · exact absurd (same.trans plain) (fresh slot old)
      · have other : slot.signature ≠ (method.2.name, method.2.params) := by
          intro equal
          obtain ⟨entry, stored, rfl⟩ := List.mem_map.mp old
          have present : vtable.entries.any
              (·.slot.hasSignature method.2.name method.2.params) = true :=
            List.any_eq_true.mpr ⟨entry, stored, VtableSlot.hasSignature_iff.mpr equal⟩
          rw [inherited] at present
          cases present
        obtain ⟨sameClass, behindEntry⟩ := eq_entryPoint_of_renamed distinguishes suffixes found
          isVirtual (named.arises slot old) other (same.trans renamed)
        exact ⟨sameClass, renamed.trans (by rw [behindEntry]; rfl)⟩

/-- **Every vtable is named so.** -/
theorem of_along (distinguishes : record.Distinguishes table entryPoint)
    (suffixes : ∀ name ∈ table.names, IsSuffix name) (classes : List Name) :
    (along table record classes).Named table record entryPoint := by
  refine along_induction (Named table record entryPoint) ⟨fun _ member => (nomatch member), .nil⟩ ?_
  rintro vtable info method ⟨name, _, found⟩ declared isVirtual named
  rw [← ClassTable.name_of_class? found] at found
  exact named.add distinguishes suffixes found ⟨declared, isVirtual⟩

variable (named : vtable.Named table record entryPoint)

include named in
/-- Two slots of one name, in order. -/
theorem exists_pair {name : Name} (twice : [name, name].Sublist (vtable.slots.map (·.name))) :
    ∃ first second, [first, second].Sublist vtable.slots ∧ first.declaredIn = second.declaredIn ∧
      first.name = name ∧ second.name = name ∧ name = entryPoint ++ "_" ++ second.declaredIn := by
  obtain ⟨pair, inside, names⟩ := List.sublist_map_iff.mp twice
  obtain ⟨first, rest, rfl, here, names⟩ := List.map_eq_cons_iff.mp names.symm
  obtain ⟨second, rest, rfl, there, names⟩ := List.map_eq_cons_iff.mp names
  rw [List.map_eq_nil_iff.mp names] at inside
  have apart := List.rel_of_pairwise_cons (named.apart.sublist inside) List.mem_cons_self
  obtain ⟨sameClass, renamed⟩ := apart (here.trans there.symm)
  exact ⟨first, second, inside, sameClass, here, there, there.symm.trans renamed⟩

include named in
/-- Names repeat only behind the entry point. -/
theorem nodup_iff : (vtable.slots.map (·.name)).Nodup ↔ ∀ className,
    (vtable.slots.map (·.name)).count (entryPoint ++ "_" ++ className) ≤ 1 := by
  constructor
  · exact fun distinct className => List.nodup_iff_count_le_one.mp distinct _
  · intro single
    refine List.nodup_iff_sublist.mpr fun name twice => ?_
    obtain ⟨_, second, _, _, _, _, renamed⟩ := named.exists_pair twice
    have bound := single second.declaredIn
    rw [← renamed] at bound
    have two : 2 ≤ (vtable.slots.map (·.name)).count name := by
      have least := twice.count_le name
      rwa [List.count_cons_self, List.count_cons_self, List.count_nil] at least
    exact absurd (Nat.le_trans two bound) (by decide)

include named in
/-- **Names do not repeat where no class has two virtual methods called like the entry point.** -/
theorem nodup_of_declaresOnce (distinguishes : record.Distinguishes table entryPoint)
    (suffixes : ∀ name ∈ table.names, IsSuffix name) (consistent : record.Consistent)
    (entry : Unbroken entryPoint) (distinct : (vtable.slots.map (·.signature)).Nodup)
    (once : table.DeclaresOnce entryPoint) : (vtable.slots.map (·.name)).Nodup := by
  refine List.nodup_iff_sublist.mpr fun name twice => ?_
  obtain ⟨first, second, inside, sameClass, here, there, renamed⟩ := named.exists_pair twice
  have firstArises := named.arises first (inside.subset List.mem_cons_self)
  have secondArises :=
    named.arises second (inside.subset (List.mem_cons_of_mem _ List.mem_cons_self))
  have suffix : IsSuffix second.declaredIn := by
    obtain ⟨info, _, found, _⟩ := secondArises
    exact suffixes _ (ClassTable.mem_names_of_class? found)
  obtain ⟨_, info, method, found, isVirtual, signature, implName⟩ :=
    introduces_of_renamed distinguishes suffixes firstArises suffix (here.trans renamed)
  obtain ⟨_, _, other, foundToo, isVirtualToo, signatureToo, implNameToo⟩ :=
    introduces_of_renamed distinguishes suffixes secondArises suffix (there.trans renamed)
  rw [found, Option.some.injEq] at foundToo
  subst foundToo
  have calledSo {method : MethodRef × MethodInfo} (implName : record.implName method = entryPoint) :
      method.2.name = entryPoint :=
    (consistent.source_of_implName (implName.symm ▸ entry)).symm.trans implName
  have equal := once.eq found isVirtual isVirtualToo (calledSo implName) (calledSo implNameToo)
  have apart : first.signature ≠ second.signature :=
    List.rel_of_pairwise_cons (distinct.sublist (inside.map _)) List.mem_cons_self
  exact apart (by rw [signature, signatureToo, equal])

end Named

end Vtable

/-! ### The vtables of a program -/

section Program

variable {units : List SourceUnit}

/-- The provided classes have suffixes for names, so it is for those declared in source to do so. -/
theorem ClassTable.isSuffix_of_mem_names
    (suffixes : ∀ unit ∈ units, ∀ decl ∈ unit.classes, IsSuffix decl.name) :
    ∀ name ∈ (ofUnits units).names, IsSuffix name := by
  intro name member
  rw [names_ofUnits] at member
  rcases List.mem_append.mp member with provided | declared
  · have each : ∀ name ∈ names ⟨ClassTable.provided⟩, IsSuffix name := by decide
    exact each name provided
  · obtain ⟨info, counted, rfl⟩ := List.mem_map.mp declared
    obtain ⟨index, unit, here, decl, inside, rfl⟩ := declared_of_mem_counted counted
    exact suffixes unit (List.mem_of_getElem? here) decl inside

/-- **The slots of a class have names of their own exactly if no name that is the entry point's with
a class behind it repeats**, so surely if no class has two virtual methods called like the entry
point. Its bindings are in the same order under the same names. -/
theorem slot_names_nodup_iff (units : List SourceUnit) (options : LoweringOptions)
    (rooted : (ClassTable.ofUnits units).Rooted)
    (suffixes : ∀ unit ∈ units, ∀ decl ∈ unit.classes, IsSuffix decl.name)
    (entry : Unbroken options.entryPoint) :
    ∃ set, VtableSet.ofTable (.ofUnits units)
        ((Program.ofUnits units).mangle options .unchanged).record = .ok set ∧
      ∀ name, (ClassTable.ofUnits units).contains name = true →
        ∃ vtable, set.get? name = some vtable ∧
          vtable.bindings.map (·.slot) = vtable.slots.map (·.name) ∧
          ((vtable.slots.map (·.name)).Nodup ↔ ∀ className,
            (vtable.slots.map (·.name)).count (options.entryPoint ++ "_" ++ className) ≤ 1) ∧
          ((ClassTable.ofUnits units).DeclaresOnce options.entryPoint →
            (vtable.slots.map (·.name)).Nodup) := by
  obtain ⟨set, computed⟩ := VtableSet.exists_ofTable rooted
    ((Program.ofUnits units).mangle options .unchanged).record
  refine ⟨set, computed, fun name inside => ?_⟩
  obtain ⟨classes, _, built⟩ := VtableSet.get?_of_contains computed inside
  have distinguishes := Program.distinguishes_record units options entry
  have known := ClassTable.isSuffix_of_mem_names suffixes
  have named := Vtable.Named.of_along distinguishes known classes
  refine ⟨_, built, (Vtable.names_slots_along _ _ classes).symm, named.nodup_iff, fun once => ?_⟩
  exact named.nodup_of_declaresOnce distinguishes known (Program.consistent_record units options)
    entry (Vtable.signatures_nodup _ _ classes) once

end Program

/-- A method that does nothing. -/
def Source.MethodDecl.idle (name : Name) (params : List Ty) : MethodDecl where
  name := name
  params := params.map (⟨·, "a"⟩)
  ret := .void
  modifiers := {}
  span := ⟨0, 1⟩
  body := .block ⟨0, 1⟩ []

/-- A class that overloads each method of its parent, one of them called like the entry point. -/
def Source.SourceUnit.overloads : SourceUnit where
  path := "Derived"
  package := []
  imports := []
  classes := [
    { name := "Base", parent := none, fields := [], span := ⟨0, 1⟩
      methods := [.idle "main" [], .idle "run" []] },
    { name := "Derived", parent := some "Base", fields := [], span := ⟨0, 1⟩
      methods := [.idle "main" [.int], .idle "run" [.int]] }]
  nodes := #[]
  stmtCount := 4

/-- Both overloads get slots with names of their own behind those that they are like. -/
theorem slot_names_nodup_overloads :
    (ClassTable.ofUnits [.overloads]).Rooted ∧
      ∃ set vtable, VtableSet.ofTable (.ofUnits [.overloads])
          ((Program.ofUnits [.overloads]).mangle {} .unchanged).record = .ok set ∧
        set.get? "Derived" = some vtable ∧ (vtable.slots.map (·.name)).Nodup := by
  have succeeds : (VtableSet.ofTable (.ofUnits [.overloads])
      ((Program.ofUnits [.overloads]).mangle {} .unchanged).record).isOk = true := by
    decide +kernel
  obtain ⟨_, built⟩ := exists_of_isOk succeeds
  have rooted := VtableSet.rooted_of_ofTable built
  obtain ⟨set, computed, each⟩ := slot_names_nodup_iff [.overloads] {} rooted
    (by decide +kernel) (by decide +kernel)
  obtain ⟨vtable, found, _, _, names⟩ := each "Derived" (by decide +kernel)
  exact ⟨rooted, set, vtable, computed, found, names (by decide +kernel)⟩

/-- A class with three virtual methods called like the entry point. -/
def Source.SourceUnit.entries : SourceUnit where
  path := "C"
  package := []
  imports := []
  classes := [
    { name := "C", parent := none, fields := [], span := ⟨0, 1⟩
      methods := [.idle "main" [], .idle "main" [.int], .idle "main" [.long]] }]
  nodes := #[]
  stmtCount := 3

/-- **Both later ones are called `main_C`**, in a closed hierarchy. -/
theorem slot_names_repeat_entries :
    (ClassTable.ofUnits [.entries]).Rooted ∧
      ∃ set vtable, VtableSet.ofTable (.ofUnits [.entries])
          ((Program.ofUnits [.entries]).mangle {} .unchanged).record = .ok set ∧
        set.get? "C" = some vtable ∧ ¬(vtable.slots.map (·.name)).Nodup := by
  have names : (VtableSet.ofTable (.ofUnits [.entries])
      ((Program.ofUnits [.entries]).mangle {} .unchanged).record).toOption.bind
        (fun set => (set.get? "C").map fun vtable => vtable.slots.map (·.name)) =
      some ["hashCode", "equals", "getClass", "toString", "main", "main_C", "main_C"] := by
    decide +kernel
  cases built : VtableSet.ofTable (.ofUnits [.entries])
      ((Program.ofUnits [.entries]).mangle {} .unchanged).record with
  | error _ =>
    rw [built] at names
    cases names
  | ok set =>
    rw [built] at names
    obtain ⟨vtable, found, repeated⟩ := Option.map_eq_some_iff.mp names
    refine ⟨VtableSet.rooted_of_ofTable built, set, vtable, rfl, found, ?_⟩
    rw [repeated]
    decide

end ObjectLowering
