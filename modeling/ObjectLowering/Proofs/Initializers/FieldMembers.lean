/-
**What stands in an object for a field.**

A chain is made class by class, the root first, and a field of the same name and type as an earlier
one takes its place. So for each name and type an object has one member, that of the last
declaration in the nearest class that declares it. A lookup goes by the name alone.

* `Initializer.slot` is what tells the entries of a chain apart.
* `ClassInfo.extendChain` is what one class does to a chain, and `chainOf_ofTable` says that a chain
  consists of such steps.
* `find?_extendChains`: an entry of a chain is the last declaration of the nearest class.
* `slots_nodup_extendChains`: no two entries have one name and type.
* **`members_of_lookupField`**: a field that is found is the one member of its name and type, and
  the one of its name exactly if no class at or above declares the name with another type.
-/

import ObjectLowering.Proofs.Initializers.Chains
import ObjectLowering.Proofs.Lowering.ClassLayouts
import ObjectLowering.Proofs.Lowering.Total
import ObjectLowering.Proofs.Vtables.Bindings

namespace ObjectLowering

open Source (SourceUnit)

/-! ### Entries of a chain -/

namespace Initializer

variable {ν : Type}

/-- What tells the fields of an object apart. -/
def slot (init : Initializer ν) : Name × Ty := (init.name, init.type)

theorem sameSlot_eq (first second : Initializer ν) :
    first.sameSlot second = (first.slot == second.slot) := rfl

end Initializer

section Entries

variable {ν : Type} (chain : List (Initializer ν)) (init : Initializer ν) (slot : Name × Ty)

/-- **A declared field is found under its slot**, whatever was there. -/
theorem find?_addInitializer :
    (addInitializer chain init).find? (·.slot == slot) =
      if init.slot = slot then some init else chain.find? (·.slot == slot) := by
  induction chain with
  | nil =>
    show [init].find? _ = _
    rw [List.find?_singleton]
    simp only [beq_iff_eq]
    rfl
  | cons entry rest step =>
    unfold addInitializer at step ⊢
    unfold redefine
    rw [Initializer.sameSlot_eq]
    by_cases here : entry.slot = init.slot
    · rw [if_pos (beq_iff_eq.mpr here), List.find?_cons, List.find?_cons, here]
      by_cases same : init.slot = slot
      · rw [if_pos same, beq_iff_eq.mpr same]
      · rw [if_neg same, beq_false_of_ne same]
    · rw [if_neg (mt beq_iff_eq.mp here), List.find?_cons, List.find?_cons, step]
      by_cases same : entry.slot = slot
      · have other : init.slot ≠ slot := fun there => here (same.trans there.symm)
        rw [if_neg other, if_neg other, beq_iff_eq.mpr same]
      · rw [beq_false_of_ne same]

/-- A field of a new slot goes to the end, any other changes no slot. -/
theorem slots_addInitializer : (addInitializer chain init).map (·.slot) =
    chain.map (·.slot) ++ if init.slot ∈ chain.map (·.slot) then [] else [init.slot] := by
  induction chain with
  | nil => rfl
  | cons entry rest step =>
    unfold addInitializer at step ⊢
    unfold redefine
    rw [Initializer.sameSlot_eq]
    by_cases here : entry.slot = init.slot
    · rw [if_pos (beq_iff_eq.mpr here), List.map_cons, List.map_cons, here,
        if_pos List.mem_cons_self, List.append_nil]
    · rw [if_neg (mt beq_iff_eq.mp here), List.map_cons, step, List.map_cons, List.cons_append]
      simp [Ne.symm here]

theorem slots_nodup_addInitializer (distinct : (chain.map (·.slot)).Nodup) :
    ((addInitializer chain init).map (·.slot)).Nodup := by
  rw [slots_addInitializer]
  split
  · rwa [List.append_nil]
  · rename_i fresh
    exact List.nodup_append.mpr ⟨distinct, List.pairwise_singleton _ _,
      fun other inside => by
        rintro _ new rfl
        exact fresh (List.mem_singleton.mp new ▸ inside)⟩

/-- **The last of several declared fields is found under its slot.** -/
theorem find?_foldl_addInitializer (fields : List (Initializer ν)) :
    (fields.foldl addInitializer chain).find? (·.slot == slot) =
      (fields.filter (·.slot == slot)).getLast?.or (chain.find? (·.slot == slot)) := by
  induction fields generalizing chain with
  | nil => rfl
  | cons init rest step =>
    rw [List.foldl_cons, step, find?_addInitializer, List.filter_cons]
    by_cases same : init.slot = slot
    · rw [if_pos same, if_pos (beq_iff_eq.mpr same), List.getLast?_cons]
      cases (rest.filter _).getLast? <;> rfl
    · rw [if_neg same, if_neg (mt beq_iff_eq.mp same)]

theorem slots_nodup_foldl_addInitializer (fields : List (Initializer ν))
    (distinct : (chain.map (·.slot)).Nodup) :
    ((fields.foldl addInitializer chain).map (·.slot)).Nodup := by
  induction fields generalizing chain with
  | nil => exact distinct
  | cons init rest step => exact step _ (slots_nodup_addInitializer chain init distinct)

/-- Where no slot repeats, the entries of one are what is found under it. -/
theorem filter_slot (distinct : (chain.map (·.slot)).Nodup) :
    chain.filter (·.slot == slot) = (chain.find? (·.slot == slot)).toList := by
  induction chain with
  | nil => rfl
  | cons entry rest step =>
    obtain ⟨fresh, distinct⟩ := List.nodup_cons.mp distinct
    rw [List.filter_cons, List.find?_cons]
    by_cases here : entry.slot = slot
    · have none : rest.filter (·.slot == slot) = [] := by
        refine List.filter_eq_nil_iff.mpr fun other inside same => fresh ?_
        exact List.mem_map.mpr ⟨other, inside, (beq_iff_eq.mp same).trans here.symm⟩
      rw [here, beq_self_eq_true, if_pos rfl, none]
      rfl
    · rw [beq_false_of_ne here, if_neg Bool.false_ne_true]
      exact step distinct

end Entries

/-! ### The fields of a lineage -/

namespace ClassInfo

variable (info : ClassInfo) (slot : Name × Ty)

/-- The instance fields that a class declares, in order. -/
def instanceFields (info : ClassInfo) : List (Initializer Source.Expr) :=
  (info.fields.filter (!·.isStatic)).map fun field =>
    ⟨field.name, field.type, info.name, field.init, field.isStatic⟩

/-- What a class makes of the chain of its parent. -/
def extendChain (info : ClassInfo) (chain : List (Initializer Source.Expr)) :
    List (Initializer Source.Expr) := info.instanceFields.foldl addInitializer chain

/-- The last instance field of a name and type that a class declares. -/
def lastField? (info : ClassInfo) (slot : Name × Ty) : Option (Initializer Source.Expr) :=
  (info.instanceFields.filter (·.slot == slot)).getLast?

theorem lastField?_spec {info : ClassInfo} {slot : Name × Ty} {init : Initializer Source.Expr}
    (last : info.lastField? slot = some init) :
    init ∈ info.instanceFields ∧ init.slot = slot ∧ init.owner = info.name := by
  obtain ⟨declared, same⟩ := List.mem_filter.mp (List.mem_of_getLast? last)
  refine ⟨declared, beq_iff_eq.mp same, ?_⟩
  obtain ⟨field, _, rfl⟩ := List.mem_map.mp declared
  rfl

theorem isSome_lastField? {info : ClassInfo} {slot : Name × Ty} :
    (info.lastField? slot).isSome = true ↔
      ∃ field ∈ info.fields, field.isStatic = false ∧ (field.name, field.type) = slot := by
  unfold lastField?
  rw [← Option.ne_none_iff_isSome, ne_eq, List.getLast?_eq_none_iff, List.filter_eq_nil_iff]
  push Not
  constructor
  · rintro ⟨init, declared, same⟩
    obtain ⟨field, inside, rfl⟩ := List.mem_map.mp declared
    obtain ⟨inside, dynamic⟩ := List.mem_filter.mp inside
    exact ⟨field, inside, (Bool.not_eq_true' _).mp dynamic, beq_iff_eq.mp same⟩
  · rintro ⟨field, inside, dynamic, same⟩
    refine ⟨_, List.mem_map_of_mem (List.mem_filter.mpr ⟨inside, ?_⟩), beq_iff_eq.mpr same⟩
    rw [dynamic]
    rfl

/-- **A class puts its last declaration in the place of an earlier one.** -/
theorem find?_extendChain (chain : List (Initializer Source.Expr)) :
    (info.extendChain chain).find? (·.slot == slot) =
      (info.lastField? slot).or (chain.find? (·.slot == slot)) :=
  find?_foldl_addInitializer chain slot info.instanceFields

theorem slots_nodup_extendChain {chain : List (Initializer Source.Expr)}
    (distinct : (chain.map (·.slot)).Nodup) : ((info.extendChain chain).map (·.slot)).Nodup :=
  slots_nodup_foldl_addInitializer chain info.instanceFields distinct

end ClassInfo

/-- The chain of a lineage is made by its classes one after the other, the root first. -/
theorem chainOf_ofTable (table : ClassTable) (lineage : List Name) :
    chainOf (.ofTable table) lineage =
      (lineage.filterMap table.class?).foldr ClassInfo.extendChain [] := by
  induction lineage with
  | nil => rfl
  | cons name older step =>
    unfold chainOf at step ⊢
    rw [List.reverse_cons, List.flatMap_append, List.foldl_append, step, List.flatMap_singleton,
      RawInitializers.of_ofTable]
    cases found : table.class? name with
    | none =>
      rw [List.filterMap_cons_none found]
      rfl
    | some info =>
      rw [List.filterMap_cons_some found, List.foldr_cons, Option.map_some, Option.getD_some,
        List.filter_map]
      rfl

/-- **An entry of a chain is the last declaration of the nearest class that has one.** -/
theorem find?_extendChains (infos : List ClassInfo) (slot : Name × Ty) :
    (infos.foldr ClassInfo.extendChain []).find? (·.slot == slot) =
      infos.findSome? (·.lastField? slot) := by
  induction infos with
  | nil => rfl
  | cons info rest step =>
    rw [List.foldr_cons, ClassInfo.find?_extendChain, step, List.findSome?_cons]
    cases info.lastField? slot <;> rfl

/-- **No two entries of a chain have one name and type.** -/
theorem slots_nodup_extendChains (infos : List ClassInfo) :
    ((infos.foldr ClassInfo.extendChain []).map (·.slot)).Nodup := by
  induction infos with
  | nil => exact List.nodup_nil
  | cons info rest step => exact info.slots_nodup_extendChain step

/-- A slot has an entry exactly if some class declares it. -/
theorem mem_slots_extendChains {infos : List ClassInfo} {slot : Name × Ty} :
    slot ∈ (infos.foldr ClassInfo.extendChain []).map (·.slot) ↔
      ∃ info ∈ infos, ∃ field ∈ info.fields,
        field.isStatic = false ∧ (field.name, field.type) = slot := by
  have found := congrArg Option.isSome (find?_extendChains infos slot)
  rw [Bool.eq_iff_iff, List.find?_isSome, List.findSome?_isSome_iff] at found
  simp only [ClassInfo.isSome_lastField?, beq_iff_eq] at found
  rw [← found, List.mem_map]

/-! ### Members of an object -/

namespace Lowered.DataMember

/-- The name and type of the field that the member stands for. -/
def slot? : DataMember → Option (Name × Ty)
  | .vtablePtr => none
  | .field name type _ => some (name, type)

/-- The name by which lowered code reaches the member. -/
def name? (member : DataMember) : Option Name := member.slot?.map (·.1)

end Lowered.DataMember

open Lowered (DataMember)

/-- The member of an object that stands for an entry of its chain. -/
def Initializer.member {ν : Type} (init : Initializer ν) : DataMember :=
  .field init.name init.type init.owner

theorem filter_dataMembers (chain : List (Initializer Source.Expr)) (slot : Name × Ty) :
    (Lowering.dataMembers chain).filter (·.slot? == some slot) =
      (chain.filter (·.slot == slot)).map (·.member) := by
  unfold Lowering.dataMembers
  rw [List.filter_cons_of_neg (by exact Bool.false_ne_true), List.filter_map]
  rfl

section Members

variable {infos nearer : List ClassInfo} {info : ClassInfo} {field : FieldInfo}

/-- The entry of a field belongs to the nearest class with a field of the name. -/
theorem entry_of_nearest (farther : List ClassInfo)
    (none : ∀ near ∈ nearer, ∀ other ∈ near.fields, other.name ≠ field.name)
    (inside : field ∈ info.fields) (dynamic : field.isStatic = false) :
    ∃ init, ((nearer ++ info :: farther).foldr ClassInfo.extendChain []).find?
        (·.slot == (field.name, field.type)) = some init ∧
      init.member = .field field.name field.type info.name := by
  obtain ⟨init, last⟩ := Option.isSome_iff_exists.mp
    (ClassInfo.isSome_lastField?.mpr ⟨field, inside, dynamic, rfl⟩)
  obtain ⟨_, slot, owned⟩ := ClassInfo.lastField?_spec last
  refine ⟨init, ?_, ?_⟩
  · have absent : nearer.findSome? (·.lastField? (field.name, field.type)) = .none := by
      refine List.findSome?_eq_none_iff.mpr fun near member => ?_
      rw [← Option.not_isSome_iff_eq_none, ClassInfo.isSome_lastField?]
      rintro ⟨other, listed, _, same⟩
      exact none near member other listed (Prod.mk.inj same).1
    rw [find?_extendChains, List.findSome?_append, List.findSome?_cons, last, absent]
    rfl
  · obtain ⟨sameName, sameType⟩ := Prod.mk.inj slot
    unfold Initializer.member
    rw [sameName, sameType, owned]

/-- **A member of a slot is alone with its name exactly if no class declares the name with another
type.** -/
theorem filter_name?_eq_iff {name : Name} {type : Ty} {member : DataMember}
    (single : (Lowering.dataMembers (infos.foldr ClassInfo.extendChain [])).filter
      (·.slot? == some (name, type)) = [member]) :
    (Lowering.dataMembers (infos.foldr ClassInfo.extendChain [])).filter
        (·.name? == some name) = [member] ↔
      ∀ info ∈ infos, ∀ field ∈ info.fields, field.name = name → field.isStatic = false →
        field.type = type := by
  constructor
  · rintro alone info above field listed rfl dynamic
    obtain ⟨init, stored, slot⟩ := List.mem_map.mp
      (mem_slots_extendChains.mpr ⟨info, above, field, listed, dynamic, rfl⟩)
    have among : init.member ∈ [member] := by
      rw [← alone]
      refine List.mem_filter.mpr ⟨List.mem_cons_of_mem _ (List.mem_map_of_mem stored), ?_⟩
      exact beq_iff_eq.mpr (congrArg some (Prod.mk.inj slot).1)
    rw [← single] at among
    have typed : some init.slot = some (field.name, type) :=
      beq_iff_eq.mp (List.mem_filter.mp among).2
    rw [slot, Option.some.injEq] at typed
    exact (Prod.mk.inj typed).2
  · intro all
    rw [← single]
    refine List.filter_congr fun other inside => ?_
    rcases List.mem_cons.mp inside with rfl | inside
    · rfl
    obtain ⟨init, stored, rfl⟩ := List.mem_map.mp inside
    obtain ⟨info, above, field, listed, dynamic, slot⟩ :=
      mem_slots_extendChains.mp (List.mem_map_of_mem stored)
    obtain ⟨sameName, sameType⟩ := Prod.mk.inj slot
    rw [Bool.eq_iff_iff, beq_iff_eq, beq_iff_eq]
    refine ⟨fun named => ?_, fun both => congrArg (Option.map Prod.fst) both⟩
    have named : init.name = name := Option.some.inj named
    have typed := all info above field listed (sameName.trans named) dynamic
    exact congrArg some (Prod.ext named (sameType.symm.trans typed))

end Members

/-- A field that is found is the first of its name in the nearest class that has one. -/
theorem ClassTable.nearest_of_lookupField {table : ClassTable} {className fieldName : Name}
    {ref : FieldRef} {field : FieldInfo} (found : table.lookupField className fieldName = some ref)
    (declared : table.field? ref = some field) :
    ∃ nearer info farther, table.ancestors className = nearer ++ info :: farther ∧
      (∀ near ∈ nearer, ∀ other ∈ near.fields, other.name ≠ fieldName) ∧
      info.name = ref.className ∧ field ∈ info.fields ∧ field.name = fieldName := by
  unfold lookupField at found
  obtain ⟨nearer, info, farther, split, here, none⟩ := List.findSome?_eq_some_iff.mp found
  obtain ⟨index, first, rfl⟩ := Option.map_eq_some_iff.mp here
  have inside : info ∈ table.ancestors className :=
    split ▸ List.mem_append_right _ List.mem_cons_self
  unfold field? at declared
  rw [class?_of_mem_ancestors inside, Option.bind_some] at declared
  obtain ⟨bound, named, _⟩ := List.findIdx?_eq_some_iff_getElem.mp first
  have there := (List.getElem?_eq_some_iff.mp declared).2
  refine ⟨nearer, info, farther, split, fun near member other listed same => ?_, rfl,
    List.mem_of_getElem? declared, ?_⟩
  · have absent := List.findIdx?_eq_none_iff.mp (Option.map_eq_none_iff.mp (none near member))
    exact absurd same (beq_eq_false_iff_ne.mp (absent other listed))
  · rw [← there]
    exact beq_iff_eq.mp named

/-- The members of an object are those of the chain of its class. -/
theorem Program.data_of_lower {units : List SourceUnit} {names : NameTable}
    {options : LoweringOptions} {facts : Facts} {lowered : List Lowered.TreeUnit}
    (computed : (ofUnits units).facts names options = .ok facts)
    (done : (ofUnits units).lower facts options = .ok lowered)
    {layout : Lowered.ClassLayout Lowered.Expr Lowered.Stmt}
    (member : layout ∈ lowered.flatMap (·.classes)) {info : ClassInfo}
    (above : info ∈ (ClassTable.ofUnits units).ancestors layout.name) :
    layout.data = Lowering.dataMembers
      (((ClassTable.ofUnits units).ancestors layout.name).foldr ClassInfo.extendChain []) := by
  obtain ⟨place, _, built⟩ := exists_of_mem_right (ok_of_lower done) member
  obtain ⟨named, ⟨chain, resolved, data, _⟩, _⟩ := Lowering.lays_of_lowerClass built
  rw [← named] at resolved
  obtain ⟨lineage, isLineage, rfl⟩ :=
    InitializerChains.lineage_of_instance? (chains_of_facts computed) resolved
  obtain ⟨known, nonempty⟩ := ClassTable.inside_of_mem_ancestors above
  rw [data, chainOf_ofTable, ClassTable.ancestors_of_isLineage isLineage known nonempty]

/-- **A field that is found is the one member of its name and type**, owned by the class that
declares it. It is the one member of its name exactly if no class at or above declares an instance
field of the name with another type. -/
theorem members_of_lookupField {units : List SourceUnit} {names : NameTable}
    {options : LoweringOptions} {facts : Facts} {lowered : List Lowered.TreeUnit}
    (computed : (Program.ofUnits units).facts names options = .ok facts)
    (done : (Program.ofUnits units).lower facts options = .ok lowered)
    {className fieldName : Name} {ref : FieldRef} {field : FieldInfo}
    (found : (ClassTable.ofUnits units).lookupField className fieldName = some ref)
    (declared : (ClassTable.ofUnits units).field? ref = some field)
    (dynamic : field.isStatic = false) :
    (className ∈ (ClassTable.ofUnits units).userClasses.map (·.name) →
      ∃ layout ∈ lowered.flatMap (·.classes), layout.name = className) ∧
    ∀ layout ∈ lowered.flatMap (·.classes), layout.name = className →
      layout.data.filter (·.slot? == some (fieldName, field.type)) =
        [.field fieldName field.type ref.className] ∧
      (layout.data.filter (·.name? == some fieldName) =
          [.field fieldName field.type ref.className] ↔
        ∀ info ∈ (ClassTable.ofUnits units).ancestors className, ∀ other ∈ info.fields,
          other.name = fieldName → other.isStatic = false → other.type = field.type) := by
  refine ⟨fun user => ?_, ?_⟩
  · rw [← List.mem_map, Program.names_layouts done]
    exact (ClassTable.names_userClasses_sublist units).subset user
  rintro layout member rfl
  obtain ⟨nearer, info, farther, split, none, owner, inside, rfl⟩ :=
    ClassTable.nearest_of_lookupField found declared
  have above : info ∈ (ClassTable.ofUnits units).ancestors layout.name :=
    split ▸ List.mem_append_right _ List.mem_cons_self
  rw [Program.data_of_lower computed done member above]
  generalize (ClassTable.ofUnits units).ancestors layout.name = ancestors at split ⊢
  obtain ⟨init, here, stands⟩ := entry_of_nearest farther none inside dynamic
  rw [← split] at here
  have single : (Lowering.dataMembers (ancestors.foldr ClassInfo.extendChain [])).filter
      (·.slot? == some (field.name, field.type)) =
        [.field field.name field.type ref.className] := by
    rw [filter_dataMembers, filter_slot _ _ (slots_nodup_extendChains ancestors), here, ← owner,
      ← stands]
    rfl
  exact ⟨single, filter_name?_eq_iff single⟩

/-- A class that declares both fields of its parent again: one without its value, one with another
type. -/
def Source.SourceUnit.redeclared : SourceUnit where
  path := "Derived"
  package := []
  imports := []
  classes := [
    { name := "Base", parent := none, methods := [], span := ⟨0, 1⟩
      fields := [
        { name := "x", type := .int, init := some (.int ⟨0, 1, 2⟩ 1), modifiers := {}
          span := ⟨2, 3⟩ },
        { name := "y", type := .int, init := some (.int ⟨1, 3, 4⟩ 2), modifiers := {}
          span := ⟨4, 5⟩ }] },
    { name := "Derived", parent := some "Base", methods := [], span := ⟨5, 6⟩
      fields := [
        { name := "x", type := .int, init := none, modifiers := {}, span := ⟨6, 7⟩ },
        { name := "y", type := .string, init := some (.str ⟨2, 7, 8⟩ "s"), modifiers := {}
          span := ⟨8, 9⟩ }] }]
  nodes := #[.int ⟨0, 1, 2⟩ 1, .int ⟨1, 3, 4⟩ 2, .str ⟨2, 7, 8⟩ "s"]
  stmtCount := 0

/-- The field that is declared again with its type is one member, which the class below owns. -/
theorem members_of_lookupField_redeclared :
    ∃ facts lowered layout,
      (Program.ofUnits [.redeclared]).facts ⟨["Base", "Derived"]⟩ {} = .ok facts ∧
      (Program.ofUnits [.redeclared]).lower facts {} = .ok lowered ∧
      layout ∈ lowered.flatMap (·.classes) ∧ layout.name = "Derived" ∧
      layout.data.filter (·.name? == some "x") = [.field "x" .int "Derived"] := by
  obtain ⟨facts, lowered, computed, done⟩ :=
    Program.exists_lowered [.redeclared] ⟨["Base", "Derived"]⟩ {} (by decide +kernel)
  have found : (ClassTable.ofUnits [.redeclared]).lookupField "Derived" "x" =
      some ⟨"Derived", 0⟩ := rfl
  have declared : (ClassTable.ofUnits [.redeclared]).field? ⟨"Derived", 0⟩ =
      some ⟨"x", .int, false, none, ⟨6, 7⟩⟩ := rfl
  obtain ⟨lays, members⟩ := members_of_lookupField computed done found declared rfl
  obtain ⟨layout, member, named⟩ := lays (by decide +kernel)
  refine ⟨facts, lowered, layout, computed, done, member, named, ?_⟩
  exact (members layout member named).2.mpr (by decide +kernel)

/-- The field that is declared again with another type is found in the class below, and an object
has two members of its name. -/
theorem members_repeat_redeclared :
    (ClassTable.ofUnits [.redeclared]).lookupField "Derived" "y" = some ⟨"Derived", 1⟩ ∧
    (∃ field, (ClassTable.ofUnits [.redeclared]).field? ⟨"Derived", 1⟩ = some field ∧
      field.isStatic = false ∧ field.type = .string) ∧
    ∃ facts lowered layout,
      (Program.ofUnits [.redeclared]).facts ⟨["Base", "Derived"]⟩ {} = .ok facts ∧
      (Program.ofUnits [.redeclared]).lower facts {} = .ok lowered ∧
      layout ∈ lowered.flatMap (·.classes) ∧ layout.name = "Derived" ∧
      layout.data.filter (·.name? == some "y") =
        [.field "y" .int "Base", .field "y" .string "Derived"] := by
  obtain ⟨facts, lowered, computed, done⟩ :=
    Program.exists_lowered [.redeclared] ⟨["Base", "Derived"]⟩ {} (by decide +kernel)
  have named : "Derived" ∈ (lowered.flatMap (·.classes)).map (·.name) := by
    rw [Program.names_layouts done]
    decide +kernel
  obtain ⟨layout, member, named⟩ := List.mem_map.mp named
  refine ⟨rfl, ⟨_, rfl, rfl, rfl⟩, facts, lowered, layout, computed, done, member, named, ?_⟩
  have above : ∃ info, info ∈ (ClassTable.ofUnits [.redeclared]).ancestors layout.name := by
    rw [named]
    exact ⟨_, List.mem_cons_self⟩
  obtain ⟨_, above⟩ := above
  rw [Program.data_of_lower computed done member above, named]
  rfl

end ObjectLowering
