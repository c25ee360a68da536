/-
**The layout of a class is that of the declaration that counts.**

The table keeps the first declaration of a name. A unit that declares a class of its own twice has
both lowered, and then the first layout of the name is that of the entry.

* `ClassTable.class?_unmarked`, `ClassTable.find?_entries`: the entry of a class is the first of its
  name.
* `rel_find?_of_forall₂`: related lists are searched alike.
* **`Program.layout_of_class?`**: the first layout of a class was made from the declaration of its
  entry.
-/

import ObjectLowering.Proofs.Lowering.LoweredClasses

namespace ObjectLowering

open Source (SourceUnit)

/-- The entry of a method says what its declaration does, whether it is marked or not. -/
structure MethodInfo.IsOf (owner : Name) (decl : Source.MethodDecl) (method : MethodInfo) :
    Prop where
  name : method.name = decl.name
  params : method.params = decl.paramTypes
  isStatic : method.flags.isStatic = decl.modifiers.isStatic
  isConstructor : method.flags.isConstructor = decl.isConstructorOf owner
  isVirtual : method.flags.isVirtual =
    (!decl.isConstructorOf owner && !decl.modifiers.isStatic && !decl.modifiers.isPrivate)

theorem MethodInfo.IsOf.plain_of_isVirtual {owner : Name} {decl : Source.MethodDecl}
    {method : MethodInfo} (isOf : method.IsOf owner decl)
    (isVirtual : method.flags.isVirtual = true) :
    method.flags.isConstructor = false ∧ method.flags.isStatic = false := by
  rw [isOf.isVirtual, Bool.and_eq_true, Bool.and_eq_true, Bool.not_eq_true', Bool.not_eq_true']
    at isVirtual
  rw [isOf.isConstructor, isOf.isStatic]
  exact isVirtual.1

namespace PlacedClass

variable (place : PlacedClass) (table : ClassTable)

/-- The entry of a method of the declaration, marked if it overrides. -/
def methodInfo (method : Source.MethodDecl) : MethodInfo :=
  let plain : MethodInfo := {
    name := method.name
    params := method.paramTypes
    ret := method.ret
    flags := .declared method.modifiers (method.isConstructorOf place.decl.name) method.name
    span := method.span }
  if plain.flags.isVirtual && table.inheritsSlot place.decl.parentOrRoot plain then
    { plain with flags := { plain.flags with isOverride := true } }
  else
    plain

theorem isOf_methodInfo (method : Source.MethodDecl) :
    (place.methodInfo table method).IsOf place.decl.name method := by
  unfold methodInfo
  dsimp only
  split <;> exact ⟨rfl, rfl, rfl, rfl, rfl⟩

/-- The methods of an entry are those of its declaration. -/
theorem methods_entry :
    (place.entry.withOverrides table).methods = place.decl.methods.map (place.methodInfo table) :=
  List.map_map

theorem declaredMethods_entry :
    (place.entry.withOverrides table).declaredMethods =
      place.decl.methods.zipIdx.map fun method =>
        (⟨place.decl.name, method.2⟩, place.methodInfo table method.1) := by
  unfold ClassInfo.declaredMethods
  rw [methods_entry, List.zipIdx_map, List.map_map]
  rfl

end PlacedClass

/-! ### First declarations -/

namespace ClassTable

variable {units : List SourceUnit} {name : Name} {info : ClassInfo}

/-- Of the entries that are kept, the one of a name not seen is the first of all. -/
theorem find?_firsts (infos : List ClassInfo) {seen : List Name} (unseen : name ∉ seen) :
    (firsts seen infos).find? (·.name == name) = infos.find? (·.name == name) := by
  induction infos generalizing seen with
  | nil => rfl
  | cons info rest step =>
    unfold firsts
    by_cases same : info.name = name
    · subst same
      rw [if_neg unseen, List.find?_cons, List.find?_cons, beq_self_eq_true]
    · rw [List.find?_cons_of_neg (by rwa [beq_iff_eq])]
      split
      · exact step unseen
      · rw [List.find?_cons_of_neg (by rwa [beq_iff_eq])]
        refine step fun inside => ?_
        rcases List.mem_append.mp inside with before | here
        · exact unseen before
        · exact same (List.mem_singleton.mp here).symm

/-- A class is looked for among the provided ones, then in order of declaration. -/
theorem class?_unmarked (units : List SourceUnit) (name : Name) :
    (unmarked units).class? name = (provided ++ entries units).find? (·.name == name) := by
  have classes : (unmarked units).classes = provided ++ firsts (names ⟨provided⟩) (entries units) :=
    classes_foldl_add (entries units) ⟨provided⟩
  unfold class?
  rw [classes, List.find?_append, List.find?_append]
  by_cases seen : name ∈ names ⟨provided⟩
  · have found := contains_iff_mem_names.mpr seen
    obtain ⟨info, given⟩ := Option.isSome_iff_exists.mp found
    rw [show provided.find? (·.name == name) = some info from given]
    rfl
  · rw [find?_firsts (entries units) seen]

/-- **The entry of a class is the first of its name.** -/
theorem find?_entries (found : (ofUnits units).class? name = some info)
    (user : info.isProvided = false) :
    ∃ plain, (entries units).find? (·.name == name) = some plain ∧ plain ∈ counted units ∧
      info = plain.withOverrides (unmarked units) := by
  have member := List.mem_of_find?_eq_some found
  rw [classes_ofUnits] at member
  obtain ⟨plain, inside, rfl⟩ := List.mem_map.mp member
  have unprovided : plain ∉ provided := by
    intro given
    have unowned : ∀ info ∈ provided, info.isProvided = true := by decide
    cases (unowned plain given).symm.trans user
  have kept := (List.mem_append.mp inside).resolve_left unprovided
  have marked := name_of_class? found
  have named : plain.name = name := marked
  obtain ⟨distinct, fresh⟩ := names_firsts (entries units) (names ⟨provided⟩)
  have unseen : name ∉ names ⟨provided⟩ := named ▸ fresh plain kept
  refine ⟨plain, ?_, kept, rfl⟩
  rw [← find?_firsts (entries units) unseen, ← named]
  have distinct : (names ⟨counted units⟩).Nodup := distinct
  have first := class?_of_mem distinct kept
  exact first

end ClassTable

/-- **Searched for the same, related lists have related items.** -/
theorem rel_find?_of_forall₂ {α β : Type} {related : α → β → Prop} {items : List α}
    {others : List β} (each : List.Forall₂ related items others) {wanted : α → Bool}
    {wantedToo : β → Bool}
    (alike : ∀ item other, related item other → wanted item = wantedToo other) :
    Option.Rel related (items.find? wanted) (others.find? wantedToo) := by
  induction each with
  | nil => exact .none
  | @cons item other _ _ here _ step =>
    rw [List.find?_cons, List.find?_cons, ← alike _ _ here]
    cases wanted item with
    | true => exact .some here
    | false => exact step

/-- What is found in a list has a related item that is found in the other. -/
theorem find?_of_forall₂ {α β : Type} {related : α → β → Prop} {items : List α}
    {results : List β} (each : List.Forall₂ related items results) {wanted : α → Bool}
    {wantedToo : β → Bool}
    (alike : ∀ item result, related item result → wanted item = wantedToo result) {item : α}
    (found : items.find? wanted = some item) :
    ∃ result, results.find? wantedToo = some result ∧ related item result := by
  have both := rel_find?_of_forall₂ each alike
  rw [found] at both
  generalize results.find? wantedToo = second at both ⊢
  cases both with
  | some here => exact ⟨_, rfl, here⟩

/-! ### First layouts -/

namespace Program

variable {units : List SourceUnit} {name : Name} {info : ClassInfo}

/-- The first declaration of a class among those that are lowered is that of its entry. -/
theorem find?_placed (found : (ClassTable.ofUnits units).class? name = some info)
    (user : info.isProvided = false) :
    ∃ place, (placed units).find? (·.decl.name == name) = some place ∧
      info = place.entry.withOverrides (ClassTable.unmarked units) := by
  obtain ⟨plain, first, kept, rfl⟩ := ClassTable.find?_entries found user
  obtain ⟨_, before, behind, split, others⟩ := List.find?_eq_some_iff_append.mp first
  have owned : (plain.unit.any ((ClassTable.ofUnits units).owns · plain.name)) = true := by
    obtain ⟨_, _, _, _, _, rfl⟩ := ClassTable.declared_of_mem_counted kept
    exact ClassTable.owns_of_mem_counted kept rfl
  have lowered : ((placed units).map PlacedClass.entry).find? (·.name == name) = some plain := by
    rw [ClassTable.entries_placed, split, List.filter_append, List.filter_cons, if_pos owned]
    refine List.find?_eq_some_iff_append.mpr ⟨‹_›, _, _, rfl, fun other member => ?_⟩
    exact others other (List.mem_of_mem_filter member)
  rw [List.find?_map] at lowered
  obtain ⟨place, placed, rfl⟩ := Option.map_eq_some_iff.mp lowered
  exact ⟨place, placed, rfl⟩

/-- A method of a class is read off the declaration of the class that counts. -/
theorem isOf_of_declared (found : (ClassTable.ofUnits units).class? name = some info)
    (user : info.isProvided = false) {method : MethodRef × MethodInfo}
    (declared : method ∈ info.declaredMethods) :
    ∃ place ∈ placed units, ∃ decl, place.decl.name = method.1.className ∧
      place.decl.methods[method.1.index]? = some decl ∧ method.2.IsOf place.decl.name decl := by
  obtain ⟨place, first, rfl⟩ := find?_placed found user
  rw [PlacedClass.declaredMethods_entry] at declared
  obtain ⟨⟨decl, index⟩, inside, rfl⟩ := List.mem_map.mp declared
  exact ⟨place, List.mem_of_find?_eq_some first, decl, rfl, List.mem_zipIdx_iff_getElem?.mp inside,
    place.isOf_methodInfo _ decl⟩

variable {names : NameTable} {facts : Facts} {options : LoweringOptions}
  {lowered : List Lowered.TreeUnit}

/-- The class was lowered to the layout, which was made from the declaration of its entry. -/
structure LayoutOf (units : List SourceUnit) (facts : Facts) (options : LoweringOptions)
    (info : ClassInfo) (layout : Lowered.ClassLayout Lowered.Expr Lowered.Stmt)
    (place : PlacedClass) : Prop where
  counts : place ∈ placed units
  entry : info = place.entry.withOverrides (ClassTable.unmarked units)
  lays : Lowering.Lays (contextAt units facts options place.index place.unit) place.decl layout

/-- **The first layout of a class was made from the declaration of its entry.** -/
theorem layout_of_class? (done : (ofUnits units).lower facts options = .ok lowered)
    (found : (ClassTable.ofUnits units).class? name = some info)
    (user : info.isProvided = false) :
    ∃ layout place, (lowered.flatMap (·.classes)).find? (·.name == name) = some layout ∧
      LayoutOf units facts options info layout place := by
  obtain ⟨place, first, entered⟩ := find?_placed found user
  have each := (ok_of_lower done).imp fun _ _ => Lowering.lays_of_lowerClass
  obtain ⟨layout, there, lays⟩ :=
    find?_of_forall₂ each (fun _ _ built => congrArg (· == name) built.named.symm) first
  exact ⟨layout, place, there, List.mem_of_find?_eq_some first, entered, lays⟩

end Program

end ObjectLowering
