/-
**What an object holds after both phases of construction.**

The raw constructor sets every member to its default. Then the construction routine runs that of the
parent and assigns the values that the class gives to its own fields. Members are reached by name.

* `Members` is what an object holds, `Lowered.construct` runs the second phase on it, each value
  taken as it stands, and `Lowered.constructed?` runs both phases.
* `givenValues` are the values that the classes of a lineage give, in the order of assignment.
* `Program.assigned_of_lineage`: where no class has a constructor, the second phase assigns these.
* `getLast?_givenValues`: where a name has one type, the nearest class that gives a value gives the
  last.
* **`constructed_holds`**: each member holds the value that is given last under its name; if one
  entry has the name, that of the nearest class that gives one, and its default if there is none.
-/

import ObjectLowering.Proofs.Construction.InitRuns
import ObjectLowering.Proofs.Initializers.FieldMembers

namespace ObjectLowering

open Source (SourceUnit)

/-! ### Running both phases -/

/-- What the members of an object hold, by name. -/
abbrev Members := Name → Option Lowered.Expr

namespace Members

/-- The members before anything is set. -/
def blank : Members := fun _ => none

def set (members : Members) (name : Name) (value : Lowered.Expr) : Members :=
  fun other => if other = name then some value else members other

/-- Sets several members, the first one first. -/
def setAll (members : Members) (values : List (Name × Lowered.Expr)) : Members :=
  values.foldl (fun members value => members.set value.1 value.2) members

theorem setAll_append (members : Members) (values others : List (Name × Lowered.Expr)) :
    members.setAll (values ++ others) = (members.setAll values).setAll others :=
  List.foldl_append

/-- **A member holds what was set last under its name.** -/
theorem setAll_apply (members : Members) (values : List (Name × Lowered.Expr)) (name : Name) :
    members.setAll values name =
      (((values.filter (·.1 == name)).getLast?).map (·.2)).or (members name) := by
  induction values generalizing members with
  | nil => rfl
  | cons value rest step =>
    rw [setAll, List.foldl_cons]
    refine (step _).trans ?_
    rw [List.filter_cons]
    unfold set
    by_cases same : name = value.1
    · rw [if_pos same, if_pos (beq_iff_eq.mpr same.symm), List.getLast?_cons]
      cases (rest.filter _).getLast? <;> rfl
    · rw [if_neg same, if_neg fun equal => same (beq_iff_eq.mp equal).symm]

end Members

namespace Lowered

/-- What the raw constructor sets, in order. -/
def ctorValues (ctor : List (MemberInit Expr)) : List (Name × Expr) :=
  ctor.filterMap fun
    | .vtablePtr => none
    | .field name value => some (name, value)

/-- The body of the construction routine of a class that has one. -/
def initBody? (layout : ClassLayout Expr Stmt) : Option (List Stmt) :=
  match (layout.inits.map (·.body) : List Stmt) with
  | [.block body] => some body
  | _ => none

/-- Runs the statements of a construction routine on the members of the receiver: the construction
of a parent, assignments to members, and the return of the receiver. -/
def runInit (self : Name) (construct : Name → Members → Option Members) :
    List Stmt → Members → Option Members
  | [], members => some members
  | .ret (.localVar _ name) :: _, members => if name = self then some members else none
  | .eval (.initCall _ parent [.localVar _ name]) :: rest, members =>
    if name = self then (construct parent members).bind (runInit self construct rest) else none
  | .eval (.assign _ (.field _ (.localVar _ name) field) value) :: rest, members =>
    if name = self then runInit self construct rest (members.set field value) else none
  | _ :: _, _ => none

/-- Runs the second phase of construction of a class, with calls nested to some depth. A provided
class has no members. -/
def construct (layouts : List (ClassLayout Expr Stmt)) (self : Name) :
    Nat → Name → Members → Option Members
  | 0, _, _ => none
  | depth + 1, className, members =>
    match layouts.find? (·.name == className) with
    | some layout =>
      (initBody? layout).bind fun body => runInit self (construct layouts self depth) body members
    | none => if className ∈ ClassTable.names ⟨ClassTable.provided⟩ then some members else none

/-- The members of a new object of a class after both phases. No class is constructed within itself,
so there are no more nested calls than classes. -/
def constructed? (layouts : List (ClassLayout Expr Stmt)) (self className : Name) :
    Option Members :=
  (layouts.find? (·.name == className)).bind fun layout =>
    construct layouts self (layouts.length + ClassTable.provided.length + 1) className
      (Members.blank.setAll (ctorValues layout.ctor))

end Lowered

/-! ### The values that classes give -/

open Lowering (Gives ownValues AssignsField defaultExpr selfExpr)

/-- The values that the classes of a lineage give to their own fields, each with its class, in the
order in which they are assigned: the root's first. -/
def givenValues : List ClassInfo → List (Name × Name × Source.Expr)
  | [] => []
  | info :: older => givenValues older ++
      (ownValues info.name ((info :: older).foldr ClassInfo.extendChain [])).map (info.name, ·)

/-- The value that the nearest class gives to a field of a name and type, with the class. -/
def nearestValue? (infos : List ClassInfo) (slot : Name × Ty) : Option (Name × Source.Expr) :=
  infos.findSome? fun info =>
    (info.lastField? slot).bind fun last => last.value.map (info.name, ·)

/-- An entry with a value has the nearest one. -/
theorem nearestValue?_of_value {infos : List ClassInfo} {slot : Name × Ty}
    {init : Initializer Source.Expr} (nearest : infos.findSome? (·.lastField? slot) = some init)
    {value : Source.Expr} (given : init.value = some value) :
    nearestValue? infos slot = some (init.owner, value) := by
  unfold nearestValue?
  induction infos with
  | nil => cases nearest
  | cons info rest step =>
    rw [List.findSome?_cons] at nearest ⊢
    cases last : info.lastField? slot with
    | none =>
      rw [last] at nearest
      exact step nearest
    | some field =>
      rw [last] at nearest
      cases nearest
      rw [Option.bind_some, given, (ClassInfo.lastField?_spec last).2.2]
      rfl

theorem filter_ownValues (className name : Name) (chain : List (Initializer Source.Expr)) :
    (ownValues className chain).filter (·.1 == name) =
      ownValues className (chain.filter (·.name == name)) := by
  unfold ownValues
  rw [List.filter_comm]
  generalize chain.filter (·.owner == className) = own
  rw [List.filter_filterMap, List.filterMap_filter]
  refine congrArg (fun step => List.filterMap step own) (funext fun init => ?_)
  cases init.value with
  | none => exact (ite_self _).symm
  | some value => rfl

/-- The value that a class gives to a slot, if no other slot has its name: that of its last field of
the slot. -/
theorem ownValues_of_slot {info : ClassInfo} {older : List ClassInfo} {slot : Name × Ty}
    (apart : info.name ∉ older.map (·.name))
    (only : ∀ init ∈ (info :: older).foldr ClassInfo.extendChain [],
      init.name = slot.1 → init.slot = slot) :
    (ownValues info.name ((info :: older).foldr ClassInfo.extendChain [])).filter
        (·.1 == slot.1) =
      (((info.lastField? slot).bind (·.value)).map (slot.1, ·)).toList := by
  have entries : ((info :: older).foldr ClassInfo.extendChain []).filter (·.name == slot.1) =
      ((info :: older).findSome? (·.lastField? slot)).toList := by
    rw [← find?_extendChains, ← filter_slot _ _ (slots_nodup_extendChains _)]
    refine List.filter_congr fun init member => ?_
    rw [Bool.eq_iff_iff, beq_iff_eq, beq_iff_eq]
    exact ⟨only init member, fun same => congrArg Prod.fst same⟩
  rw [filter_ownValues, entries, List.findSome?_cons]
  cases last : info.lastField? slot with
  | some field =>
    obtain ⟨_, rfl, owned⟩ := ClassInfo.lastField?_spec last
    unfold ownValues
    rw [Option.toList_some, List.filter_cons, owned, beq_self_eq_true, if_pos rfl]
    cases given : field.value <;> simp [given, Initializer.slot]
  | none =>
    cases inherited : older.findSome? (·.lastField? slot) with
    | none => rfl
    | some field =>
      obtain ⟨above, member, last⟩ := List.exists_of_findSome?_eq_some inherited
      have other : field.owner ≠ info.name := by
        rw [(ClassInfo.lastField?_spec last).2.2]
        exact fun same => apart (List.mem_map.mpr ⟨above, member, same⟩)
      unfold ownValues
      simp [other]

/-- **Where a name has one type, the nearest class that gives a value gives the last.** -/
theorem getLast?_givenValues {infos : List ClassInfo} {slot : Name × Ty}
    (distinct : (infos.map (·.name)).Nodup)
    (only : ∀ init ∈ infos.foldr ClassInfo.extendChain [],
      init.name = slot.1 → init.slot = slot) :
    ((givenValues infos).filter (·.2.1 == slot.1)).getLast? =
      (nearestValue? infos slot).map fun given => (given.1, slot.1, given.2) := by
  induction infos with
  | nil => rfl
  | cons info older step =>
    obtain ⟨apart, distinct⟩ := List.nodup_cons.mp distinct
    have onlyOlder : ∀ init ∈ older.foldr ClassInfo.extendChain [],
        init.name = slot.1 → init.slot = slot := by
      intro init member named
      obtain ⟨above, inside, declares⟩ := mem_slots_extendChains.mp (List.mem_map_of_mem member)
      obtain ⟨kept, stored, same⟩ := List.mem_map.mp
        (mem_slots_extendChains.mpr ⟨above, List.mem_cons_of_mem info inside, declares⟩)
      rw [← same]
      exact only kept stored ((congrArg Prod.fst same).trans named)
    have own := ownValues_of_slot apart only
    rw [givenValues, List.filter_append, List.getLast?_append, step distinct onlyOlder,
      List.filter_map]
    rw [show ((fun given : Name × Name × Source.Expr => given.2.1 == slot.1) ∘
      fun value : Name × Source.Expr => (info.name, value)) = fun value => value.1 == slot.1
        from rfl, own]
    unfold nearestValue?
    rw [List.findSome?_cons]
    cases info.lastField? slot with
    | none => rfl
    | some last =>
      rw [Option.bind_some, Option.bind_some]
      cases last.value <;> rfl

/-! ### Provided classes -/

namespace ClassTable

variable {units : List SourceUnit} {name : Name} {info : ClassInfo}

/-- A provided class is found under its name, with no fields and below provided classes only. -/
theorem class?_of_provided (units : List SourceUnit) (inside : name ∈ names ⟨provided⟩) :
    ∃ info, (ofUnits units).class? name = some info ∧ info.isProvided = true ∧ info.fields = [] ∧
      (info.parent = Reserved.empty ∨ info.parent ∈ names ⟨provided⟩) := by
  obtain ⟨plain, given, rfl⟩ := List.mem_map.mp inside
  have listed : ∀ info ∈ provided, info.isProvided = true ∧ info.fields.isEmpty = true ∧
      (info.parent = Reserved.empty ∨ info.parent ∈ names ⟨provided⟩) := by decide
  obtain ⟨isProvided, fieldless, above⟩ := listed plain given
  have member : plain.withOverrides (unmarked units) ∈ (ofUnits units).classes := by
    rw [classes_ofUnits]
    exact List.mem_map_of_mem (List.mem_append_left _ given)
  have found := class?_of_mem (names_nodup_ofUnits units) member
  exact ⟨_, found, isProvided, List.isEmpty_iff.mp fieldless, above⟩

theorem mem_names_provided (found : (ofUnits units).class? name = some info)
    (isProvided : info.isProvided = true) : name ∈ names ⟨provided⟩ := by
  have member := List.mem_of_find?_eq_some found
  rw [classes_ofUnits] at member
  obtain ⟨plain, inside, rfl⟩ := List.mem_map.mp member
  have marked := name_of_class? found
  have named : plain.name = name := marked
  rw [← named]
  rcases List.mem_append.mp inside with given | kept
  · exact List.mem_map_of_mem given
  · obtain ⟨_, _, _, _, _, rfl⟩ := declared_of_mem_counted kept
    cases isProvided

end ClassTable

/-- Entries of different names have different names. -/
theorem ClassTable.nodup_names_filterMap (table : ClassTable) {classes : List Name}
    (distinct : classes.Nodup) : ((classes.filterMap table.class?).map (·.name)).Nodup := by
  refine distinct.sublist ?_
  clear distinct
  induction classes with
  | nil => exact .slnil
  | cons name rest step =>
    cases found : table.class? name with
    | none =>
      rw [List.filterMap_cons_none found]
      exact step.cons name
    | some info =>
      rw [List.filterMap_cons_some found, List.map_cons, name_of_class? found]
      exact step.cons_cons name

theorem givenValues_of_fieldless {infos : List ClassInfo}
    (fieldless : ∀ info ∈ infos, info.fields = []) :
    infos.foldr ClassInfo.extendChain [] = [] ∧ givenValues infos = [] := by
  induction infos with
  | nil => exact ⟨rfl, rfl⟩
  | cons info older step =>
    obtain ⟨here, above⟩ := List.forall_mem_cons.mp fieldless
    obtain ⟨empty, none⟩ := step above
    have chain : (info :: older).foldr ClassInfo.extendChain [] = [] := by
      rw [List.foldr_cons, empty]
      unfold ClassInfo.extendChain ClassInfo.instanceFields
      rw [here]
      rfl
    refine ⟨chain, ?_⟩
    rw [givenValues, none, chain]
    rfl

/-- Above a provided class there are only provided ones, and none of them gives a value. -/
theorem ClassTable.provided_of_lineage {units : List SourceUnit} {className : Name}
    {classes : List Name} (lineage : IsLineage (ofUnits units).parentMap className classes)
    (inside : className ∈ names ⟨provided⟩) :
    ∀ info ∈ classes.filterMap (ofUnits units).class?,
      info.isProvided = true ∧ info.fields = [] := by
  induction lineage with
  | @root name _ =>
    obtain ⟨info, found, isProvided, fieldless, _⟩ := class?_of_provided units inside
    rw [List.filterMap_cons_some found]
    exact List.forall_mem_singleton.mpr ⟨isProvided, fieldless⟩
  | @child name parent older declared named _ _ _ step =>
    obtain ⟨info, found, isProvided, fieldless, above⟩ := class?_of_provided units inside
    rw [lookup_parentMap, found, Option.map_some, Option.some.injEq] at declared
    rw [declared] at above
    rw [List.filterMap_cons_some found]
    exact List.forall_mem_cons.mpr ⟨⟨isProvided, fieldless⟩, step (above.resolve_left named)⟩

/-! ### Classes of the program -/

namespace Program

variable {units : List SourceUnit} {names : NameTable} {options : LoweringOptions} {facts : Facts}
  {lowered : List Lowered.TreeUnit} {className : Name} {info : ClassInfo}

open Lowering (constructions Lays)

/-- A class whose entry has no constructor has the one routine that is made without a source. -/
theorem constructions_of_entry {place : PlacedClass}
    (entry : info = place.entry.withOverrides (ClassTable.unmarked units))
    (plain : info.hasConstructor = false) : constructions place.decl = [none] := by
  have none : place.decl.methods.zipIdx.filter (·.1.isConstructorOf place.decl.name) = [] := by
    refine List.filter_eq_nil_iff.mpr fun method member constructs => ?_
    have isOf := place.isOf_methodInfo (ClassTable.unmarked units) method.1
    have declared : place.methodInfo (ClassTable.unmarked units) method.1 ∈ info.methods := by
      rw [entry, place.methods_entry]
      exact List.mem_map_of_mem (List.fst_mem_of_mem_zipIdx member)
    rw [← isOf.isConstructor] at constructs
    exact List.any_eq_false.mp plain _ declared constructs
  unfold constructions
  rw [none]
  rfl

/-- The value, lowered where an object of its class is constructed. -/
def LowersTo (units : List SourceUnit) (facts : Facts) (options : LoweringOptions) (owner : Name)
    (value : Source.Expr) (held : Lowered.Expr) : Prop :=
  ∃ place ∈ placed units, place.decl.name = owner ∧
    Gives (value.lower (contextAt units facts options place.index place.unit)
      ⟨owner, none, .constructor, false⟩) held

/-- The assignment gives a member the value, lowered. -/
def Assigns (units : List SourceUnit) (facts : Facts) (options : LoweringOptions)
    (given : Name × Name × Source.Expr) (assigned : Name × Lowered.Expr) : Prop :=
  given.2.1 = assigned.1 ∧ LowersTo units facts options given.1 given.2.2 assigned.2

/-- A provided class has no layout, and constructing it changes nothing. -/
theorem construct_of_provided (done : (ofUnits units).lower facts options = .ok lowered)
    (inside : className ∈ ClassTable.names ⟨ClassTable.provided⟩) (self : Name) (depth : Nat)
    (members : Members) :
    Lowered.construct (lowered.flatMap (·.classes)) self (depth + 1) className members =
      some members := by
  have absent : (lowered.flatMap (·.classes)).find? (·.name == className) = none := by
    refine List.find?_eq_none.mpr fun layout member same => ?_
    obtain ⟨place, counts, built⟩ := exists_of_mem_right (ok_of_lower done) member
    have user := ClassTable.mem_userClasses_of_placed counts
    rw [← (Lowering.lays_of_lowerClass built).named, beq_iff_eq.mp same] at user
    obtain ⟨info, found, unprovided⟩ := ClassTable.class?_of_user user
    obtain ⟨other, foundToo, isProvided, _⟩ := ClassTable.class?_of_provided units inside
    cases found.symm.trans foundToo
    cases unprovided.symm.trans isProvided
  unfold Lowered.construct
  rw [absent]
  exact if_pos inside

/-- Assignments to the receiver's members set them to the values, lowered, up to the end of the
routine. -/
theorem runInit_assigns {context : Lowering.Context} {routine : Routine} {span : Span}
    {fields : List (Name × Source.Expr)} {assigns final : List Lowered.Stmt}
    (assigned : List.Forall₂ (AssignsField context routine span) fields assigns)
    (returns : Lowering.ReturnsReceiver context span final)
    (construct : Name → Members → Option Members) (members : Members) :
    ∃ values, List.Forall₂ (fun field (value : Name × Lowered.Expr) =>
        field.1 = value.1 ∧ Gives (field.2.lower context routine) value.2) fields values ∧
      Lowered.runInit context.options.selfParam construct (assigns ++ final) members =
        some (members.setAll values) := by
  induction assigned generalizing members with
  | nil =>
    refine ⟨[], .nil, ?_⟩
    rcases returns with rfl | rfl
    · rfl
    · exact if_pos rfl
  | @cons field stmt _ _ here _ step =>
    obtain ⟨value, given, rfl⟩ := here
    obtain ⟨values, each, ran⟩ := step (members.set field.1 value)
    exact ⟨(field.1, value) :: values, .cons ⟨rfl, given⟩ each, (if_pos rfl).trans ran⟩

/-- **A class without a constructor constructs its parent's part, then assigns its own values.** -/
theorem construct_of_class (computed : (ofUnits units).facts names options = .ok facts)
    (done : (ofUnits units).lower facts options = .ok lowered)
    (found : (ClassTable.ofUnits units).class? className = some info)
    (user : info.isProvided = false) (plain : info.hasConstructor = false) {classes : List Name}
    (lineage : IsLineage (ClassTable.ofUnits units).parentMap className classes) {depth : Nat}
    {members after : Members}
    (parent : Lowered.construct (lowered.flatMap (·.classes)) options.selfParam depth
      (((ClassTable.ofUnits units).supertype? className).getD Reserved.object) members =
        some after) :
    ∃ values, List.Forall₂ (Assigns units facts options)
        ((ownValues className ((classes.filterMap (ClassTable.ofUnits units).class?).foldr
          ClassInfo.extendChain [])).map (className, ·)) values ∧
      Lowered.construct (lowered.flatMap (·.classes)) options.selfParam (depth + 1) className
        members = some (after.setAll values) := by
  obtain ⟨layout, place, first, counts, entry, lays⟩ := layout_of_class? done found user
  have named : place.decl.name = className := by
    rw [← ClassTable.name_of_class? found, entry]
    rfl
  subst named
  obtain ⟨chain, resolved, _⟩ := lays.members
  obtain ⟨_, isLineage, rfl⟩ :=
    InitializerChains.lineage_of_instance? (chains_of_facts computed) resolved
  obtain rfl := lineage.unique isLineage
  have routines := lays.inits
  rw [constructions_of_entry entry plain] at routines
  obtain ⟨routine, _, made, none, inits⟩ := List.forall₂_cons_left_iff.mp routines
  obtain rfl := List.forall₂_nil_left_iff.mp none
  obtain ⟨assigns, _, final, shape, assigned, kept, returns, _⟩ :=
    (Lowering.constructs_of_lowerConstruction resolved made).plain nofun
  obtain rfl := List.forall₂_nil_left_iff.mp kept
  rw [chainOf_ofTable] at assigned
  obtain ⟨values, each, ran⟩ := runInit_assigns assigned returns
    (Lowered.construct (lowered.flatMap (·.classes)) options.selfParam depth) after
  refine ⟨values, ?_, ?_⟩
  · refine List.forall₂_map_left_iff.mpr (each.imp fun field value known => ?_)
    exact ⟨known.1, place, counts, rfl, known.2⟩
  · have body : Lowered.initBody? layout = some (.eval (.initCall place.decl.span
        (((ClassTable.ofUnits units).supertype? place.decl.name).getD Reserved.object)
          [.localVar place.decl.span options.selfParam]) :: (assigns ++ final)) := by
      unfold Lowered.initBody?
      rw [inits, List.map_singleton, shape]
      rfl
    unfold Lowered.construct
    rw [first]
    dsimp only
    rw [body, Option.bind_some]
    unfold Lowered.runInit
    rw [if_pos rfl, parent]
    exact ran

/-- What the second phase of construction of a class does to the members: it assigns the values that
the classes of the lineage give. -/
def Assigned (units : List SourceUnit) (facts : Facts) (options : LoweringOptions)
    (classes : List Name) (members : Members) (after : Option Members) : Prop :=
  ∃ values, List.Forall₂ (Assigns units facts options)
      (givenValues (classes.filterMap (ClassTable.ofUnits units).class?)) values ∧
    after = some (members.setAll values)

/-- A provided class has only provided ones above it, and none of them gives a value. -/
theorem assigned_of_provided (done : (ofUnits units).lower facts options = .ok lowered)
    {classes : List Name}
    (lineage : IsLineage (ClassTable.ofUnits units).parentMap className classes)
    (inside : className ∈ ClassTable.names ⟨ClassTable.provided⟩) (depth : Nat)
    (members : Members) :
    Assigned units facts options classes members
      (Lowered.construct (lowered.flatMap (·.classes)) options.selfParam (depth + 1) className
        members) := by
  refine ⟨[], ?_, construct_of_provided done inside _ _ _⟩
  rw [(givenValues_of_fieldless fun info member =>
    (ClassTable.provided_of_lineage lineage inside info member).2).2]
  exact .nil

/-- **Where no class of a lineage has a constructor, the second phase assigns the given values**,
the root's first. -/
theorem assigned_of_lineage (computed : (ofUnits units).facts names options = .ok facts)
    (done : (ofUnits units).lower facts options = .ok lowered) {classes : List Name}
    (lineage : IsLineage (ClassTable.ofUnits units).parentMap className classes)
    (inside : (ClassTable.ofUnits units).contains className = true)
    (plain : ∀ info ∈ classes.filterMap (ClassTable.ofUnits units).class?,
      info.hasConstructor = false) {depth : Nat} (deep : classes.length < depth)
    (members : Members) :
    Assigned units facts options classes members
      (Lowered.construct (lowered.flatMap (·.classes)) options.selfParam depth className
        members) := by
  induction lineage generalizing depth with
  | @root name rootless =>
    obtain ⟨depth, rfl⟩ := Nat.exists_eq_add_of_le' deep
    obtain ⟨info, found⟩ := Option.isSome_iff_exists.mp inside
    cases isProvided : info.isProvided with
    | true =>
      have listed := ClassTable.mem_names_provided found isProvided
      exact assigned_of_provided done (.root rootless) listed _ members
    | false =>
      have alone := rootless info.parent (ClassTable.declared_of_class? found)
      have parent : ((ClassTable.ofUnits units).supertype? name).getD Reserved.object =
          Reserved.object := by
        unfold ClassTable.supertype?
        rw [found, Option.bind_some, if_pos alone]
        rfl
      have above : Lowered.construct (lowered.flatMap (·.classes)) options.selfParam (depth + 1)
          (((ClassTable.ofUnits units).supertype? name).getD Reserved.object) members =
            some members := by
        rw [parent]
        exact construct_of_provided done (by decide) _ _ _
      rw [List.filterMap_cons_some found] at plain
      obtain ⟨values, each, ran⟩ := construct_of_class computed done found isProvided
        (plain info List.mem_cons_self) (.root rootless) above
      refine ⟨values, ?_, ran⟩
      rw [List.filterMap_cons_some found, List.filterMap_nil] at each ⊢
      rw [givenValues, givenValues, List.nil_append, ClassTable.name_of_class? found]
      exact each
  | @child name parent older declared nonempty known rest fresh step =>
    obtain ⟨depth, rfl⟩ := Nat.exists_eq_add_of_le' deep
    obtain ⟨info, found⟩ := Option.isSome_iff_exists.mp inside
    cases isProvided : info.isProvided with
    | true =>
      have listed := ClassTable.mem_names_provided found isProvided
      exact assigned_of_provided done (.child declared nonempty known rest fresh) listed _ members
    | false =>
      have above : (ClassTable.ofUnits units).supertype? name = some parent := by
        rw [ClassTable.lookup_parentMap, found, Option.map_some, Option.some.injEq] at declared
        unfold ClassTable.supertype?
        rw [found, Option.bind_some, declared, if_neg nonempty]
      rw [List.filterMap_cons_some found] at plain
      have plainOlder := fun info member => plain info (List.mem_cons_of_mem _ member)
      have deeper : older.length < depth + older.length + 1 := by omega
      obtain ⟨olderValues, eachOlder, ranOlder⟩ :=
        step (ClassTable.contains_iff.mpr known) plainOlder deeper
      obtain ⟨values, each, ran⟩ := construct_of_class computed done found isProvided
        (plain info List.mem_cons_self) (.child declared nonempty known rest fresh)
        (by rw [above]; exact ranOlder)
      refine ⟨olderValues ++ values, ?_, ?_⟩
      · rw [List.filterMap_cons_some found] at each ⊢
        rw [givenValues, ClassTable.name_of_class? found]
        exact List.rel_append eachOlder each
      · rw [Members.setAll_append]
        exact ran

/-- The last assignment to a member sets the last value that is given under its name. -/
theorem last_of_assigns {given : List (Name × Name × Source.Expr)}
    {values : List (Name × Lowered.Expr)}
    (each : List.Forall₂ (Assigns units facts options) given values) (name : Name) :
    (((given.filter (·.2.1 == name)).getLast? = none →
        (values.filter (·.1 == name)).getLast? = none) ∧
      ∀ last, (given.filter (·.2.1 == name)).getLast? = some last →
        ∃ value, (values.filter (·.1 == name)).getLast? = some value ∧
          LowersTo units facts options last.1 last.2.2 value.2) := by
  have alike : ∀ given value, Assigns units facts options given value →
      (given.2.1 == name) = (value.1 == name) := fun _ _ known => by rw [known.1]
  rw [List.getLast?_filter, List.getLast?_filter]
  have reversed := List.forall₂_reverse_iff.mpr each
  refine ⟨fun absent => ?_, fun last found => ?_⟩
  · cases found : values.reverse.find? (·.1 == name) with
    | none => rfl
    | some value =>
      obtain ⟨_, there, _⟩ := find?_of_forall₂ reversed.flip
        (fun value given known => (alike given value known).symm) found
      cases absent.symm.trans there
  · obtain ⟨value, there, known⟩ := find?_of_forall₂ reversed alike found
    exact ⟨value, there, known.2⟩

theorem ctorValues_ctorMembers (span : Span) (chain : List (Initializer Source.Expr)) :
    Lowered.ctorValues (Lowering.ctorMembers span chain) =
      chain.map fun init => (init.name, defaultExpr span init.default) := by
  unfold Lowered.ctorValues Lowering.ctorMembers
  rw [List.filterMap_append, List.filterMap_map]
  show chain.filterMap (fun init => some (init.name, defaultExpr span init.default)) ++ [] = _
  rw [List.append_nil, List.filterMap_eq_map']

/-- The raw constructor sets a member to the default of the last entry of its name. -/
theorem setAll_ctorValues (span : Span) (chain : List (Initializer Source.Expr)) (name : Name) :
    Members.blank.setAll (Lowered.ctorValues (Lowering.ctorMembers span chain)) name =
      ((chain.filter (·.name == name)).getLast?).map fun init => defaultExpr span init.default := by
  rw [Members.setAll_apply, ctorValues_ctorMembers, List.filter_map, List.getLast?_map]
  show (Option.map _ (Option.map _ _)).or none = _
  rw [Option.or_none, Option.map_map]
  rfl

/-- The value that is given last under the name, lowered; the default of the last entry of the name
if no class gives one. -/
structure HoldsLast (units : List SourceUnit) (facts : Facts) (options : LoweringOptions)
    (infos : List ClassInfo) (chain : List (Initializer Source.Expr)) (name : Name)
    (held : Lowered.Expr) : Prop where
  given : ∀ last, ((givenValues infos).filter (·.2.1 == name)).getLast? = some last →
    LowersTo units facts options last.1 last.2.2 held
  default : ((givenValues infos).filter (·.2.1 == name)).getLast? = none →
    ∃ last, (chain.filter (·.name == name)).getLast? = some last ∧
      ∃ span, held = defaultExpr span last.default

/-- **After the assignments of a lineage, a member holds the value that was given last under its
name.** -/
theorem holdsLast_of_assigns {infos : List ClassInfo} {values : List (Name × Lowered.Expr)}
    (each : List.Forall₂ (Assigns units facts options) (givenValues infos) values) (span : Span)
    {chain : List (Initializer Source.Expr)} {init : Initializer Source.Expr}
    (member : init ∈ chain) :
    ∃ held, (Members.blank.setAll (Lowered.ctorValues (Lowering.ctorMembers span chain))).setAll
        values init.name = some held ∧
      HoldsLast units facts options infos chain init.name held := by
  have among : init ∈ chain.filter (·.name == init.name) :=
    List.mem_filter.mpr ⟨member, beq_self_eq_true _⟩
  obtain ⟨final, isFinal⟩ := Option.ne_none_iff_exists'.mp
    (mt List.getLast?_eq_none_iff.mp (List.ne_nil_of_mem among))
  obtain ⟨untouched, touched⟩ := last_of_assigns each init.name
  rw [Members.setAll_apply, setAll_ctorValues, isFinal]
  cases last : ((givenValues infos).filter (·.2.1 == init.name)).getLast? with
  | none =>
    rw [untouched last]
    refine ⟨_, rfl, fun given found => ?_, fun _ => ⟨final, isFinal, span, rfl⟩⟩
    cases found.symm.trans last
  | some given =>
    obtain ⟨stored, isLast, lowers⟩ := touched given last
    rw [isLast]
    refine ⟨_, rfl, fun other found => ?_, fun absent => ?_⟩
    · cases found.symm.trans last
      exact lowers
    · cases absent.symm.trans last

/-- The value that the nearest class gives to a field of the entry's name and type, lowered; the
default of the entry if no class gives one. -/
structure HoldsNearest (units : List SourceUnit) (facts : Facts) (options : LoweringOptions)
    (infos : List ClassInfo) (init : Initializer Source.Expr) (held : Lowered.Expr) : Prop where
  explicit : ∀ value, init.value = some value → LowersTo units facts options init.owner value held
  nearest : ∀ owner value, nearestValue? infos init.slot = some (owner, value) →
    LowersTo units facts options owner value held
  default : nearestValue? infos init.slot = none → ∃ span, held = defaultExpr span init.default

/-- **Where an entry has its name alone, the value that is given last is the nearest.** -/
theorem holdsNearest_of_holdsLast {infos : List ClassInfo}
    (distinct : (infos.map (·.name)).Nodup) {init : Initializer Source.Expr}
    (member : init ∈ infos.foldr ClassInfo.extendChain [])
    (alone : ∀ other ∈ infos.foldr ClassInfo.extendChain [],
      other.name = init.name → other = init) {held : Lowered.Expr}
    (holds : HoldsLast units facts options infos (infos.foldr ClassInfo.extendChain []) init.name
      held) : HoldsNearest units facts options infos init held := by
  have entry : infos.findSome? (·.lastField? init.slot) = some init := by
    have there : ((infos.foldr ClassInfo.extendChain []).find? (·.slot == init.slot)).isSome :=
      List.find?_isSome.mpr ⟨init, member, beq_self_eq_true init.slot⟩
    obtain ⟨other, found⟩ := Option.isSome_iff_exists.mp there
    have same := List.find?_some found
    rw [← find?_extendChains, found]
    refine congrArg some (alone other (List.mem_of_find?_eq_some found) ?_)
    exact congrArg Prod.fst (beq_iff_eq.mp same)
  have last := getLast?_givenValues distinct fun other inside sameName =>
    congrArg Initializer.slot (alone other inside sameName)
  have nearest : ∀ owner value, nearestValue? infos init.slot = some (owner, value) →
      LowersTo units facts options owner value held := by
    intro owner value found
    rw [found] at last
    exact holds.given _ last
  refine ⟨fun value has => nearest _ _ (nearestValue?_of_value entry has), nearest, fun none => ?_⟩
  rw [none] at last
  obtain ⟨final, isFinal, shown⟩ := holds.default last
  obtain ⟨inside, same⟩ := List.mem_filter.mp (List.mem_of_getLast? isFinal)
  obtain rfl := alone final inside (beq_iff_eq.mp same)
  exact shown

/-- There are as many layouts as classes of source, so construction is not cut short. -/
theorem length_lt_of_lineage (done : (ofUnits units).lower facts options = .ok lowered)
    {classes : List Name}
    (lineage : IsLineage (ClassTable.ofUnits units).parentMap className classes)
    (inside : (ClassTable.ofUnits units).contains className = true) :
    classes.length < (lowered.flatMap (·.classes)).length + ClassTable.provided.length + 1 := by
  have bounded := ClassTable.length_le_of_isLineage lineage inside
  have size : (ClassTable.ofUnits units).size =
      ClassTable.provided.length + (ClassTable.ofUnits units).userClasses.length := by
    unfold ClassTable.size
    rw [ClassTable.classes_ofUnits, ClassTable.userClasses_ofUnits, List.length_map,
      List.length_map, List.length_append]
  have fewer := (ClassTable.names_userClasses_sublist units).length_le
  rw [← names_layouts done, List.length_map, List.length_map] at fewer
  omega

end Program

/-- **Each member holds the value that is given last under its name**, the root's values being given
first, and its default if none is. If an entry has its name alone, this is the value of the nearest
class that gives one to a field of its name and type, so that of the entry if it has one. -/
theorem constructed_holds {units : List SourceUnit} {names : NameTable}
    {options : LoweringOptions} {facts : Facts} {lowered : List Lowered.TreeUnit}
    (computed : (Program.ofUnits units).facts names options = .ok facts)
    (done : (Program.ofUnits units).lower facts options = .ok lowered) {className : Name}
    (user : className ∈ (ClassTable.ofUnits units).userClasses.map (·.name)) :
    ∃ classes chain,
      Lineage.of (ClassTable.ofUnits units).parentMap className = .complete classes ∧
      facts.chains.instance? className = some chain ∧
      let infos := classes.filterMap (ClassTable.ofUnits units).class?
      ((∀ info ∈ infos, info.hasConstructor = false) →
        ∃ members,
          Lowered.constructed? (lowered.flatMap (·.classes)) options.selfParam className =
            some members ∧
          ∀ init ∈ chain, ∃ held, members init.name = some held ∧
            Program.HoldsLast units facts options infos chain init.name held ∧
            ((∀ other ∈ chain, other.name = init.name → other = init) →
              Program.HoldsNearest units facts options infos init held)) := by
  obtain ⟨info, found, unprovided⟩ := ClassTable.class?_of_user user
  have inside := ClassTable.contains_of_class? found
  obtain ⟨layout, place, first, _, entry, lays⟩ := Program.layout_of_class? done found unprovided
  have named : place.decl.name = className := by
    rw [← ClassTable.name_of_class? found, entry]
    rfl
  obtain ⟨chain, resolved, _, ctor⟩ := lays.members
  rw [named] at resolved
  obtain ⟨classes, lineage, rfl⟩ :=
    InitializerChains.lineage_of_instance? (Program.chains_of_facts computed) resolved
  rw [chainOf_ofTable] at resolved ctor
  refine ⟨classes, _, ClassTable.complete_of_isLineage lineage inside, resolved, fun plain => ?_⟩
  obtain ⟨values, each, ran⟩ := Program.assigned_of_lineage computed done lineage inside plain
    (Program.length_lt_of_lineage done lineage inside)
    (Members.blank.setAll (Lowered.ctorValues layout.ctor))
  have distinct := (ClassTable.ofUnits units).nodup_names_filterMap lineage.nodup
  refine ⟨(Members.blank.setAll (Lowered.ctorValues layout.ctor)).setAll values, ?_,
    fun init member => ?_⟩
  · unfold Lowered.constructed?
    rw [first, Option.bind_some]
    exact ran
  · rw [ctor]
    obtain ⟨held, there, holds⟩ := Program.holdsLast_of_assigns each place.decl.span member
    exact ⟨held, there, holds,
      fun alone => Program.holdsNearest_of_holdsLast distinct member alone holds⟩

/-- The class that declares its parent's fields again has one entry for the first and two for the
second. -/
theorem InitializerChains.instance?_redeclared {facts : Facts}
    (computed : (Program.ofUnits [.redeclared]).facts ⟨["Base", "Derived"]⟩ {} = .ok facts) :
    facts.chains.instance? "Derived" = some [⟨"x", .int, "Derived", none, false⟩,
      ⟨"y", .int, "Base", some (.int ⟨1, 3, 4⟩ 2), false⟩,
      ⟨"y", .string, "Derived", some (.str ⟨2, 7, 8⟩ "s"), false⟩] := by
  have chains : ((Program.ofUnits [.redeclared]).facts ⟨["Base", "Derived"]⟩ {}).toOption.map
      (fun facts => facts.chains.instance? "Derived") =
        some (some [⟨"x", .int, "Derived", none, false⟩,
          ⟨"y", .int, "Base", some (.int ⟨1, 3, 4⟩ 2), false⟩,
          ⟨"y", .string, "Derived", some (.str ⟨2, 7, 8⟩ "s"), false⟩]) := rfl
  rw [computed] at chains
  exact Option.some.inj chains

theorem Lineage.of_redeclared :
    Lineage.of (ClassTable.ofUnits [.redeclared]).parentMap "Derived" =
      .complete ["Derived", "Base", "Object"] := by decide +kernel

theorem ClassTable.plain_redeclared :
    ∀ info ∈ ["Derived", "Base", "Object"].filterMap (ClassTable.ofUnits [.redeclared]).class?,
      info.hasConstructor = false := by decide +kernel

/-- The field that is declared again without its value holds the one that the parent gave it. -/
theorem constructed_holds_redeclared :
    ∃ facts lowered members held,
      (Program.ofUnits [.redeclared]).facts ⟨["Base", "Derived"]⟩ {} = .ok facts ∧
      (Program.ofUnits [.redeclared]).lower facts {} = .ok lowered ∧
      Lowered.constructed? (lowered.flatMap (·.classes)) "__this" "Derived" = some members ∧
      members "x" = some held ∧
      Program.LowersTo [.redeclared] facts {} "Base" (.int ⟨0, 1, 2⟩ 1) held := by
  obtain ⟨facts, lowered, computed, done⟩ :=
    Program.exists_lowered [.redeclared] ⟨["Base", "Derived"]⟩ {} (by decide +kernel)
  have user : "Derived" ∈ (ClassTable.ofUnits [.redeclared]).userClasses.map (·.name) := by
    decide +kernel
  obtain ⟨classes, chain, lineage, resolved, holds⟩ := constructed_holds computed done user
  cases lineage.symm.trans Lineage.of_redeclared
  cases resolved.symm.trans (InitializerChains.instance?_redeclared computed)
  obtain ⟨members, ran, each⟩ := holds ClassTable.plain_redeclared
  obtain ⟨held, there, _, nearest⟩ := each _ List.mem_cons_self
  exact ⟨facts, lowered, members, held, computed, done, ran, there,
    (nearest (by simp)).nearest _ _ rfl⟩

/-- The number of a number literal. -/
def Lowered.Expr.intValue? : Lowered.Expr → Option Int
  | .int _ value => some value
  | _ => none

/-- The text of a text literal. -/
def Lowered.Expr.textValue? : Lowered.Expr → Option String
  | .str _ text => some text
  | _ => none

theorem Lowered.Expr.eq_of_intValue? {expr : Lowered.Expr} {value : Int}
    (shown : expr.intValue? = some value) : ∃ span, expr = .int span value := by
  unfold intValue? at shown
  split at shown <;> cases shown
  exact ⟨_, rfl⟩

theorem Lowered.Expr.eq_of_textValue? {expr : Lowered.Expr} {text : String}
    (shown : expr.textValue? = some text) : ∃ span, expr = .str span text := by
  unfold textValue? at shown
  split at shown <;> cases shown
  exact ⟨_, rfl⟩

/-- The entry without a value is not left at its default, and the first of the two entries of one
name loses its value to the second. -/
theorem constructed_differs_redeclared :
    Lineage.of (ClassTable.ofUnits [.redeclared]).parentMap "Derived" =
      .complete ["Derived", "Base", "Object"] ∧
    (∀ info ∈ ["Derived", "Base", "Object"].filterMap (ClassTable.ofUnits [.redeclared]).class?,
      info.hasConstructor = false) ∧
    ∃ facts lowered members,
      (Program.ofUnits [.redeclared]).facts ⟨["Base", "Derived"]⟩ {} = .ok facts ∧
      (Program.ofUnits [.redeclared]).lower facts {} = .ok lowered ∧
      facts.chains.instance? "Derived" = some [⟨"x", .int, "Derived", none, false⟩,
        ⟨"y", .int, "Base", some (.int ⟨1, 3, 4⟩ 2), false⟩,
        ⟨"y", .string, "Derived", some (.str ⟨2, 7, 8⟩ "s"), false⟩] ∧
      Lowered.constructed? (lowered.flatMap (·.classes)) "__this" "Derived" = some members ∧
      (∃ span, members "x" = some (.int span 1)) ∧ ∃ span, members "y" = some (.str span "s") := by
  refine ⟨Lineage.of_redeclared, ClassTable.plain_redeclared, ?_⟩
  obtain ⟨facts, lowered, computed, done⟩ :=
    Program.exists_lowered [.redeclared] ⟨["Base", "Derived"]⟩ {} (by decide +kernel)
  have runs : (((Program.ofUnits [.redeclared]).facts ⟨["Base", "Derived"]⟩ {}).toOption.any
      fun facts => ((Program.ofUnits [.redeclared]).lower facts {}).toOption.any fun lowered =>
        (Lowered.constructed? (lowered.flatMap (·.classes)) "__this" "Derived").any fun members =>
          (members "x").bind (·.intValue?) == some 1 &&
            (members "y").bind (·.textValue?) == some "s") = true := by decide +kernel
  rw [computed, Except.toOption, Option.any_some, done, Except.toOption, Option.any_some] at runs
  rw [Option.any_eq_true] at runs
  obtain ⟨members, ran, holds⟩ := runs
  rw [Bool.and_eq_true, beq_iff_eq, beq_iff_eq, Option.bind_eq_some_iff,
    Option.bind_eq_some_iff] at holds
  obtain ⟨⟨first, atFirst, isInt⟩, second, atSecond, isText⟩ := holds
  obtain ⟨span, rfl⟩ := Lowered.Expr.eq_of_intValue? isInt
  obtain ⟨spanToo, rfl⟩ := Lowered.Expr.eq_of_textValue? isText
  exact ⟨facts, lowered, members, computed, done,
    InitializerChains.instance?_redeclared computed, ran, ⟨span, atFirst⟩, ⟨spanToo, atSecond⟩⟩

end ObjectLowering
