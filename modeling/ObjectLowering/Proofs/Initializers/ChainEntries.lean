/-
**What a resolved chain holds.**

A chain is built field by field, and a field that is declared again is put in the place of the
earlier one. So what comes of it can be said without the walk: the names and types stand in the
order in which the lineage declares them first, and each holds the declaration that comes last.

* `RawInitializers.along` are the fields that a lineage declares, the root's first.
* `IsChainOf` says what a chain should be, and `IsChainOf.unique` that this leaves no choice.
* `isChainOf_foldl`: adding one field after the other comes to it.
* **`chains_hold_last`**: every resolved class has such a chain and its own static fields, and the
  fields of its lineage are those that the class table lists.
-/

import ObjectLowering.Proofs.Initializers.FieldMembers
import ObjectLowering.Proofs.Sources.SourceSet

namespace ObjectLowering

open Source (SourceUnit removeAll_congr removeAll_cons_of_mem eraseDups_removeAll_cons)

/-- The fields that a lineage declares, the root's first, those of one class in order. -/
def RawInitializers.along {ν : Type} (raw : RawInitializers ν) (lineage : List Name) :
    List (Initializer ν) := lineage.reverse.flatMap raw.of

/-- The field behind a reference. -/
def ClassTable.initializer? (table : ClassTable) (ref : FieldRef) :
    Option (Initializer Source.Expr) :=
  (table.field? ref).map fun field =>
    ⟨field.name, field.type, ref.className, field.init, field.isStatic⟩

/-- The chain that declared instance fields should come to. -/
structure IsChainOf {ν : Type} (declared chain : List (Initializer ν)) : Prop where
  /-- There is one entry for each name and type, in the order in which they are declared first. -/
  slots : chain.map (·.slot) = (declared.map (·.slot)).eraseDups
  /-- Each entry is the last declaration of its name and type. -/
  last : ∀ init ∈ chain, (declared.filter (·.slot == init.slot)).getLast? = some init

/-! ### Adding fields one after the other -/

section Adding

variable {ν : Type}

/-- There is only one such chain. -/
theorem IsChainOf.unique {declared chain other : List (Initializer ν)}
    (isChain : IsChainOf declared chain) (isChainToo : IsChainOf declared other) :
    chain = other := by
  have read {chain : List (Initializer ν)} (isChain : IsChainOf declared chain) :
      chain.map some = (declared.map (·.slot)).eraseDups.map fun slot =>
        (declared.filter (·.slot == slot)).getLast? := by
    rw [← isChain.slots, List.map_map]
    exact List.map_congr_left fun init member => (isChain.last init member).symm
  exact List.map_injective_iff.mpr (fun _ _ => Option.some.inj)
    ((read isChain).trans (read isChainToo).symm)

/-- Slots that are not there yet go to the end, in the order in which they come first. -/
theorem slots_foldl_addInitializer (declared chain : List (Initializer ν)) :
    (declared.foldl addInitializer chain).map (·.slot) = chain.map (·.slot) ++
      ((declared.map (·.slot)).removeAll (chain.map (·.slot))).eraseDups := by
  induction declared generalizing chain with
  | nil => exact (List.append_nil _).symm
  | cons init rest step =>
    rw [List.foldl_cons, step, slots_addInitializer, List.map_cons]
    by_cases old : init.slot ∈ chain.map (·.slot)
    · rw [if_pos old, List.append_nil, removeAll_cons_of_mem old]
    · rw [if_neg old, eraseDups_removeAll_cons old, List.append_assoc, List.singleton_append]
      refine congrArg (_ ++ _ :: List.eraseDups ·) (removeAll_congr _ fun slot => ?_)
      rw [List.mem_append, List.mem_singleton, List.mem_cons, or_comm]

/-- **Adding the declared fields one after the other comes to their chain.** -/
theorem isChainOf_foldl (declared : List (Initializer ν)) :
    IsChainOf declared (declared.foldl addInitializer []) where
  slots := by
    rw [slots_foldl_addInitializer]
    have all : (declared.map (·.slot)).removeAll [] = declared.map (·.slot) :=
      List.filter_eq_self.mpr fun _ _ => rfl
    rw [List.map_nil, all, List.nil_append]
  last := by
    intro init member
    have distinct := slots_nodup_foldl_addInitializer [] declared List.nodup_nil
    have found := find?_of_nodup_map distinct member
      fun other => beq_iff_eq (a := other.slot) (b := init.slot)
    rwa [find?_foldl_addInitializer, List.find?_nil, Option.or_none] at found

theorem chainOf_eq_foldl (raw : RawInitializers ν) (lineage : List Name) :
    chainOf raw lineage = ((raw.along lineage).filter (!·.isStatic)).foldl addInitializer [] := by
  unfold RawInitializers.along
  rw [List.filter_flatMap]
  rfl

end Adding

/-! ### The fields that a class table lists -/

namespace ClassTable

variable {table : ClassTable}

/-- The references to the fields of a class lead to them. -/
theorem map_initializer?_fieldRefs {info : ClassInfo}
    (found : table.class? info.name = some info) : info.fieldRefs.map table.initializer? =
      ((RawInitializers.ofTable table).of info.name).map some := by
  rw [RawInitializers.of_ofTable, found, Option.map_some, Option.getD_some, List.map_map]
  unfold ClassInfo.fieldRefs
  rw [List.map_map]
  refine List.ext_getElem? fun index => ?_
  rw [List.getElem?_map, List.getElem?_map]
  by_cases inside : index < info.fields.length
  · rw [List.getElem?_range inside, List.getElem?_eq_getElem inside]
    show some (Option.map _ ((table.class? info.name).bind (·.fields[index]?))) = _
    rw [found, Option.bind_some, List.getElem?_eq_getElem inside]
    rfl
  · have short : ¬index < (List.range info.fields.length).length := by rwa [List.length_range]
    rw [List.getElem?_eq_none (Nat.le_of_not_lt short),
      List.getElem?_eq_none (Nat.le_of_not_lt inside)]
    rfl

/-- **The table lists the fields of the lineage**, none of the references in vain. -/
theorem map_initializer?_fields {name : Name} {lineage : List Name}
    (isLineage : IsLineage table.parentMap name lineage) (inside : table.contains name = true)
    (named : name ≠ Reserved.empty) : (table.fieldsOwnAndInherited name).map table.initializer? =
      ((RawInitializers.ofTable table).along lineage).map some := by
  have known : ∀ above ∈ lineage.reverse, table.contains above = true := fun above member =>
    contains_iff.mpr
      (isLineage.known (contains_iff.mp inside) above (List.mem_reverse.mp member))
  unfold fieldsOwnAndInherited RawInitializers.along
  rw [ancestors_of_isLineage isLineage inside named, ← List.filterMap_reverse]
  generalize lineage.reverse = classes at known
  induction classes with
  | nil => rfl
  | cons first rest step =>
    rw [List.forall_mem_cons] at known
    obtain ⟨info, found⟩ := Option.isSome_iff_exists.mp known.1
    obtain rfl := name_of_class? found
    rw [List.filterMap_cons_some found, List.flatMap_cons, List.flatMap_cons, List.map_append,
      List.map_append, map_initializer?_fieldRefs found, step known.2]

end ClassTable

/-- **A resolved class has one entry for each name and type of its lineage's instance fields**, in
the order in which these are declared first, each the last declaration; its static fields are its
own. The instance fields of a lineage of the table are those that the table lists for the class,
unless that has the empty name, for which the table lists none. -/
theorem chains_hold_last :
    (∀ {ν : Type} {order : List Name} {parents : ParentMap} {raw : RawInitializers ν}
        {chains : InitializerChains ν}, InitializerChains.resolve order parents raw = .ok chains →
      ∀ className ∈ order, ∃ lineage chain, IsLineage parents className lineage ∧
        chains.instance? className = some chain ∧
        IsChainOf ((raw.along lineage).filter (!·.isStatic)) chain ∧
        chains.statics className = (raw.of className).filter (·.isStatic)) ∧
    ∀ (table : ClassTable) (className : Name) (lineage : List Name),
      IsLineage table.parentMap className lineage → table.contains className = true →
      className ≠ Reserved.empty →
        ((RawInitializers.ofTable table).along lineage).filter (!·.isStatic) =
          ((table.fieldsOwnAndInherited className).filterMap table.initializer?).filter
            (!·.isStatic) := by
  constructor
  · intro ν order parents raw chains resolved className listed
    obtain ⟨lineage, isLineage, found⟩ := InitializerChains.class?_of_resolve resolved listed
    refine ⟨lineage, chainOf raw lineage, isLineage, ?_, ?_, ?_⟩
    · unfold InitializerChains.instance?
      rw [found]
      rfl
    · rw [chainOf_eq_foldl]
      exact isChainOf_foldl _
    · unfold InitializerChains.statics
      rw [found]
      rfl
  · intro table className lineage isLineage inside named
    have declared : (table.fieldsOwnAndInherited className).filterMap table.initializer? =
        (RawInitializers.ofTable table).along lineage := calc
      _ = ((table.fieldsOwnAndInherited className).map table.initializer?).filterMap id :=
        (List.filterMap_map (g := id)).symm
      _ = (((RawInitializers.ofTable table).along lineage).map some).filterMap id := by
        rw [table.map_initializer?_fields isLineage inside named]
      _ = _ := List.filterMap_map.trans List.filterMap_some
    rw [declared]

/-- Three fields of two names: the one that is declared again keeps its place, another type does not
take it. -/
theorem chains_hold_last_redeclared :
    ∃ chains lineage chain,
      InitializerChains.ofTable ⟨["Base", "Derived"]⟩ (.ofUnits [.redeclared]) = .ok chains ∧
      IsLineage (ClassTable.ofUnits [.redeclared]).parentMap "Derived" lineage ∧
      chains.instance? "Derived" = some chain ∧
      chain.map (·.slot) = [("x", .int), ("y", .int), ("y", .string)] ∧
      IsChainOf (((ClassTable.ofUnits [.redeclared]).fieldsOwnAndInherited "Derived").filterMap
        (ClassTable.ofUnits [.redeclared]).initializer? |>.filter (!·.isStatic)) chain ∧
      chains.statics "Derived" = [] := by
  have slots :
      (InitializerChains.ofTable ⟨["Base", "Derived"]⟩ (.ofUnits [.redeclared])).toOption.map
      (fun chains => (chains.instance? "Derived").map (·.map (·.slot))) =
        some (some [("x", .int), ("y", .int), ("y", .string)]) := by decide +kernel
  obtain ⟨chains, resolved⟩ := exists_of_isOk (show
    (InitializerChains.ofTable ⟨["Base", "Derived"]⟩ (.ofUnits [.redeclared])).isOk = true by
      decide +kernel)
  obtain ⟨lineage, chain, isLineage, found, isChain, statics⟩ :=
    chains_hold_last.1 resolved "Derived" (by decide +kernel)
  rw [chains_hold_last.2 _ "Derived" lineage isLineage (by decide +kernel) (by decide)] at isChain
  have noStatics : ((RawInitializers.ofTable (.ofUnits [.redeclared])).of "Derived").filter
      (·.isStatic) = [] := List.filter_eq_nil_iff.mpr (by decide +kernel)
  rw [resolved, Except.toOption, Option.map_some, found] at slots
  exact ⟨chains, lineage, chain, resolved, isLineage, found,
    Option.some.inj (Option.some.inj slots), isChain, statics.trans noStatics⟩

/-- A class of the empty name, which stands for no class elsewhere. -/
def Source.SourceUnit.nameless : SourceUnit where
  path := "N"
  package := []
  imports := []
  classes := [
    { name := "", parent := none, methods := [], span := ⟨0, 1⟩
      fields := [{ name := "x", type := .int, init := none, modifiers := {}, span := ⟨1, 2⟩ }] }]
  nodes := #[]
  stmtCount := 0

/-- The chain of the class has its field, but the table lists no field for the empty name. -/
theorem fields_omit_nameless :
    (InitializerChains.ofTable .start (.ofUnits [.nameless])).isOk = true ∧
    (ClassTable.ofUnits [.nameless]).contains "" = true ∧
    ∃ lineage, IsLineage (ClassTable.ofUnits [.nameless]).parentMap "" lineage ∧
      ((RawInitializers.ofTable (.ofUnits [.nameless])).along lineage).filter (!·.isStatic) ≠
        (((ClassTable.ofUnits [.nameless]).fieldsOwnAndInherited "").filterMap
          (ClassTable.ofUnits [.nameless]).initializer?).filter (!·.isStatic) := by
  refine ⟨by decide +kernel, by decide +kernel, ["", "Object"],
    isLineage_of_complete (by decide +kernel), fun same => ?_⟩
  have counts := congrArg List.length same
  revert counts
  decide +kernel

end ObjectLowering
