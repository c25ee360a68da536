/-
**The data of a class starts with that of its parent.**

A pointer to an object of a class is used as one to an object of its parent, so both must find a
member in the same place. A field that a class declares takes the place of the inherited one of its
name and type or goes to the end: nothing that is inherited moves.

* `ClassInfo.slots_prefix_extendChain`: what a class inherits keeps its places.
* `InitializerChains.instance?_of_supertype`: the chain of a class is that of its parent, extended.
* `Lowered.ClassLayout.fields_of_data`: the fields of a layout are the slots of its chain.
* **`data_extends_parent`**: the members of an object, what the raw constructor sets them to, and
  how they start.
-/

import ObjectLowering.Proofs.Initializers.FieldMembers

namespace ObjectLowering

open Source (SourceUnit)
open Lowered (ClassLayout)

/-! ### Chains -/

namespace ClassInfo

variable (info : ClassInfo) (chain : List (Initializer Source.Expr))

/-- **What a class inherits keeps its places.** -/
theorem slots_prefix_extendChain :
    chain.map (·.slot) <+: (info.extendChain chain).map (·.slot) := by
  unfold extendChain
  generalize info.instanceFields = fields
  induction fields generalizing chain with
  | nil => exact List.prefix_rfl
  | cons init rest step =>
    have added : chain.map (·.slot) <+: (addInitializer chain init).map (·.slot) := by
      rw [slots_addInitializer]
      exact List.prefix_append _ _
    exact added.trans (step _)

end ClassInfo

/-- The chain of a class is that of its parent, extended by the fields of the class itself. -/
theorem InitializerChains.instance?_of_supertype {table : ClassTable} {names : NameTable}
    {chains : InitializerChains Source.Expr} (computed : ofTable names table = .ok chains)
    {below above : Name} (parent : table.supertype? below = some above)
    {chain inherited : List (Initializer Source.Expr)}
    (found : chains.instance? below = some chain)
    (foundAbove : chains.instance? above = some inherited) :
    ∃ info, table.class? below = some info ∧ chain = info.extendChain inherited := by
  obtain ⟨lineage, isLineage, rfl⟩ := lineage_of_instance? computed found
  obtain ⟨older, isOlder, rfl⟩ := lineage_of_instance? computed foundAbove
  obtain ⟨info, declared, named⟩ := Option.bind_eq_some_iff.mp parent
  split at named
  · cases named
  rename_i rooted
  cases named
  have mapped : table.parentMap.lookup below = some info.parent := by
    unfold ClassTable.parentMap
    rw [ClassTable.lookup_map, declared, Option.map_some]
  refine ⟨info, declared, ?_⟩
  cases isLineage with
  | root rootless => exact absurd (rootless _ mapped) rooted
  | child mappedToo _ _ rest _ =>
    cases mapped.symm.trans mappedToo
    rw [rest.unique isOlder, chainOf_ofTable, chainOf_ofTable, List.filterMap_cons_some declared,
      List.foldr_cons]

/-! ### Layouts -/

/-- The fields of a layout are the slots of its chain. -/
theorem Lowered.ClassLayout.fields_of_data {ε σ : Type} {layout : ClassLayout ε σ}
    {chain : List (Initializer Source.Expr)} (data : layout.data = Lowering.dataMembers chain) :
    layout.fields = chain.map (·.slot) := by
  unfold fields
  rw [data]
  unfold Lowering.dataMembers
  rw [List.filterMap_cons_none rfl, List.filterMap_map]
  exact List.filterMap_eq_map ▸ rfl

namespace Lowering

/-- The raw constructor sets each field of a chain to the default of its type. -/
theorem ctorMembers_eq (span : Span) (chain : List (Initializer Source.Expr)) :
    ctorMembers span chain = (chain.map (·.slot)).map (fun field =>
      .field field.1 (defaultExpr span (.ofType field.2))) ++ [.vtablePtr] := by
  unfold ctorMembers
  rw [List.map_map]
  rfl

/-- A class that was lowered has the parent of its entry. -/
theorem parent_of_lowerClass {context : Context} {decl : Source.ClassDecl}
    {layout : ClassLayout Lowered.Expr Lowered.Stmt}
    (done : lowerClass context decl = .ok layout) {info : ClassInfo}
    (found : context.facade.class? decl.name = some info) : layout.parent = info.parent := by
  unfold lowerClass at done
  dsimp only at done
  have parent : layout.parent = ((context.facade.class? decl.name).map (·.parent)).getD
      decl.parentOrRoot := by
    split at done
    · obtain ⟨_, _, done⟩ := ok_of_bind done
      split at done
      · obtain ⟨_, _, done⟩ := ok_of_bind done
        split at done
        · obtain ⟨_, _, done⟩ := ok_of_bind done
          cases done
          rfl
        · cases done
          rfl
      · cases done
    · cases done
  rw [parent, found, Option.map_some, Option.getD_some]

end Lowering

/-- **The data of a class starts with that of its parent.** The members of an object are the vtable
pointer and then the chain of the class in order; the raw constructor sets the fields in this order
to the defaults of their types and then the vtable pointer. -/
theorem data_extends_parent {units : List SourceUnit} {names : NameTable}
    {options : LoweringOptions} {facts : Facts} {lowered : List Lowered.TreeUnit}
    (computed : (Program.ofUnits units).facts names options = .ok facts)
    (done : (Program.ofUnits units).lower facts options = .ok lowered)
    {layout : ClassLayout Lowered.Expr Lowered.Stmt}
    (member : layout ∈ lowered.flatMap (·.classes)) :
    (∃ place ∈ Program.placed units, ∃ chain, place.decl.name = layout.name ∧
      facts.chains.instance? layout.name = some chain ∧
      layout.data = .vtablePtr :: chain.map (·.member) ∧
      layout.ctor = layout.fields.map (fun field =>
        .field field.1 (Lowering.defaultExpr place.decl.span (.ofType field.2))) ++
          [.vtablePtr]) ∧
    ∀ parent ∈ lowered.flatMap (·.classes),
      (ClassTable.ofUnits units).supertype? layout.name = some parent.name →
      layout.parent = parent.name ∧ parent.fields <+: layout.fields := by
  obtain ⟨place, placed, built⟩ := exists_of_mem_right (Program.ok_of_lower done) member
  obtain ⟨named, ⟨chain, resolved, data, ctor⟩, _⟩ := Lowering.lays_of_lowerClass built
  have fields := ClassLayout.fields_of_data data
  rw [← named] at resolved
  refine ⟨⟨place, placed, chain, named.symm, resolved, data, ?_⟩, ?_⟩
  · rw [ctor, fields, Lowering.ctorMembers_eq]
  · intro parent memberToo above
    obtain ⟨_, _, builtToo⟩ := exists_of_mem_right (Program.ok_of_lower done) memberToo
    obtain ⟨namedToo, ⟨inherited, resolvedToo, dataToo, _⟩, _⟩ :=
      Lowering.lays_of_lowerClass builtToo
    rw [← namedToo] at resolvedToo
    obtain ⟨info, found, rfl⟩ := InitializerChains.instance?_of_supertype
      (Program.chains_of_facts computed) above resolved resolvedToo
    refine ⟨?_, ?_⟩
    · have entered := found
      rw [named] at entered
      have declared := above
      unfold ClassTable.supertype? at declared
      rw [found, Option.bind_some] at declared
      split at declared
      · cases declared
      · rw [Lowering.parent_of_lowerClass built entered, Option.some.inj declared]
    · rw [fields, ClassLayout.fields_of_data dataToo]
      exact info.slots_prefix_extendChain inherited

/-- A class that declares both fields of its parent again keeps them in front, in their order. -/
theorem data_extends_parent_redeclared :
    ∃ facts lowered derived base,
      (Program.ofUnits [.redeclared]).facts ⟨["Base", "Derived"]⟩ {} = .ok facts ∧
      (Program.ofUnits [.redeclared]).lower facts {} = .ok lowered ∧
      derived ∈ lowered.flatMap (·.classes) ∧ base ∈ lowered.flatMap (·.classes) ∧
      derived.name = "Derived" ∧ derived.parent = "Base" ∧ base.name = "Base" ∧
      base.fields = [("x", .int), ("y", .int)] ∧
      derived.fields = [("x", .int), ("y", .int), ("y", .string)] ∧
      base.fields <+: derived.fields := by
  obtain ⟨facts, lowered, computed, done⟩ :=
    Program.exists_lowered [.redeclared] ⟨["Base", "Derived"]⟩ {} (by decide +kernel)
  have names : (lowered.flatMap (·.classes)).map (·.name) = ["Base", "Derived"] := by
    rw [Program.names_layouts done]
    decide +kernel
  obtain ⟨base, memberBase, namedBase⟩ := List.mem_map.mp (names ▸ List.mem_cons_self)
  obtain ⟨derived, member, named⟩ :=
    List.mem_map.mp (names ▸ List.mem_cons_of_mem "Base" (List.mem_singleton.mpr rfl))
  obtain ⟨_, parents⟩ := data_extends_parent computed done member
  obtain ⟨parent, starts⟩ := parents base memberBase (by rw [named, namedBase]; rfl)
  have fields {layout : ClassLayout Lowered.Expr Lowered.Stmt}
      (inside : layout ∈ lowered.flatMap (·.classes))
      (above : ∃ info, info ∈ (ClassTable.ofUnits [.redeclared]).ancestors layout.name) :
      layout.fields = (((ClassTable.ofUnits [.redeclared]).ancestors layout.name).foldr
        ClassInfo.extendChain []).map (·.slot) := by
    obtain ⟨_, above⟩ := above
    exact ClassLayout.fields_of_data (Program.data_of_lower computed done inside above)
  refine ⟨facts, lowered, derived, base, computed, done, member, memberBase, named,
    parent.trans namedBase, namedBase, ?_, ?_, starts⟩
  · rw [fields memberBase (by rw [namedBase]; exact ⟨_, List.mem_cons_self⟩), namedBase]
    rfl
  · rw [fields member (by rw [named]; exact ⟨_, List.mem_cons_self⟩), named]
    rfl

end ObjectLowering
