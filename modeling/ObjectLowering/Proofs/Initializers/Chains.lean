/-
**Where the initializers of a class come from.**

A chain is built along a lineage, and `redefine` puts nothing into it but what it is given. So every
entry of a chain was declared by a class of the lineage, and says so.

* `InitializerChains.class?_of_resolve`, `InitializerChains.lineage_of_instance?`: a class that is
  resolved has the chain of its lineage.
* `mem_chainOf`: an entry of a chain is a declared field of a class of the lineage.
* `RawInitializers.mem_of_ofTable`: a declared field is one of the class's entry in the table.
* **`init_of_mem_ownValues`**: the values that a class gives to its own fields are initializers of
  its entry.
-/

import ObjectLowering.Lowering.Class
import ObjectLowering.Proofs.Hierarchy.Lineage
import ObjectLowering.Proofs.Lowering.Success

namespace ObjectLowering

namespace InitializerChains

variable {ν : Type} {parents : ParentMap} {raw : RawInitializers ν} {order : List Name}
  {chains : InitializerChains ν} {className : Name}

/-- **A class that is resolved has the chain of its lineage.** -/
theorem class?_of_resolve (computed : resolve order parents raw = .ok chains)
    (member : className ∈ order) :
    ∃ lineage, IsLineage parents className lineage ∧ chains.class? className =
      some ⟨className, chainOf raw lineage, (raw.of className).filter (·.isStatic)⟩ := by
  obtain ⟨classes, done, rfl⟩ := ok_of_map computed
  have each := ok_of_mapM done
  clear computed done
  unfold class?
  dsimp only
  induction each with
  | nil => cases member
  | @cons first result _ _ resolved _ step =>
    unfold resolveClass at resolved
    split at resolved
    · rename_i lineage complete
      cases resolved
      rw [List.find?_cons]
      by_cases same : className = first
      · subst same
        rw [beq_self_eq_true]
        exact ⟨lineage, isLineage_of_complete complete, rfl⟩
      · rw [beq_false_of_ne (Ne.symm same)]
        exact step ((List.mem_cons.mp member).resolve_left same)
    · cases resolved
    · cases resolved

/-- What a resolved class holds. -/
theorem entry_of_class? (computed : resolve order parents raw = .ok chains)
    {entry : ClassInitializers ν} (found : chains.class? className = some entry) :
    ∃ lineage, IsLineage parents className lineage ∧
      entry = ⟨className, chainOf raw lineage, (raw.of className).filter (·.isStatic)⟩ := by
  obtain ⟨classes, done, rfl⟩ := ok_of_map computed
  obtain ⟨name, _, resolved⟩ :=
    exists_of_mem_right (ok_of_mapM done) (List.mem_of_find?_eq_some found)
  have same := List.find?_some found
  have named : entry.className = className := beq_iff_eq.mp same
  unfold resolveClass at resolved
  split at resolved
  · rename_i lineage complete
    cases resolved
    cases named
    exact ⟨lineage, isLineage_of_complete complete, rfl⟩
  · cases resolved
  · cases resolved

/-- A chain that was resolved is that of the lineage of its class. -/
theorem lineage_of_instance? (computed : resolve order parents raw = .ok chains)
    {chain : List (Initializer ν)} (found : chains.instance? className = some chain) :
    ∃ lineage, IsLineage parents className lineage ∧ chain = chainOf raw lineage := by
  obtain ⟨entry, there, rfl⟩ := Option.map_eq_some_iff.mp found
  obtain ⟨lineage, isLineage, rfl⟩ := entry_of_class? computed there
  exact ⟨lineage, isLineage, rfl⟩

end InitializerChains

/-- An entry of a chain is a declared field of a class of the lineage. -/
theorem mem_chainOf {ν : Type} {raw : RawInitializers ν} {lineage : List Name}
    {init : Initializer ν} (member : init ∈ chainOf raw lineage) :
    ∃ className ∈ lineage, init ∈ raw.of className ∧ init.isStatic = false := by
  unfold chainOf at member
  have fields : init ∈ lineage.reverse.flatMap fun className =>
      (raw.of className).filter (!·.isStatic) := by
    generalize lineage.reverse.flatMap _ = declared at member ⊢
    suffices all : ∀ chain : List (Initializer ν),
        init ∈ declared.foldl addInitializer chain → init ∈ chain ∨ init ∈ declared from
      (all [] member).resolve_left List.not_mem_nil
    clear member
    induction declared with
    | nil => exact fun chain member => .inl member
    | cons first rest step =>
      intro chain member
      rcases step _ member with before | behind
      · have old : ∀ entry ∈ addInitializer chain first, entry ∈ chain ∨ entry = first :=
          forall_redefine (fun entry inside => .inl inside) (fun _ _ _ => .inr rfl) (.inr rfl)
        rcases old init before with inside | rfl
        · exact .inl inside
        · exact .inr List.mem_cons_self
      · exact .inr (List.mem_cons_of_mem _ behind)
  obtain ⟨className, onWay, declared⟩ := List.mem_flatMap.mp fields
  obtain ⟨inside, dynamic⟩ := List.mem_filter.mp declared
  rw [Bool.not_eq_true'] at dynamic
  exact ⟨className, List.mem_reverse.mp onWay, inside, dynamic⟩

namespace RawInitializers

variable {table : ClassTable} {className : Name}

theorem of_ofTable (table : ClassTable) (className : Name) :
    (RawInitializers.ofTable table).of className =
      ((table.class? className).map fun info => info.fields.map fun field =>
        (⟨field.name, field.type, info.name, field.init, field.isStatic⟩ :
          Initializer Source.Expr)).getD [] := by
  unfold ofTable of
  rw [table.lookup_map]

/-- A declared field is one of the class's entry in the table. -/
theorem mem_of_ofTable {init : Initializer Source.Expr}
    (member : init ∈ (RawInitializers.ofTable table).of className) :
    ∃ info, table.class? className = some info ∧ init.owner = className ∧
      ∃ field ∈ info.fields, init = ⟨field.name, field.type, className, field.init,
        field.isStatic⟩ := by
  rw [of_ofTable] at member
  cases found : table.class? className with
  | none =>
    rw [found] at member
    cases member
  | some info =>
    rw [found] at member
    obtain ⟨field, declared, rfl⟩ := List.mem_map.mp member
    have named := ClassTable.name_of_class? found
    exact ⟨info, rfl, named, field, declared, by rw [named]⟩

end RawInitializers

/-- **The values that a class gives to its own fields are initializers of its entry.** -/
theorem init_of_mem_ownValues {table : ClassTable} {className : Name} {lineage : List Name}
    {value : Name × Source.Expr}
    (member : value ∈ Lowering.ownValues className (chainOf (.ofTable table) lineage)) :
    ∃ info, table.class? className = some info ∧
      ∃ field ∈ info.fields, field.name = value.1 ∧ field.init = some value.2 := by
  obtain ⟨init, inside, given⟩ := List.mem_filterMap.mp member
  obtain ⟨inside, own⟩ := List.mem_filter.mp inside
  obtain ⟨other, _, declared, _⟩ := mem_chainOf inside
  obtain ⟨info, found, owner, field, stored, rfl⟩ := RawInitializers.mem_of_ofTable declared
  cases owner.symm.trans (beq_iff_eq.mp own)
  obtain ⟨expr, init, rfl⟩ := Option.map_eq_some_iff.mp given
  exact ⟨info, found, field, stored, rfl, init⟩

end ObjectLowering
