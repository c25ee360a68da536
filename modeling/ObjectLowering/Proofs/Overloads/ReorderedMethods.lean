/-
**The order of the methods of a class does not change what a call means.**

A search goes through the methods of a class in order of declaration, so of two with the same name
and parameter types the first hides the second. Where no class has two such methods, what a call may
mean depends on the classes alone. The declaration that is found then stays the same when methods
change places; only its position in the class changes.

* `ClassTable.Reorders`: two tables have the same classes, each with the same methods in some order.
* `ClassTable.reorders_ofUnits`: so have the tables of two programs whose classes declare the same
  methods in some order.
* `ClassTable.Reorders.isCandidate`: what a call may mean in one table it may mean in the other.
* **`ClassTable.Reorders.declaration?`**: it means the same declaration.
* `ClassTable.OverloadLaws` says what a call means in a table, and **`overloads_lawful`** that this
  is so where no class is above itself.
-/

import Mathlib.Data.List.Forall2
import ObjectLowering.Proofs.Hierarchy.Outlines
import ObjectLowering.Proofs.Overloads.LeastOverload

namespace ObjectLowering

open Source (SourceUnit ClassDecl)

/-- The entries have the same name, the same parent and the same methods in some order. -/
structure ClassInfo.Reorders (info other : ClassInfo) : Prop where
  name : info.name = other.name
  parent : info.parent = other.parent
  methods : info.methods.Perm other.methods

/-- The classes have the same name, the same parent and the same methods in some order. -/
structure Source.ClassDecl.Reorders (decl other : ClassDecl) : Prop where
  name : decl.name = other.name
  parent : decl.parent = other.parent
  methods : decl.methods.Perm other.methods

/-- The units have the same classes in the same order, each with its methods in some order. -/
def Source.SourceUnit.Reorders (unit other : SourceUnit) : Prop :=
  List.Forall₂ ClassDecl.Reorders unit.classes other.classes

namespace ClassTable

/-- The tables have the same classes in the same order, each with its methods in some order. -/
def Reorders (table other : ClassTable) : Prop :=
  List.Forall₂ ClassInfo.Reorders table.classes other.classes

/-- No class declares two methods with the same name and parameter types. -/
def DistinctSignatures (table : ClassTable) : Prop :=
  ∀ info ∈ table.classes, (info.methods.map fun method => (method.name, method.params)).Nodup

/-- The declaration that a call means, with the name of its class. -/
def declaration? (table : ClassTable) (className name : Name) (args : List (Option Ty)) :
    Option (Name × MethodInfo) :=
  (table.resolveOverload className name args).bind fun ref =>
    (table.method? ref).map (ref.className, ·)

variable {table other : ClassTable} {className name : Name} {args : List (Option Ty)}

namespace Reorders

theorem symm (reorders : table.Reorders other) : other.Reorders table :=
  (reorders.imp fun _ _ ⟨name, parent, methods⟩ => ⟨name.symm, parent.symm, methods.symm⟩ :
    List.Forall₂ (fun info another => ClassInfo.Reorders another info) _ _).flip

/-! ### Classes -/

/-- A class is in both tables or in none. -/
theorem class? (reorders : table.Reorders other) (name : Name) :
    table.class? name = none ∧ other.class? name = none ∨
      ∃ info another, table.class? name = some info ∧ other.class? name = some another ∧
        info.Reorders another := by
  unfold ClassTable.class?
  unfold Reorders at reorders
  generalize table.classes = infos at reorders ⊢
  generalize other.classes = others at reorders ⊢
  induction reorders with
  | nil => exact .inl ⟨rfl, rfl⟩
  | @cons info another _ _ same _ step =>
    rw [List.find?_cons, List.find?_cons, same.name]
    cases another.name == name with
    | true => exact .inr ⟨info, another, rfl, rfl, same⟩
    | false => exact step

theorem declares (reorders : table.Reorders other) : table.Declares = other.Declares := by
  funext sub super
  unfold Declares supertype?
  rcases reorders.class? sub with ⟨absent, absentToo⟩ | ⟨info, another, found, foundToo, same⟩
  · rw [absent, absentToo]
  · rw [found, foundToo, Option.bind_some, Option.bind_some, same.parent]

theorem contains (reorders : table.Reorders other) (name : Name) :
    table.contains name = other.contains name := by
  unfold ClassTable.contains
  rcases reorders.class? name with ⟨absent, absentToo⟩ | ⟨info, another, found, foundToo, _⟩
  · rw [absent, absentToo]
  · rw [found, foundToo]
    rfl

theorem isSubclass (reorders : table.Reorders other) (sub super : Name) :
    table.isSubclass sub super = other.isSubclass sub super := by
  rw [Bool.eq_iff_iff, isSubclass_iff, isSubclass_iff, reorders.declares, reorders.contains]

theorem isAssignable (reorders : table.Reorders other) (source target : Ty) :
    table.isAssignable source target = other.isAssignable source target :=
  isAssignable_congr reorders.isSubclass source target

theorem climb (reorders : table.Reorders other) (steps : Nat) (name : Name) :
    List.Forall₂ ClassInfo.Reorders (table.climb steps name) (other.climb steps name) := by
  induction steps generalizing name with
  | zero => exact .nil
  | succ steps step =>
    unfold ClassTable.climb
    rcases reorders.class? name with ⟨absent, absentToo⟩ | ⟨info, another, found, foundToo, same⟩
    · rw [absent, absentToo]
      exact .nil
    · rw [found, foundToo]
      dsimp only
      rw [same.parent]
      refine .cons same ?_
      split
      · exact .nil
      · exact step _

theorem ancestors (reorders : table.Reorders other) (name : Name) :
    List.Forall₂ ClassInfo.Reorders (table.ancestors name) (other.ancestors name) := by
  unfold ClassTable.ancestors ClassTable.size
  split
  · exact .nil
  · rw [reorders.length_eq]
    exact reorders.climb _ _

/-! ### Methods -/

/-- A method of one table is a method of the same class of the other. -/
theorem exists_method (reorders : table.Reorders other) {ref : MethodRef} {info : MethodInfo}
    (entry : table.method? ref = some info) :
    ∃ index, other.method? ⟨ref.className, index⟩ = some info := by
  obtain ⟨owner, found, there⟩ := Option.bind_eq_some_iff.mp entry
  rcases reorders.class? ref.className with ⟨absent, _⟩ | ⟨_, another, foundHere, foundToo, same⟩
  · cases absent.symm.trans found
  · cases foundHere.symm.trans found
    obtain ⟨index, thereToo⟩ :=
      List.getElem?_of_mem (same.methods.subset (List.mem_of_getElem? there))
    refine ⟨index, ?_⟩
    unfold method?
    rw [foundToo]
    exact thereToo

theorem distinctSignatures (reorders : table.Reorders other)
    (distinct : table.DistinctSignatures) : other.DistinctSignatures := by
  intro info member
  obtain ⟨plain, given, same⟩ := exists_of_mem_right reorders member
  exact ((same.methods.map _).nodup_iff).mp (distinct plain given)

end Reorders

/-- A method stands at one position of its class, where signatures differ. -/
theorem DistinctSignatures.index_eq (distinct : table.DistinctSignatures) {owner : Name}
    {first second : Nat} {info another : MethodInfo}
    (entry : table.method? ⟨owner, first⟩ = some info)
    (entryToo : table.method? ⟨owner, second⟩ = some another) (named : info.name = another.name)
    (params : info.params = another.params) : first = second := by
  obtain ⟨decl, found, there⟩ := Option.bind_eq_some_iff.mp entry
  obtain ⟨_, foundToo, thereToo⟩ := Option.bind_eq_some_iff.mp entryToo
  cases found.symm.trans foundToo
  have apart := distinct decl (List.mem_of_find?_eq_some found)
  have inside := (List.getElem?_eq_some_iff.mp there).1
  refine (List.getElem?_inj (by rwa [List.length_map]) apart).mp ?_
  rw [List.getElem?_map, List.getElem?_map, there, thereToo, Option.map_some, Option.map_some,
    named, params]

namespace Reorders

/-- **What a call may mean in one table it may mean in the other**, at another position. -/
theorem isCandidate (reorders : table.Reorders other) (distinct : table.DistinctSignatures)
    {method : MethodRef × MethodInfo} (candidate : table.IsCandidate className name args method) :
    ∃ index, other.IsCandidate className name args (⟨method.1.className, index⟩, method.2) := by
  obtain ⟨index, entry⟩ := reorders.exists_method candidate.seen.entry
  have accepts : table.Accepts = other.Accepts := by
    funext param arg
    unfold Accepts
    simp only [reorders.isAssignable]
  refine ⟨index, ⟨entry, reorders.declares ▸ candidate.seen.above⟩, candidate.named,
    candidate.isMethod, accepts ▸ candidate.accepts, ?_⟩
  intro nearer seen named isMethod same closer
  rcases closer with ⟨owner, earlier⟩ | below
  · -- The class has one method of the signature, so it cannot be earlier than itself.
    have entryToo : other.method? ⟨method.1.className, nearer.1.index⟩ = some nearer.2 := by
      rw [← show nearer.1.className = method.1.className from owner]
      exact seen.entry
    have one := (reorders.distinctSignatures distinct).index_eq entryToo entry
      (named.trans candidate.named.symm) same
    exact Nat.ne_of_lt earlier one
  · obtain ⟨before, entryToo⟩ := reorders.symm.exists_method seen.entry
    rw [← reorders.declares] at below
    exact candidate.unhidden (⟨nearer.1.className, before⟩, nearer.2)
      ⟨entryToo, reorders.declares ▸ seen.above⟩ named isMethod same (.inr below)

theorem isLeast (reorders : table.Reorders other) (distinct : table.DistinctSignatures)
    {method : MethodRef × MethodInfo} (least : table.IsLeast className name args method) :
    ∃ index, other.IsLeast className name args (⟨method.1.className, index⟩, method.2) := by
  obtain ⟨index, candidate⟩ := reorders.isCandidate distinct least.candidate
  refine ⟨index, candidate, fun rival candidateToo => ?_⟩
  obtain ⟨_, before⟩ :=
    reorders.symm.isCandidate (reorders.distinctSignatures distinct) candidateToo
  have below := least.below _ before
  unfold Below at below ⊢
  simp only [reorders.isAssignable] at below
  exact below

end Reorders

/-! ### The declaration that is meant -/

theorem declaration?_eq_some_iff (acyclic : ∀ name, ¬table.Circular name)
    (named : className ≠ Reserved.empty) {owner : Name} {info : MethodInfo} :
    table.declaration? className name args = some (owner, info) ↔
      ∃ index, table.IsLeast className name args (⟨owner, index⟩, info) := by
  unfold declaration?
  rw [Option.bind_eq_some_iff]
  constructor
  · rintro ⟨ref, resolved, entry⟩
    obtain ⟨_, entry, same⟩ := Option.map_eq_some_iff.mp entry
    cases same
    obtain ⟨known, least⟩ := (resolveOverload_eq_some_iff acyclic named).mp resolved
    cases entry.symm.trans least.candidate.seen.entry
    exact ⟨ref.index, least⟩
  · rintro ⟨index, least⟩
    refine ⟨⟨owner, index⟩, (resolveOverload_eq_some_iff acyclic named).mpr ⟨info, least⟩, ?_⟩
    rw [least.candidate.seen.entry]
    rfl

/-- **A call means the same declaration** when methods of a class change places. -/
theorem Reorders.declaration? (reorders : table.Reorders other)
    (acyclic : ∀ name, ¬table.Circular name) (distinct : table.DistinctSignatures)
    (className name : Name) (args : List (Option Ty)) :
    table.declaration? className name args = other.declaration? className name args := by
  by_cases named : className = Reserved.empty
  · subst named
    rfl
  · have acyclicToo : ∀ name, ¬other.Circular name := by
      unfold Circular at acyclic ⊢
      rwa [← reorders.declares]
    refine Option.ext fun ⟨owner, info⟩ => ?_
    rw [declaration?_eq_some_iff acyclic named, declaration?_eq_some_iff acyclicToo named]
    constructor
    · rintro ⟨_, least⟩
      exact reorders.isLeast distinct least
    · rintro ⟨_, least⟩
      exact reorders.symm.isLeast (reorders.distinctSignatures distinct) least

/-! ### Programs -/

theorem Reorders.add (reorders : table.Reorders other) {info another : ClassInfo}
    (same : info.Reorders another) : (table.add info).Reorders (other.add another) := by
  unfold ClassTable.add
  rw [same.name, reorders.contains]
  split
  · exact reorders
  · exact List.rel_append reorders (.cons same .nil)

theorem Reorders.inheritsSlot (reorders : table.Reorders other) (parent : Name)
    (method : MethodInfo) :
    table.inheritsSlot parent method = other.inheritsSlot parent method := by
  unfold ClassTable.inheritsSlot
  have above := reorders.ancestors parent
  generalize table.ancestors parent = infos at above ⊢
  generalize other.ancestors parent = others at above ⊢
  induction above with
  | nil => rfl
  | cons same _ step =>
    rw [List.any_cons, List.any_cons, step, same.methods.any_eq]

theorem Reorders.markOverrides (reorders : table.Reorders other) :
    table.markOverrides.Reorders other.markOverrides := by
  refine List.rel_map (fun info another same => ⟨same.name, same.parent, ?_⟩) reorders
  simp only [reorders.inheritsSlot, same.parent]
  exact same.methods.map _

theorem forall₂_entries {units others : List SourceUnit}
    (same : List.Forall₂ SourceUnit.Reorders units others) :
    List.Forall₂ ClassInfo.Reorders (entries units) (entries others) := by
  unfold entries
  generalize 0 = first
  induction same generalizing first with
  | nil => exact .nil
  | cons here _ step =>
    rw [List.zipIdx_cons, List.zipIdx_cons, List.flatMap_cons, List.flatMap_cons]
    refine List.rel_append (List.rel_map (fun decl another same => ?_) here) (step _)
    refine ⟨same.name, ?_, ?_⟩
    · show decl.parentOrRoot = another.parentOrRoot
      unfold ClassDecl.parentOrRoot
      rw [same.parent]
    · unfold entry
      rw [same.name]
      exact same.methods.map _

/-- **Programs whose classes declare the same methods in some order have tables of the same
methods.** -/
theorem reorders_ofUnits {units others : List SourceUnit}
    (same : List.Forall₂ SourceUnit.Reorders units others) :
    (ofUnits units).Reorders (ofUnits others) := by
  have start : Reorders ⟨provided⟩ ⟨provided⟩ :=
    List.forall₂_same.mpr fun _ _ => ⟨rfl, rfl, .refl _⟩
  have filled {infos others : List ClassInfo}
      (each : List.Forall₂ ClassInfo.Reorders infos others) {table other : ClassTable}
      (reorders : table.Reorders other) :
      (infos.foldl add table).Reorders (others.foldl add other) := by
    induction each generalizing table other with
    | nil => exact reorders
    | cons here _ step => exact step (reorders.add here)
  exact (filled (forall₂_entries same) start).markOverrides

/-! ### What a call means -/

/-- **What a call means in a table**: the least method that it may mean, if there is one. The empty
name stands for no class. -/
structure OverloadLaws (table : ClassTable) : Prop where
  /-- A method is found exactly if it is the least that the call may mean. -/
  least : ∀ className name args, className ≠ Reserved.empty → ∀ ref,
    table.resolveOverload className name args = some ref ↔
      ∃ info, table.IsLeast className name args (ref, info)
  /-- There is at most one. -/
  unique : ∀ className name args, className ≠ Reserved.empty → ∀ method other,
    table.IsLeast className name args method → table.IsLeast className name args other →
      method = other
  /-- Nothing is found exactly if no method that the call may mean is below all of them. -/
  none_iff : ∀ className name args, className ≠ Reserved.empty →
    (table.resolveOverload className name args = none ↔
      ∀ method, table.IsCandidate className name args method →
        ∃ other, table.IsCandidate className name args other ∧ ¬table.Below method.2 other.2)
  /-- Where signatures differ, the order of the methods of a class does not matter. -/
  reordered : table.DistinctSignatures → ∀ other, table.Reorders other → ∀ className name args,
    table.declaration? className name args = other.declaration? className name args
  /-- A class that has no method of the name leaves the call to its parent. -/
  inherited : ∀ className info name args, className ≠ Reserved.empty →
    table.class? className = some info →
    (∀ method ∈ info.methods, method.name = name → method.flags.isConstructor = true) →
      table.resolveOverload className name args = table.resolveOverload info.parent name args

end ClassTable

/-- **Overload resolution is lawful**: in a table where no class is its own proper ancestor a call
means the least method that it may mean, whatever the order of the methods in each class. -/
theorem overloads_lawful {table : ClassTable} (acyclic : ∀ name, ¬table.Circular name) :
    table.OverloadLaws where
  least _ _ _ named _ := ClassTable.resolveOverload_eq_some_iff acyclic named
  unique _ _ _ named _ _ least leastToo := least.unique acyclic named leastToo
  none_iff _ _ _ named := ClassTable.resolveOverload_eq_none_iff acyclic named
  reordered distinct _ reorders className name args :=
    reorders.declaration? acyclic distinct className name args
  inherited _ _ _ _ named found undeclared :=
    ClassTable.resolveOverload_of_undeclared acyclic named found undeclared

/-- A class with a method for two types of numbers, and a class that declares one of them again. -/
def Source.SourceUnit.puts : SourceUnit where
  path := "Sink"
  package := []
  imports := []
  classes := [
    { name := "Sink", parent := none, fields := [], span := ⟨0, 1⟩
      methods := [
        { name := "put", params := [⟨.long, "amount"⟩], ret := .void, body := .block ⟨1, 2⟩ []
          modifiers := {}, span := ⟨2, 3⟩ },
        { name := "put", params := [⟨.int, "amount"⟩], ret := .void, body := .block ⟨3, 4⟩ []
          modifiers := {}, span := ⟨4, 5⟩ }] },
    { name := "Drain", parent := some "Sink", fields := [], span := ⟨5, 6⟩
      methods := [
        { name := "put", params := [⟨.int, "amount"⟩], ret := .void, body := .block ⟨6, 7⟩ []
          modifiers := {}, span := ⟨7, 8⟩ }] }]
  nodes := #[]
  stmtCount := 3

/-- The same classes, the first one's methods in the other order. -/
def Source.SourceUnit.putsTurned : SourceUnit :=
  { puts with
    classes := puts.classes.map fun decl => { decl with methods := decl.methods.reverse } }

/-- A number that fits both methods goes to the nearer of the narrower ones, in either order. -/
theorem overloads_lawful_puts :
    (∀ name, ¬(ClassTable.ofUnits [.puts]).Circular name) ∧
      (ClassTable.ofUnits [.puts]).OverloadLaws ∧
      (∃ info,
        (ClassTable.ofUnits [.puts]).IsLeast "Drain" "put" [some .int] (⟨"Drain", 0⟩, info)) ∧
      (ClassTable.ofUnits [.puts]).DistinctSignatures ∧
      (ClassTable.ofUnits [.puts]).Reorders (.ofUnits [.putsTurned]) ∧
      (ClassTable.ofUnits [.puts]).resolveOverload "Sink" "put" [none] ≠
        (ClassTable.ofUnits [.putsTurned]).resolveOverload "Sink" "put" [none] ∧
      (ClassTable.ofUnits [.puts]).declaration? "Sink" "put" [none] =
        (ClassTable.ofUnits [.putsTurned]).declaration? "Sink" "put" [none] := by
  have acyclic : ∀ name, ¬(ClassTable.ofUnits [.puts]).Circular name :=
    ClassTable.not_circular_of_walks (by decide +kernel)
  have lawful := overloads_lawful acyclic
  have distinct : (ClassTable.ofUnits [.puts]).DistinctSignatures := by
    unfold ClassTable.DistinctSignatures
    decide +kernel
  have reorders : (ClassTable.ofUnits [.puts]).Reorders (.ofUnits [.putsTurned]) :=
    ClassTable.reorders_ofUnits (.cons (List.forall₂_map_right_iff.mpr
      (List.forall₂_same.mpr fun decl _ => ⟨rfl, rfl, (List.reverse_perm _).symm⟩)) .nil)
  exact ⟨acyclic, lawful, (lawful.least "Drain" "put" [some .int] (by decide) _).mp
    (by decide +kernel), distinct, reorders, by decide +kernel,
    lawful.reordered distinct _ reorders "Sink" "put" [none]⟩

/-- A class of the empty name with a method, below a class that is not there. -/
def Source.SourceUnit.unnamed : SourceUnit where
  path := "N"
  package := []
  imports := []
  classes := [
    { name := "", parent := some "Gone", fields := [], span := ⟨0, 1⟩
      methods := [
        { name := "m", params := [], ret := .void, body := .block ⟨1, 2⟩ []
          modifiers := {}, span := ⟨2, 3⟩ }] }]
  nodes := #[]
  stmtCount := 1

/-- **The methods of a class of the empty name are not found**: its only method is the least of
those that a call may mean, but the call means nothing. -/
theorem overload_misses_unnamed :
    (∀ name, ¬(ClassTable.ofUnits [.unnamed]).Circular name) ∧
      (∃ info, (ClassTable.ofUnits [.unnamed]).IsLeast "" "m" [] (⟨"", 0⟩, info)) ∧
      (ClassTable.ofUnits [.unnamed]).resolveOverload "" "m" [] = none := by
  have acyclic : ∀ name, ¬(ClassTable.ofUnits [.unnamed]).Circular name :=
    ClassTable.not_circular_of_walks (by decide +kernel)
  have entry : (ClassTable.ofUnits [.unnamed]).method? ⟨"", 0⟩ =
      some ⟨"m", [], .void, { isVirtual := true }, ⟨2, 3⟩⟩ := by decide +kernel
  refine ⟨acyclic, ⟨_, ⟨⟨entry, .refl⟩, rfl, rfl, .nil, ?_⟩, fun other candidate => ?_⟩,
    by decide +kernel⟩
  · -- Nothing is below the class, since no parent is the empty name.
    rintro other _ _ _ _ (⟨_, earlier⟩ | up)
    · exact Nat.not_lt_zero _ earlier
    · obtain ⟨_, _, last⟩ := Relation.TransGen.tail'_iff.mp up
      exact (ClassTable.declares_iff.mp last).2 rfl
  · have params : other.2.params = [] := List.forall₂_nil_right_iff.mp candidate.accepts
    unfold ClassTable.Below
    rw [params]
    exact .nil

end ObjectLowering
