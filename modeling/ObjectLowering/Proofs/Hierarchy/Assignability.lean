/-
**Assignability is an order.**

A type may be assigned to itself, a number to a higher place of the ladder, `null` to every
reference, a class to those above it, an array to the root class or to an array of what its elements
may be assigned to. Two such steps make one; an array that is assigned to the root class could only
go on to a class above that, and there is none. Nothing is asked of the hierarchy, for a class sees
all classes above it even on a cycle. Only where two classes are above each other may two types be
assigned to each other.

* `ClassTable.Assigns` are the rules, and `ClassTable.isAssignable_iff`: they are what is decided.
* `ClassTable.Assigns.trans`, `ClassTable.isAssignable_antisymm`: the laws of an order.
* **`assignability_is_order`**: they hold in the table of every program.
-/

import ObjectLowering.Classes.Overload
import ObjectLowering.Proofs.Hierarchy.Ancestry

namespace ObjectLowering

open Source (SourceUnit)

namespace Ty

/-! ### Widening -/

/-- The first type is a number of a lower place on the ladder. From `byte` no step leads to `char`,
which has no sign. -/
def Climbs (source target : Ty) : Prop :=
  ∃ low high, source.rank? = some low ∧ target.rank? = some high ∧ low < high ∧
    ¬(source = .byte ∧ target = .char)

variable {source middle target : Ty}

theorem widens_iff : source.widens target = true ↔ source = target ∨ source.Climbs target := by
  unfold widens
  rw [Bool.or_eq_true, beq_iff_eq]
  refine or_congr_right ?_
  constructor
  · intro wider
    split at wider
    iterate 3 cases wider
    rename_i noByte _
    split at wider
    · rename_i low high here there
      exact ⟨low, high, here, there, of_decide_eq_true wider, fun both => noByte both.1 both.2⟩
    · cases wider
  · rintro ⟨low, high, here, there, up, noByte⟩
    split
    · cases here
      cases there
      exact absurd up (Nat.lt_irrefl _)
    · exact absurd ⟨rfl, rfl⟩ noByte
    · cases here
      cases there
      exact absurd up (Nat.lt_irrefl _)
    · rw [here, there]
      exact decide_eq_true up

theorem Climbs.trans (lower : source.Climbs middle) (upper : middle.Climbs target) :
    source.Climbs target := by
  obtain ⟨low, place, here, between, up, _⟩ := lower
  obtain ⟨place', high, between', there, upToo, _⟩ := upper
  cases between.symm.trans between'
  refine ⟨low, high, here, there, Nat.lt_trans up upToo, ?_⟩
  rintro ⟨rfl, rfl⟩
  cases here
  cases there
  omega

theorem Climbs.asymm (up : source.Climbs target) : ¬target.Climbs source := by
  intro down
  obtain ⟨low, high, here, there, less, _⟩ := up.trans down
  cases here.symm.trans there
  exact Nat.lt_irrefl _ less

/-- A number is no reference. -/
theorem Climbs.isReference (up : source.Climbs target) :
    source.isReference = false ∧ target.isReference = false := by
  have number {type : Ty} {rank : Nat} (known : type.rank? = some rank) :
      type.isReference = false := by
    cases type <;> first | rfl | cases known
  obtain ⟨_, _, here, there, _⟩ := up
  exact ⟨number here, number there⟩

end Ty

namespace ClassTable

/-! ### The rules -/

/-- The first type may be assigned to the second. -/
inductive Assigns (table : ClassTable) : Ty → Ty → Prop
  | same (type : Ty) : Assigns table type type
  | wider {source target : Ty} (up : source.Climbs target) : Assigns table source target
  | null {target : Ty} (reference : target.isReference = true) : Assigns table .null target
  | upward {name above : Name} (sub : table.isSubclass name above = true) :
      Assigns table (.class name) (.class above)
  | root (element : Ty) : Assigns table (.array element) .object
  | elements {source target : Ty} (reference : source.isReference = true)
      (referenceToo : target.isReference = true) (each : Assigns table source target) :
      Assigns table (.array source) (.array target)

variable {table : ClassTable} {source middle target : Ty}

/-- **The rules are what is decided.** -/
theorem isAssignable_iff :
    table.isAssignable source target = true ↔ table.Assigns source target := by
  constructor
  · intro decided
    fun_induction isAssignable table source target with
    | case1 target => exact .null decided
    | case2 name above =>
      rw [Bool.or_eq_true, beq_iff_eq] at decided
      rcases decided with rfl | sub
      · exact .same _
      · exact .upward sub
    | case3 element above =>
      rw [beq_iff_eq.mp decided]
      exact .root element
    | case4 source target step =>
      simp only [Bool.or_eq_true, beq_iff_eq, Bool.and_eq_true] at decided
      rcases decided with rfl | ⟨⟨reference, referenceToo⟩, each⟩
      · exact .same _
      · exact .elements reference referenceToo (step each)
    | case5 source target =>
      rcases Ty.widens_iff.mp decided with rfl | up
      · exact .same _
      · exact .wider up
  · intro assigns
    induction assigns with
    | same type => exact isAssignable_refl table type
    | @wider source target up =>
      have widens := Ty.widens_iff.mpr (.inr up)
      have noReference := up.isReference
      cases source <;> first | exact widens | cases noReference.1
    | null reference => exact reference
    | upward sub => exact Bool.or_eq_true_iff.mpr (.inr sub)
    | root element => exact beq_self_eq_true _
    | elements reference referenceToo _ step =>
      unfold isAssignable
      rw [reference, referenceToo, step]
      exact Bool.or_true _

/-- Two steps make one, where no class is above the root class. -/
theorem Assigns.trans (highest : ∀ above, table.isSubclass Reserved.object above = true →
      above = Reserved.object) (lower : table.Assigns source middle)
    (upper : table.Assigns middle target) : table.Assigns source target := by
  induction lower generalizing target with
  | same _ => exact upper
  | wider up =>
    have noReference := up.isReference.2
    cases upper with
    | same _ => exact .wider up
    | wider upToo => exact .wider (up.trans upToo)
    | _ => cases noReference
  | null reference =>
    cases upper with
    | same _ => exact .null reference
    | wider up => cases reference.symm.trans up.isReference.1
    | null referenceToo => exact .null referenceToo
    | _ => exact .null rfl
  | upward sub =>
    cases upper with
    | same _ => exact .upward sub
    | wider up => cases up.isReference.1
    | upward subToo => exact .upward (isSubclass_trans sub subToo)
  | root element =>
    cases upper with
    | same _ => exact .root element
    | wider up => cases up.isReference.1
    | upward sub =>
      rw [highest _ sub]
      exact .root element
  | elements reference referenceToo each step =>
    cases upper with
    | same _ => exact .elements reference referenceToo each
    | wider up => cases up.isReference.1
    | root _ => exact .root _
    | elements _ referenceLast eachToo => exact .elements reference referenceLast (step eachToo)

/-- Types that may be assigned to each other are equal, if classes above each other are. -/
theorem Assigns.antisymm (apart : ∀ name above, table.isSubclass name above = true →
      table.isSubclass above name = true → name = above) (there : table.Assigns source target)
    (back : table.Assigns target source) : source = target := by
  induction there with
  | same _ => rfl
  | wider up =>
    have noReference := up.isReference
    cases back with
    | same _ => rfl
    | wider down => exact absurd down up.asymm
    | null _ => cases noReference.2
    | upward _ => cases noReference.2
    | root _ => cases noReference.2
    | elements _ _ _ => cases noReference.2
  | null reference =>
    cases back with
    | same _ => rfl
    | wider down => cases down.isReference.2
    | null _ => rfl
  | upward sub =>
    cases back with
    | same _ => rfl
    | wider down => cases down.isReference.1
    | upward subToo => rw [apart _ _ sub subToo]
  | root element =>
    cases back with
    | wider down => cases down.isReference.1
  | elements _ _ _ step =>
    cases back with
    | same _ => rfl
    | wider down => cases down.isReference.1
    | elements _ _ eachToo => rw [step eachToo]

/-- **Two types that may be assigned to each other are equal**, if classes above each other are. -/
theorem isAssignable_antisymm (apart : ∀ name above, table.isSubclass name above = true →
      table.isSubclass above name = true → name = above)
    (there : table.isAssignable source target = true)
    (back : table.isAssignable target source = true) : source = target :=
  (isAssignable_iff.mp there).antisymm apart (isAssignable_iff.mp back)

/-- The root class has no parent. -/
theorem eq_object_of_isSubclass (units : List SourceUnit) {above : Name}
    (sub : (ofUnits units).isSubclass Reserved.object above = true) : above = Reserved.object := by
  obtain ⟨_, _, way⟩ := isSubclass_iff.mp sub
  have root : (ofUnits units).supertype? Reserved.object = none := by
    unfold supertype? class?
    rw [classes_ofUnits]
    rfl
  rcases Relation.ReflTransGen.cases_head way with same | ⟨parent, up, _⟩
  · exact same.symm
  · cases root.symm.trans up

end ClassTable

/-- **Assignability is an order.** In the table of every program, whatever its parents, it is
reflexive and transitive; and where no class is its own proper ancestor, types that may be assigned
to each other are equal. -/
theorem assignability_is_order (units : List SourceUnit) :
    (∀ type, (ClassTable.ofUnits units).isAssignable type type = true) ∧
    (∀ source middle target, (ClassTable.ofUnits units).isAssignable source middle = true →
      (ClassTable.ofUnits units).isAssignable middle target = true →
      (ClassTable.ofUnits units).isAssignable source target = true) ∧
    ((∀ name, ¬(ClassTable.ofUnits units).Circular name) →
      ∀ source target, (ClassTable.ofUnits units).isAssignable source target = true →
        (ClassTable.ofUnits units).isAssignable target source = true → source = target) := by
  refine ⟨ClassTable.isAssignable_refl _, fun source middle target lower upper => ?_,
    fun acyclic source target there back => ?_⟩
  · rw [ClassTable.isAssignable_iff] at lower upper ⊢
    exact lower.trans (fun _ => ClassTable.eq_object_of_isSubclass units) upper
  · exact ClassTable.isAssignable_antisymm
      (fun name _ => ClassTable.eq_of_isSubclass (acyclic name)) there back

/-- Two steps into a cycle make one. The provided classes alone form none. -/
theorem assignability_is_order_knot :
    (ClassTable.ofUnits [.knot]).isAssignable (.array (.class "Tail")) (.array (.class "Ring")) =
      true ∧
    (ClassTable.ofUnits [.knot]).isAssignable (.array (.class "Ring")) (.array (.class "Loop")) =
      true ∧
    (ClassTable.ofUnits [.knot]).isAssignable (.array (.class "Tail")) (.array (.class "Loop")) =
      true ∧
    (∀ name, ¬(ClassTable.ofUnits []).Circular name) ∧
    (ClassTable.ofUnits []).isAssignable (.array .string) (.array .string) = true ∧
    Ty.array .string = .array .string := by
  have lower : (ClassTable.ofUnits [.knot]).isAssignable (.array (.class "Tail"))
      (.array (.class "Ring")) = true := by decide +kernel
  have upper : (ClassTable.ofUnits [.knot]).isAssignable (.array (.class "Ring"))
      (.array (.class "Loop")) = true := by decide +kernel
  have acyclic : ∀ name, ¬(ClassTable.ofUnits []).Circular name :=
    ClassTable.not_circular_of_walks (by decide +kernel)
  obtain ⟨_, trans, _⟩ := assignability_is_order [.knot]
  obtain ⟨refl, _, antisymm⟩ := assignability_is_order []
  exact ⟨lower, upper, trans _ _ _ lower upper, acyclic, refl _,
    antisymm acyclic _ _ (refl _) (refl _)⟩

end ObjectLowering
