/-
**What a unit is built to is a valid forest, whatever its facade answers.**

What building fails with depends on the facade. But every form takes what its children left loose,
so what was built refers backwards only, and to each node from one place at most.

* **`built_forest`**: no unit is refused for a violation, and its arena is a forest.
-/

import ObjectLowering.Proofs.Building.Units
import ObjectLowering.Proofs.Lowering.LoweredClasses

namespace ObjectLowering

open Source (SourceUnit)
open Building

/-- **The arena that lowering builds is a valid forest.** Let the facts of a program be known and a
facade answer the questions of a unit in any way. The unit is not refused for a violation. Where its
classes could be built, every check passes; a node refers only to what was there before it, and one
place at most refers to a node; and the trees of the arena are those of the lowered unit. -/
theorem built_forest {units : List SourceUnit} {names : NameTable} {options : LoweringOptions}
    {facts : Facts} (computed : (Program.ofUnits units).facts names options = .ok facts)
    (index : Nat) (unit : SourceUnit) (facade : Facade) :
    (∀ violation, buildUnit index unit facade facts options ≠ .error (.violation violation)) ∧
    ∀ flat,
      buildClasses ⟨facade, facts.mangle.sites index, facts, options⟩ index unit = .ok flat →
      buildUnit index unit facade facts options = .ok flat ∧ flat.validate = .ok () ∧
        flat.IsForest ∧ ∃ tree, lowerUnit index unit facade facts options = .ok tree ∧
          (flat.arena.Fits → flat.read = tree) := by
  have aligned := VtableSet.aligned (Program.vtables_of_facts computed)
  constructor
  · intro violation refused
    have known := @agrees_buildUnit facts options aligned index unit facade
    rw [refused] at known
    exact known
  · intro flat built
    have known := @agrees_buildClasses ⟨facade, facts.mangle.sites index, facts, options⟩ aligned
      index unit
    rw [built] at known
    exact ⟨(buildUnit_eq aligned index unit facade).trans built, known⟩

/-- The facade of two classes, with all types hidden and every call said to be dynamic. -/
def Facade.blindShapes : Facade :=
  Alteration.apply ⟨[.exprType], some .virtual⟩ (Program.facadeAt [.shapes] 0 .shapes)

/-- The classes are built all the same, and their arena is a forest. -/
theorem built_forest_shapes :
    ∃ facts flat tree, (Program.ofUnits [.shapes]).facts ⟨["Shape", "Square"]⟩ {} = .ok facts ∧
      buildUnit 0 .shapes .blindShapes facts {} = .ok flat ∧ flat.validate = .ok () ∧
      flat.IsForest ∧ lowerUnit 0 .shapes .blindShapes facts {} = .ok tree ∧ flat.read = tree := by
  have succeeds : (((Program.ofUnits [.shapes]).facts ⟨["Shape", "Square"]⟩ {}).toOption.any
      fun facts => (buildClasses ⟨.blindShapes, facts.mangle.sites 0, facts, {}⟩ 0
        .shapes).toOption.any fun flat =>
          flat.arena.exprs.size + flat.arena.stmts.size < 100) = true := by decide +kernel
  obtain ⟨facts, computed, succeeds⟩ := exists_of_any_toOption succeeds
  obtain ⟨flat, classes, few⟩ := exists_of_any_toOption succeeds
  have few := of_decide_eq_true few
  obtain ⟨built, valid, forest, tree, lowered, reads⟩ :=
    (built_forest computed 0 .shapes .blindShapes).2 flat classes
  exact ⟨facts, flat, tree, computed, built, valid, forest, lowered,
    reads ⟨by unfold NodeId.invalid; omega, by unfold NodeId.invalid; omega⟩⟩

end ObjectLowering
