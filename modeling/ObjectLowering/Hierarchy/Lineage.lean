/-
**The way from a class up to the root.**

Parents form a map from class to parent, in which the root has the empty name. The lineage of a
class is the class followed by its ancestors up to a class without a parent. It does not exist if
the way comes back to a class it has passed, or leaves the map.

* `Lineage.of` follows the parents. A class is passed at most once before a repetition is seen, so
  one step more than there are classes is enough.
-/

import ObjectLowering.Hierarchy.Inheritance
import ObjectLowering.Name

namespace ObjectLowering

/-- The parent of each class; the empty name for a root. -/
abbrev ParentMap := List (Name × Name)

namespace ParentMap

/-- The parent of a class, in place of an earlier one. -/
def set (parents : ParentMap) (className parent : Name) : ParentMap :=
  redefine (·.1 == className) (fun _ => (className, parent)) (className, parent) parents

def classes (parents : ParentMap) : List Name := parents.map (·.1)

end ParentMap

/-- What following the parents of a class comes to. -/
inductive Lineage where
  /-- The class and its ancestors up to a root. -/
  | complete (classes : List Name)
  /-- The first class that is met a second time. -/
  | cycle (repeated : Name)
  /-- A class whose parent is not in the map. -/
  | unknownParent (className parent : Name)
  deriving DecidableEq, Repr

namespace Lineage

/-- Follows parents for a number of steps, with the classes passed so far, the latest first. -/
def climb (parents : ParentMap) : Nat → List Name → Name → Lineage
  | 0, _, className => .cycle className
  | steps + 1, passed, className =>
    if className ∈ passed then
      .cycle className
    else
      match parents.lookup className with
      | none => .complete (className :: passed).reverse
      | some parent =>
        if parent = Reserved.empty then .complete (className :: passed).reverse
        else if (parents.lookup parent).isNone then .unknownParent className parent
        else climb parents steps (className :: passed) parent

def of (parents : ParentMap) (className : Name) : Lineage :=
  climb parents (parents.length + 1) [] className

end Lineage

end ObjectLowering
