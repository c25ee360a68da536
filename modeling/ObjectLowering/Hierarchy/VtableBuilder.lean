/-
**Building each vtable once.**

A class's vtable is that of its parent with the class's own methods added, so the parent's is built
first, and a vtable that is finished is not built again. A class that waits for its parent must not
be asked for again: its parents would lead back to it.

* `VtableBuilder.build` builds the vtable of one class and of those above it that have none yet.
* `VtableBuilder.buildAll` does it for every class of a table; its first failure ends it.
-/

import ObjectLowering.Hierarchy.Vtable

namespace ObjectLowering

/-- Vtables on the way. -/
structure VtableBuilder where
  /-- The vtables that are finished, the latest first. -/
  finished : VtableSet
  /-- The classes that wait for the vtables of their parents, the latest first. -/
  waiting : List Name

namespace VtableBuilder

def start : VtableBuilder := ⟨.empty, []⟩

/-- Lets a class wait for its parent. -/
def wait (builder : VtableBuilder) (className : Name) : VtableBuilder :=
  { builder with waiting := className :: builder.waiting }

/-- Adds the methods of a class to the vtable of its parent. -/
def finish (builder : VtableBuilder) (record : MangleRecord) (inherited : Vtable)
    (info : ClassInfo) : VtableBuilder where
  finished := ⟨(info.name, inherited.extend record info) :: builder.finished.classes⟩
  waiting := builder.waiting.erase info.name

/-- How many classes of the table do not wait. -/
def pending (table : ClassTable) (builder : VtableBuilder) : Nat :=
  (table.classes.filter (·.name ∉ builder.waiting)).length

theorem pending_wait_lt {table : ClassTable} {builder : VtableBuilder} {className : Name}
    {info : ClassInfo} (found : table.class? className = some info)
    (fresh : className ∉ builder.waiting) :
    (builder.wait className).pending table < builder.pending table := by
  have same := List.find?_some found
  have named : info.name = className := beq_iff_eq.mp same
  have others : table.classes.filter (·.name ∉ (builder.wait className).waiting) =
      (table.classes.filter (·.name ∉ builder.waiting)).filter (·.name ≠ className) := by
    rw [List.filter_filter]
    refine List.filter_congr fun other _ => ?_
    simp [wait]
  unfold pending
  rw [others]
  refine List.length_filter_lt_length_iff_exists.mpr ⟨info, ?_, by simp [named]⟩
  exact List.mem_filter.mpr
    ⟨List.mem_of_find?_eq_some found, decide_eq_true (named ▸ fresh)⟩

/-- Builds the vtable of a class, that of its parent first. -/
def build (table : ClassTable) (record : MangleRecord) (builder : VtableBuilder)
    (className : Name) : Except LoweringError VtableBuilder :=
  if (builder.finished.get? className).isSome then .ok builder
  else
    match _ : table.class? className with
    | none => .ok builder
    | some info =>
      if _ : className ∈ builder.waiting then .error (.inheritanceCycle className)
      else if info.parent = Reserved.empty then .ok (builder.finish record .empty info)
      else if table.contains info.parent then do
        let above ← build table record (builder.wait className) info.parent
        return above.finish record ((above.finished.get? info.parent).getD .empty) info
      else .error (.unknownParent className info.parent)
termination_by builder.pending table
decreasing_by exact pending_wait_lt (by assumption) (by assumption)

/-- Builds the vtables of all classes, in the order of the table. -/
def buildAll (table : ClassTable) (record : MangleRecord) : Except LoweringError VtableSet := do
  let builder ← table.parentMap.classes.foldlM (build table record) start
  return builder.finished

end VtableBuilder

end ObjectLowering
