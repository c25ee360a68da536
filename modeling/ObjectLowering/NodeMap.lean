/-
**Values kept under the numbers of nodes.**

A map is made for a count of nodes and has at most one value for each. A number beyond the count
takes no value.

* `NodeMap.get?_insert`: after an insertion the number has the new value and others keep theirs.
* `NodeMap.entries` lists the values in the order of their numbers.
-/

import ObjectLowering.Arena

namespace ObjectLowering

/-- At most one value for each number below a count. -/
structure NodeMap (α : Type) where
  slots : Array (Option α)

namespace NodeMap

variable {α : Type}

/-- The map for a count of nodes that has no value. -/
def empty (count : Nat) : NodeMap α := ⟨Array.replicate count none⟩

def get? (map : NodeMap α) (id : NodeId) : Option α := map.slots[id]?.getD none

/-- Puts a value under a number, in place of an earlier one. -/
def insert (map : NodeMap α) (id : NodeId) (value : α) : NodeMap α :=
  ⟨map.slots.setIfInBounds id (some value)⟩

/-- The numbers that have a value, with their values, in order. -/
def entries (map : NodeMap α) : List (NodeId × α) :=
  map.slots.toList.zipIdx.filterMap fun (slot, id) => slot.map (id, ·)

def size (map : NodeMap α) : Nat := map.slots.toList.countP (·.isSome)

/-- The number of nodes that the map was made for. -/
def bound (map : NodeMap α) : Nat := map.slots.size

/-! ### Reading back -/

@[simp]
theorem get?_empty (count : Nat) (id : NodeId) : (empty count : NodeMap α).get? id = none := by
  unfold get? empty
  by_cases inside : id < count <;> simp [inside]

@[simp]
theorem bound_insert (map : NodeMap α) (id : NodeId) (value : α) :
    (map.insert id value).bound = map.bound := by
  simp [insert, bound]

/-- The number has the new value, and others keep theirs. -/
theorem get?_insert (map : NodeMap α) {id : NodeId} (other : NodeId) (value : α)
    (inside : id < map.bound) :
    (map.insert id value).get? other = if other = id then some value else map.get? other := by
  have inside' : id < map.slots.size := inside
  by_cases same : other = id
  · subst same
    simp [insert, get?, inside']
  · simp [insert, get?, same, Array.getElem?_setIfInBounds_ne (Ne.symm same)]

end NodeMap

end ObjectLowering
