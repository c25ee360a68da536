/-
**Arrays of arrays.**

A grid of some lengths is an array of the first length whose elements are grids of the lengths
behind; the elements of the innermost arrays have the default of their type. Made level by level,
its arrays lie one behind the other in memory.

* `IsGrid` says what can be seen of a grid from its root: the array at each path.
* `gridCells` are the arrays of a grid that was made from an address on.
* `gridAddress_inj`: no two paths in them lead to one address.
* **`isGrid_of_prefix`**: arrays that lie so are a grid.
-/

import Mathlib.Data.List.Infix
import ObjectLowering.Proofs.Arrays.Execution

namespace ObjectLowering

theorem Ty.arrayOf_arrayOf (element : Ty) (inner outer : Nat) :
    (element.arrayOf inner).arrayOf outer = element.arrayOf (inner + outer) := by
  induction outer with
  | zero => rfl
  | succ outer step => exact congrArg Ty.array step

/-! ### Paths -/

/-- The positions lead to an array of a grid of these lengths: there are fewer than lengths, and
each is below the length at its place. -/
def Fits : List Nat → List Nat → Prop
  | [], _ => False
  | _ :: _, [] => True
  | length :: lengths, position :: path => position < length ∧ Fits lengths path

/-- The address of the array that the positions lead to from a value. -/
def arrayAt (arrays : List Cells) : Value → List Nat → Option Nat
  | .array address, [] => some address
  | .array address, position :: path => do
    let cells ← arrays[address]?
    let item ← cells.items[position]?
    arrayAt arrays item path
  | _, _ => none

/-- The value is a grid of the lengths, of arrays from an address on: every path leads to an array
of its own with the length at its depth, whose element type lacks one level for each length up to
there; the innermost elements are defaults. -/
structure IsGrid (arrays : List Cells) (start : Nat) (leaf : Ty) (lengths : List Nat)
    (root : Value) : Prop where
  full : ∀ path, Fits lengths path → ∃ address cells,
    arrayAt arrays root path = some address ∧ start ≤ address ∧ arrays[address]? = some cells ∧
      lengths[path.length]? = some cells.items.length ∧
      cells.element = leaf.arrayOf (lengths.length - 1 - path.length) ∧
      (lengths.length = path.length + 1 →
        ∀ item ∈ cells.items, item = .initial (.ofType leaf))
  distinct : ∀ path other, Fits lengths path → Fits lengths other →
    arrayAt arrays root path = arrayAt arrays root other → path = other

/-! ### Arrays one behind the other -/

/-- How many arrays a grid has. -/
def gridSize : List Nat → Nat
  | [] => 0
  | length :: rest => 1 + length * gridSize rest

/-- Where the grid at a position of the outermost array starts. -/
def innerAddress (rest : List Nat) (address position : Nat) : Nat :=
  address + 1 + position * gridSize rest

/-- The outermost array of a grid: defaults, or the grids of the lengths behind. -/
def outerCells (leaf : Ty) (length address : Nat) : List Nat → Cells
  | [] => .new leaf length
  | next :: rest => ⟨leaf.arrayOf (rest.length + 1),
      (List.range length).map fun position => .array (innerAddress (next :: rest) address position)⟩

/-- The arrays of a grid, the outermost one at an address and the others behind it. -/
def gridCells (leaf : Ty) : List Nat → Nat → List Cells
  | [], _ => []
  | length :: rest, address => outerCells leaf length address rest ::
      (List.range length).flatMap fun position =>
        gridCells leaf rest (innerAddress rest address position)

theorem gridCells_singleton (leaf : Ty) (length address : Nat) :
    gridCells leaf [length] address = [.new leaf length] := by
  unfold gridCells
  exact congrArg _ (List.flatMap_eq_nil_iff.mpr fun _ _ => rfl)

/-- The address of the array that the positions lead to. -/
def gridAddress : List Nat → Nat → List Nat → Nat
  | [], address, _ | _ :: _, address, [] => address
  | _ :: rest, address, position :: path =>
    gridAddress rest (innerAddress rest address position) path

variable {leaf : Ty} {lengths rest path other : List Nat} {address position : Nat}

theorem length_flatMap_gridCells (count : Nat)
    (each : ∀ address, (gridCells leaf rest address).length = gridSize rest) :
    ((List.range count).flatMap fun position =>
      gridCells leaf rest (innerAddress rest address position)).length = count * gridSize rest := by
  induction count with
  | zero => exact (Nat.zero_mul _).symm
  | succ count step =>
    rw [List.range_succ, List.flatMap_append, List.length_append, step, List.flatMap_singleton,
      each, Nat.succ_mul]

theorem length_gridCells (lengths : List Nat) (address : Nat) :
    (gridCells leaf lengths address).length = gridSize lengths := by
  induction lengths generalizing address with
  | nil => rfl
  | cons length rest step =>
    rw [gridCells, List.length_cons, length_flatMap_gridCells length step, gridSize, Nat.add_comm]

/-- The grid at a position lies behind the outermost array and the grids in front of it. -/
theorem gridCells_within {length : Nat} (inside : position < length) :
    gridCells leaf rest (innerAddress rest address position) <+:
      (gridCells leaf (length :: rest) address).drop (1 + position * gridSize rest) := by
  obtain ⟨behind, rfl⟩ := Nat.exists_eq_add_of_lt inside
  have front : ((List.range position).flatMap fun position =>
      gridCells leaf rest (innerAddress rest address position)).length =
        position * gridSize rest :=
    length_flatMap_gridCells position (length_gridCells rest)
  rw [gridCells, Nat.add_comm 1, List.drop_succ_cons, Nat.add_assoc, List.range_add,
    List.flatMap_append, List.drop_left' front, List.range_succ_eq_map, List.map_cons,
    List.flatMap_cons, Nat.add_zero]
  exact List.prefix_append _ _

/-! ### Arrays that are being filled -/

/-- The outermost array while the grids at the first positions are stored. -/
def filledCells (leaf : Ty) (length address : Nat) (rest : List Nat) (done : Nat) : Cells :=
  ⟨leaf.arrayOf rest.length,
    (List.range done).map (fun position => .array (innerAddress rest address position)) ++
      List.replicate (length - done) .null⟩

/-- The arrays of a grid while the grids at the first positions are made. -/
def filledGrid (leaf : Ty) (length address : Nat) (rest : List Nat) (done : Nat) : List Cells :=
  filledCells leaf length address rest done ::
    (List.range done).flatMap fun position =>
      gridCells leaf rest (innerAddress rest address position)

theorem filledGrid_self (leaf : Ty) (length address next : Nat) (rest : List Nat) :
    filledGrid leaf length address (next :: rest) length =
      gridCells leaf (length :: next :: rest) address := by
  unfold filledGrid filledCells
  rw [Nat.sub_self, List.replicate_zero, List.append_nil]
  rfl

/-- Behind them the next grid starts. -/
theorem length_filledGrid (leaf : Ty) (length address : Nat) (rest : List Nat) (done : Nat) :
    address + (filledGrid leaf length address rest done).length =
      innerAddress rest address done := by
  rw [filledGrid, List.length_cons, length_flatMap_gridCells done (length_gridCells rest)]
  unfold innerAddress
  omega

theorem length_filledCells {length done : Nat} (inside : done ≤ length) :
    (filledCells leaf length address rest done).items.length = length := by
  show (List.map _ _ ++ _).length = length
  rw [List.length_append, List.length_map, List.length_range, List.length_replicate,
    Nat.add_sub_cancel' inside]

/-- The next grid is made, and then stored at its position. -/
theorem filledGrid_succ {length done : Nat} (inside : done < length) :
    filledGrid leaf length address rest (done + 1) =
      ⟨(filledCells leaf length address rest done).element,
        (filledCells leaf length address rest done).items.set done
          (.array (innerAddress rest address done))⟩ ::
      ((List.range done).flatMap (fun position =>
        gridCells leaf rest (innerAddress rest address position)) ++
          gridCells leaf rest (innerAddress rest address done)) := by
  obtain ⟨left, rfl⟩ := Nat.exists_eq_add_of_lt inside
  have before : done + left + 1 - done = left + 1 := by omega
  have after : done + left + 1 - (done + 1) = left := by omega
  unfold filledGrid filledCells
  rw [before, after, List.range_succ, List.map_append, List.flatMap_append, List.flatMap_singleton,
    List.append_assoc]
  congr 2
  have front : ((List.range done).map fun position =>
      Value.array (innerAddress rest address position)).length ≤ done := by
    rw [List.length_map, List.length_range]
  rw [List.set_append_right _ _ front, List.length_map, List.length_range, Nat.sub_self]
  rfl

/-! ### What the paths lead to -/

theorem gridAddress_bounds (address : Nat) (fits : Fits lengths path) :
    address ≤ gridAddress lengths address path ∧
      gridAddress lengths address path < address + gridSize lengths := by
  induction lengths generalizing address path with
  | nil => exact fits.elim
  | cons length rest step =>
    cases path with
    | nil => exact ⟨Nat.le_refl _, Nat.lt_add_of_pos_right (Nat.add_pos_left Nat.one_pos _)⟩
    | cons position path =>
      have within : (position + 1) * gridSize rest ≤ length * gridSize rest :=
        Nat.mul_le_mul_right _ fits.1
      have bounds := step (innerAddress rest address position) fits.2
      rw [Nat.succ_mul] at within
      rw [gridAddress, gridSize]
      unfold innerAddress at bounds ⊢
      omega

/-- A path into the grid at a position leads behind the grids in front of it, and not beyond. -/
theorem gridAddress_inner (address : Nat) (position : Nat) (fits : Fits rest path) :
    address + 1 + position * gridSize rest ≤
        gridAddress rest (innerAddress rest address position) path ∧
      gridAddress rest (innerAddress rest address position) path <
        address + 1 + (position + 1) * gridSize rest := by
  have bounds := gridAddress_bounds (innerAddress rest address position) fits
  rw [Nat.succ_mul]
  unfold innerAddress at bounds ⊢
  omega

/-- **No two paths lead to one address.** -/
theorem gridAddress_inj (fits : Fits lengths path) (fitsToo : Fits lengths other)
    (same : gridAddress lengths address path = gridAddress lengths address other) :
    path = other := by
  induction lengths generalizing address path other with
  | nil => exact fits.elim
  | cons length rest step =>
    match path, other with
    | [], [] => rfl
    | [], position :: other =>
      have bounds := (gridAddress_inner address position fitsToo.2).1
      rw [gridAddress, gridAddress] at same
      omega
    | position :: path, [] =>
      have bounds := (gridAddress_inner address position fits.2).1
      rw [gridAddress, gridAddress] at same
      omega
    | position :: path, positionToo :: other =>
      rw [gridAddress, gridAddress] at same
      -- the grids lie one behind the other, so the address tells the position
      have first := gridAddress_inner address position fits.2
      have second := gridAddress_inner address positionToo fitsToo.2
      rcases Nat.lt_trichotomy position positionToo with less | rfl | less
      · have apart := Nat.mul_le_mul_right (gridSize rest) (Nat.succ_le_of_lt less)
        rw [Nat.succ_eq_add_one] at apart
        omega
      · rw [step fits.2 fitsToo.2 same]
      · have apart := Nat.mul_le_mul_right (gridSize rest) (Nat.succ_le_of_lt less)
        rw [Nat.succ_eq_add_one] at apart
        omega

/-- The outermost array has the first length; if no length is behind, its elements are defaults. -/
theorem outerCells_spec (leaf : Ty) (length address : Nat) (rest : List Nat) :
    (outerCells leaf length address rest).items.length = length ∧
      (outerCells leaf length address rest).element = leaf.arrayOf rest.length ∧
      (rest = [] → ∀ item ∈ (outerCells leaf length address rest).items,
        item = .initial (.ofType leaf)) := by
  cases rest with
  | nil => exact ⟨List.length_replicate, rfl, fun _ _ member => List.eq_of_mem_replicate member⟩
  | cons next rest =>
    exact ⟨(List.length_map _).trans List.length_range, rfl, fun none => nomatch none⟩

theorem outerCells_item {length : Nat} (inside : position < length) (more : rest ≠ []) :
    (outerCells leaf length address rest).items[position]? =
      some (.array (innerAddress rest address position)) := by
  cases rest with
  | nil => exact absurd rfl more
  | cons next rest =>
    show ((List.range length).map _)[position]? = _
    rw [List.getElem?_map, List.getElem?_range inside]
    rfl

/-- **A path leads to the array that lies at its address**, with the length at its depth. -/
theorem arrayAt_gridCells {arrays : List Cells} (fits : Fits lengths path)
    (held : gridCells leaf lengths address <+: arrays.drop address) :
    arrayAt arrays (.array address) path = some (gridAddress lengths address path) ∧
    ∃ cells, arrays[gridAddress lengths address path]? = some cells ∧
      lengths[path.length]? = some cells.items.length ∧
      cells.element = leaf.arrayOf (lengths.length - 1 - path.length) ∧
      (lengths.length = path.length + 1 →
        ∀ item ∈ cells.items, item = .initial (.ofType leaf)) := by
  induction lengths generalizing address path with
  | nil => exact fits.elim
  | cons length rest step =>
    have outer : arrays[address]? = some (outerCells leaf length address rest) := by
      obtain ⟨behind, same⟩ := held
      have first : (arrays.drop address)[0]? = some (outerCells leaf length address rest) := by
        rw [← same]
        rfl
      rwa [List.getElem?_drop] at first
    obtain ⟨sized, element, defaults⟩ := outerCells_spec leaf length address rest
    cases path with
    | nil =>
      refine ⟨rfl, _, outer, congrArg some sized.symm, element, fun last => defaults ?_⟩
      exact List.eq_nil_of_length_eq_zero (Nat.succ_inj.mp last)
    | cons position path =>
      have more : rest ≠ [] := by
        rintro rfl
        exact fits.2
      have inner : gridCells leaf rest (innerAddress rest address position) <+:
          arrays.drop (innerAddress rest address position) := by
        have deeper := (gridCells_within fits.1).trans (List.IsPrefix.drop held _)
        rwa [List.drop_drop, ← Nat.add_assoc] at deeper
      obtain ⟨leads, cells, found, sized, element, defaults⟩ := step fits.2 inner
      refine ⟨?_, cells, found, sized, ?_, fun last => defaults (Nat.succ_inj.mp last)⟩
      · rw [arrayAt, outer, Option.bind_eq_bind, Option.bind_some, outerCells_item fits.1 more]
        exact leads
      · rw [element, List.length_cons, List.length_cons]
        exact congrArg _ (by omega)

/-- **Arrays that lie so are a grid**, whose root is the first of them. -/
theorem isGrid_of_prefix {arrays : List Cells}
    (held : gridCells leaf lengths address <+: arrays.drop address) :
    IsGrid arrays address leaf lengths (.array address) := by
  refine ⟨fun path fits => ?_, fun path other fits fitsToo same => ?_⟩
  · obtain ⟨leads, cells, known⟩ := arrayAt_gridCells fits held
    exact ⟨_, cells, leads, (gridAddress_bounds address fits).1, known⟩
  · rw [(arrayAt_gridCells fits held).1, (arrayAt_gridCells fitsToo held).1] at same
    exact gridAddress_inj fits fitsToo (Option.some.inj same)

end ObjectLowering
