/-
**The levels of a new array make a grid.**

The outermost array is allocated and held in a temporary; a loop then makes the grid of the lengths
behind, once for each position, and stores it there. After each round the arrays that were made are
those of a grid whose first positions are filled. Temporaries of levels further in are numbered
later, so they hide no length and no array.

* `Memory.Holds`: a length in a temporary. `Memory.Fresh`: locals that hide none in front of them.
* `Lowering.filling` is the memory between two rounds, `Lowering.exec_round` a round,
  `Lowering.exec_fillLoop` the whole loop.
* **`Lowering.makes_fillLevels`**: levels make the arrays of a grid, one behind the other.
-/

import ObjectLowering.Proofs.Arrays.FilledArrays
import ObjectLowering.Proofs.Arrays.Grids

namespace ObjectLowering

open Lowered (Expr Stmt)
open Lowering (tempName)

/-! ### Lengths in temporaries -/

namespace Memory

variable {ω : Type} {memory : Memory ω} {count more : Nat} {name : Name} {length : Nat}

/-- The name is of a temporary below the count that holds a length. -/
def Holds (memory : Memory ω) (count : Nat) (name : Name) (length : Nat) : Prop :=
  ∃ number < count, name = tempName number ∧ memory.lookup name = some (.int length)

/-- The locals are temporaries from the count on. -/
def Fresh (count : Nat) (front : List (Name × Value)) : Prop :=
  ∀ entry ∈ front, ∃ number, count ≤ number ∧ entry.1 = tempName number

theorem tempName_ne {number other : Nat} (less : number < other) :
    tempName number ≠ tempName other := fun same =>
  Nat.ne_of_lt less (Lowering.tempName_inj same)

/-- Temporaries that are numbered later hide none. -/
theorem lookup_fresh {front : List (Name × Value)} (fresh : Fresh count front) {number : Nat}
    (less : number < count) (memory : Memory ω) (cells : List Cells) :
    (memory.extend front cells).lookup (tempName number) = memory.lookup (tempName number) := by
  refine lookup_extend memory cells fun entry member => ?_
  obtain ⟨later, most, same⟩ := fresh entry member
  rw [same]
  exact tempName_ne (Nat.lt_of_lt_of_le less most)

theorem Holds.extend (holds : memory.Holds count name length) {front : List (Name × Value)}
    (fresh : Fresh count front) (cells : List Cells) (fewer : count ≤ more) :
    (memory.extend front cells).Holds more name length := by
  obtain ⟨number, less, rfl, found⟩ := holds
  exact ⟨number, Nat.lt_of_lt_of_le less fewer, rfl, (lookup_fresh fresh less ..).trans found⟩

end Memory

/-! ### Levels -/

namespace Lowering

open Memory (Holds Fresh)

variable {ω : Type} {others : Expr → Memory ω → Option (Value × Memory ω)} {limit : Nat}

/-- In the memory, the statements of a level and its value make the arrays, and the value is the
first of them; the locals that stay in scope are temporaries from the count on. -/
def Makes (others : Expr → Memory ω → Option (Value × Memory ω)) (limit : Nat)
    (level : List Stmt × Expr) (memory : Memory ω) (count : Nat) (cells : List Cells) : Prop :=
  ∃ front before, Fresh count front ∧
    Stmt.execAll others limit level.1 memory = some (memory.extend front before) ∧
    level.2.eval others limit (memory.extend front before) =
      some (.array memory.arrays.length, memory.extend front cells)

section Loop

variable {memory : Memory ω} {start length next : Nat} {rest : List Nat} {leaf : Ty}

/-- The memory of the loop that fills the outermost array of a grid, after some rounds. -/
def filling (memory : Memory ω) (start : Nat) (leaf : Ty) (length : Nat) (rest : List Nat)
    (done : Nat) : Memory ω :=
  (memory.extend [(tempName start, .array memory.arrays.length)]
    (filledGrid leaf length memory.arrays.length rest done)).declare (tempName (start + 1))
      (.int done)

theorem filling_eq (memory : Memory ω) (start : Nat) (leaf : Ty) (length : Nat) (rest : List Nat)
    (done : Nat) : filling memory start leaf length rest done =
      memory.extend [(tempName (start + 1), .int done),
        (tempName start, .array memory.arrays.length)]
          (filledGrid leaf length memory.arrays.length rest done) := rfl

/-- The array and the counter are temporaries from the count on. -/
theorem fresh_filling (start done address : Nat) :
    Fresh start [(tempName (start + 1), .int done), (tempName start, .array address)] := by
  unfold Fresh
  rw [List.forall_mem_cons, List.forall_mem_singleton]
  exact ⟨⟨_, Nat.le_succ start, rfl⟩, ⟨_, Nat.le_refl start, rfl⟩⟩

theorem lookup_filling_counter {done : Nat} :
    (filling memory start leaf length rest done).lookup (tempName (start + 1)) =
      some (.int done) := Memory.lookup_declare_self ..

theorem lookup_filling_array {done : Nat} :
    (filling memory start leaf length rest done).lookup (tempName start) =
      some (.array memory.arrays.length) :=
  (Memory.lookup_declare_of_ne _ _ (Memory.tempName_ne (Nat.lt_succ_self start))).trans
    List.lookup_cons_self

theorem length_arrays_filling {done : Nat} :
    (filling memory start leaf length rest done).arrays.length =
      innerAddress rest memory.arrays.length done :=
  List.length_append.trans (length_filledGrid ..)

variable {size : Name} {stmts : List Stmt} {value : Expr} (span : Span)

/-- The grid that was made is stored at the position of the counter. -/
theorem store_filling {done : Nat} (inside : done < length) (front : List (Name × Value)) :
    ((filling memory start leaf length rest done).extend front (gridCells leaf rest
      (filling memory start leaf length rest done).arrays.length)).store
        (.array memory.arrays.length) (.int done)
        (.array (filling memory start leaf length rest done).arrays.length) =
      some ⟨front ++ (filling memory start leaf length rest done).locals,
        memory.arrays ++ filledGrid leaf length memory.arrays.length rest (done + 1),
        memory.world⟩ := by
  rw [length_arrays_filling, filledGrid_succ inside, ← Memory.store_append
    (by rwa [length_filledCells (Nat.le_of_lt inside)])]
  refine congrArg (fun arrays => Memory.store ⟨_, arrays, _⟩ _ _ _) ?_
  show memory.arrays ++ (_ :: _) ++ _ = _
  rw [List.append_assoc, List.cons_append]

/-- A round makes the next grid and stores it. -/
theorem exec_round {done : Nat} (inside : done < length)
    (makes : Makes others limit (stmts, value) (filling memory start leaf length rest done)
      (start + 2)
      (gridCells leaf rest (filling memory start leaf length rest done).arrays.length)) :
    ((Stmt.block (stmts ++ [.eval (.assign span (.index span (.localVar span (tempName start))
        (.localVar span (tempName (start + 1)))) value)])).exec others limit
          (filling memory start leaf length rest done)).bind
      (Expr.evalAll others limit
        [.unary span .postIncrement (.localVar span (tempName (start + 1)))]) =
      some (filling memory start leaf length rest (done + 1)) := by
  obtain ⟨front, before, fresh, runs, ends⟩ := makes
  have array := (Memory.lookup_fresh fresh (Nat.lt_add_of_pos_right Nat.two_pos)
    (filling memory start leaf length rest done) before).trans lookup_filling_array
  have counter := (Memory.lookup_fresh fresh (Nat.lt_succ_self (start + 1))
    (filling memory start leaf length rest done) before).trans lookup_filling_counter
  have stored := Stmt.exec_eval
    (Expr.eval_assign_index span array counter ends (store_filling inside front))
  have body := (Stmt.execAll_append runs).trans ((Stmt.execAll_cons stored).trans Stmt.execAll_nil)
  have counts : (Expr.unary span .postIncrement (.localVar span (tempName (start + 1)))).eval
      others limit ((memory.extend [(tempName start, .array memory.arrays.length)] (filledGrid leaf
        length memory.arrays.length rest (done + 1))).declare (tempName (start + 1)) (.int done)) =
      some (.int done, filling memory start leaf length rest (done + 1)) :=
    Expr.eval_postIncrement (Memory.lookup_declare_self ..) (Memory.assign_declare_self ..)
  rw [Stmt.exec_block body, Option.bind_some, Memory.leave_append]
  exact Expr.evalAll_cons counts

/-- **The loop fills the array with grids.** -/
theorem exec_fillLoop (sized : memory.Holds start size length) (bounded : length < limit)
    (makes : ∀ done < length, Makes others limit (stmts, value)
      (filling memory start leaf length (next :: rest) done) (start + 2) (gridCells leaf
        (next :: rest) (filling memory start leaf length (next :: rest) done).arrays.length)) :
    (fillLoop span (tempName start) (tempName (start + 1)) size
        (.localVar .int (tempName (start + 1)) (.int span 0)) stmts value).exec others limit
      (memory.extend [(tempName start, .array memory.arrays.length)]
        [.new (leaf.arrayOf (rest.length + 1)) length]) =
      some (memory.extend [(tempName start, .array memory.arrays.length)]
        (gridCells leaf (length :: next :: rest) memory.arrays.length)) := by
  have held (done : Nat) : (filling memory start leaf length (next :: rest) done).Holds start size
      length := by
    rw [filling_eq]
    exact sized.extend (fresh_filling start done _) _ (Nat.le_refl _)
  have compares (done : Nat) : (Expr.binary span .less (.localVar span (tempName (start + 1)))
      (.localVar span size)).eval others limit
        (filling memory start leaf length (next :: rest) done) =
          some (.bool (decide ((done : Int) < length)),
            filling memory start leaf length (next :: rest) done) := by
    obtain ⟨_, _, _, found⟩ := held done
    exact Expr.eval_less (Expr.eval_localVar lookup_filling_counter) (Expr.eval_localVar found)
  have opens : Stmt.execAll others limit [.localVar .int (tempName (start + 1)) (.int span 0)]
      (memory.extend [(tempName start, .array memory.arrays.length)]
        [.new (leaf.arrayOf (rest.length + 1)) length]) =
      some (filling memory start leaf length (next :: rest) 0) := rfl
  unfold fillLoop
  rw [Stmt.exec_forLoop (filling memory start leaf length (next :: rest)) bounded opens
    (fun done less => (compares done).trans (by rw [decide_eq_true (Int.ofNat_lt.mpr less)]))
    (fun done less => exec_round span less (makes done less))
    ((compares length).trans (by rw [decide_eq_false (Int.lt_irrefl _)])), ← filledGrid_self]
  exact congrArg some (Memory.leave_append [_] (_ :: memory.locals) _ _)

end Loop

/-- **Levels make the arrays of a grid**, of the lengths that are held in their temporaries. -/
theorem makes_fillLevels (span : Span) (leaf : Ty) {size : Name} {names : List Name}
    {length : Nat} {lengths : List Nat} {start stop : Nat} {level : List Stmt × Expr}
    (done : (fillLevels span leaf size names).run start = .ok (level, stop)) {memory : Memory ω}
    (first : memory.Holds start size length)
    (behind : List.Forall₂ (memory.Holds start) names lengths)
    (bounded : ∀ bound ∈ length :: lengths, bound < limit) :
    Makes others limit level memory start
      (gridCells leaf (length :: lengths) memory.arrays.length) := by
  induction names generalizing size length lengths start stop level memory with
  | nil =>
    cases done
    obtain rfl := List.forall₂_nil_left_iff.mp behind
    obtain ⟨_, _, _, found⟩ := first
    refine ⟨[], [], List.forall_mem_nil _, ?_, ?_⟩
    · exact congrArg some (memory.extend_nil).symm
    · rw [memory.extend_nil, Expr.eval_arrayAlloc leaf (Expr.eval_localVar found),
        gridCells_singleton]
      exact memory.allocate_ofNat leaf length
  | cons next rest step =>
    obtain ⟨⟨arrayDecl, array⟩, _, here, done⟩ := run_of_bind done
    cases here
    obtain ⟨⟨counterDecl, counter⟩, _, here, done⟩ := run_of_bind done
    cases here
    obtain ⟨⟨stmts, value⟩, _, inner, done⟩ := run_of_bind done
    cases done
    obtain ⟨nextLength, restLengths, holds, holdAll, rfl⟩ := List.forall₂_cons_left_iff.mp behind
    rw [List.forall_mem_cons] at bounded
    have makes (done : Nat) : Makes others limit (stmts, value)
        (filling memory start leaf length (nextLength :: restLengths) done) (start + 2)
        (gridCells leaf (nextLength :: restLengths)
          (filling memory start leaf length (nextLength :: restLengths) done).arrays.length) := by
      have fresh := fresh_filling start done memory.arrays.length
      have later : start ≤ start + 1 + 1 := Nat.le_add_right start 2
      exact step inner (holds.extend fresh _ later)
        (holdAll.imp fun name length holds => holds.extend fresh _ later) bounded.2
    have allocated : (Expr.arrayAlloc span (leaf.arrayOf (restLengths.length + 1))
        (.localVar span size)).eval others limit memory = some (.array memory.arrays.length,
          memory.extend [] [.new (leaf.arrayOf (restLengths.length + 1)) length]) := by
      obtain ⟨_, _, _, found⟩ := first
      rw [Expr.eval_arrayAlloc _ (Expr.eval_localVar found)]
      exact memory.allocate_ofNat _ length
    have made : (Stmt.localVar (.array (leaf.arrayOf (rest.length + 1))) (tempName start)
        (.arrayAlloc span (leaf.arrayOf (rest.length + 1)) (.localVar span size))).exec others limit
          memory = some (memory.extend [(tempName start, .array memory.arrays.length)]
            [.new (leaf.arrayOf (restLengths.length + 1)) length]) := by
      rw [holdAll.length_eq]
      exact Stmt.exec_localVar _ _ allocated
    refine ⟨[(tempName start, .array memory.arrays.length)],
      gridCells leaf (length :: nextLength :: restLengths) memory.arrays.length, ?_, ?_, ?_⟩
    · exact List.forall_mem_singleton.mpr ⟨start, Nat.le_refl _, rfl⟩
    · rw [Stmt.execAll_cons made, Stmt.execAll_cons
        (exec_fillLoop span first bounded.1 fun done _ => makes done)]
      rfl
    · exact Expr.eval_localVar List.lookup_cons_self

end Lowering

end ObjectLowering
