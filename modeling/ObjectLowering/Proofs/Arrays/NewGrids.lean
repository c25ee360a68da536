/-
**A new array with several sized dimensions is a grid.**

The dimensions are lowered in order, and what each comes to is declared, checked, in a temporary in
front of all levels. Unless a variable is called so, a size mentions no temporary that was taken in
front of it; so the sizes come to what they come to one after the other without any temporaries, and
the levels make a grid of these lengths. Nothing keeps a source from calling a variable like a
temporary, and then the array may have other lengths.

* `Dimensions`: the dimensions and their temporaries. `Measures`: the sizes and their lengths.
* `run_lowerNewArray`: an array with several sized dimensions is a block of lengths and levels.
* `exec_sizeDecl` is one dimension; `exec_dimensions`: the lengths are held in temporaries.
* `eval_newArray`: the block comes to a grid.
* **`new_array_is_grid`**: every such array of a program is a grid of the type that was recorded.
-/

import ObjectLowering.Proofs.Arrays.ArrayGrids
import ObjectLowering.Proofs.Checks.RuntimeChecks
import ObjectLowering.Proofs.Temporaries.TempNames
import ObjectLowering.Proofs.Temporaries.UnusedLocals

namespace ObjectLowering

open Lowered (Expr Stmt Frames Unmentioned)
open Source (SourceUnit)
open Lowering

/-! ### Sizes and their lengths -/

namespace Lowered

/-- The sizes are evaluated one after the other, and are lengths. -/
inductive Measures {ω : Type} (others : Expr → Memory ω → Option (Value × Memory ω)) (limit : Nat) :
    List Expr → Memory ω → List Nat → Memory ω → Prop
  | nil (memory : Memory ω) : Measures others limit [] memory [] memory
  | cons {size : Expr} {rest : List Expr} {memory middle after : Memory ω} {length : Nat}
      {lengths : List Nat} (here : size.eval others limit memory = some (.int length, middle))
      (more : Measures others limit rest middle lengths after) :
      Measures others limit (size :: rest) memory (length :: lengths) after

end Lowered

open Lowered (Measures)

namespace Lowering

open Memory (Holds Fresh)

/-- The dimensions are lowered one after the other, each once; behind the temporaries that a
dimension takes, the next one is its own. -/
inductive Dimensions : List (LowerM Expr) → Nat → List (Expr × Name) → Nat → Prop
  | nil (start : Nat) : Dimensions [] start [] start
  | cons {dim : LowerM Expr} {rest : List (LowerM Expr)} {start count stop : Nat} {size : Expr}
      {sizes : List (Expr × Name)} (here : dim.run start = .ok (size, count))
      (more : Dimensions rest (count + 1) sizes stop) :
      Dimensions (dim :: rest) start ((size, tempName count) :: sizes) stop

/-- The temporary of a dimension holds its checked length. -/
def sizeDecl (context : Context) (span : Span) (size : Expr × Name) : Stmt :=
  .localVar .int size.2 (checkedLength context span size.1)

variable {context : Context} {span : Span} {start stop : Nat}

theorem dimension_of_run {dim : LowerM Expr} {bound : Stmt × Name}
    (done : (bindDimension context span dim).run start = .ok (bound, stop)) :
    ∃ size count, dim.run start = .ok (size, count) ∧ stop = count + 1 ∧
      bound = (sizeDecl context span (size, tempName count), tempName count) := by
  obtain ⟨size, count, lowered, declared⟩ := run_of_bind done
  cases declared
  exact ⟨size, count, lowered, rfl, rfl⟩

theorem dimensions_of_run {dims : List (LowerM Expr)} {bound : List (Stmt × Name)}
    (done : (runEach (dims.map (bindDimension context span))).run start = .ok (bound, stop)) :
    ∃ sizes, Dimensions dims start sizes stop ∧
      bound.map (·.1) = sizes.map (sizeDecl context span) ∧
      bound.map (·.2) = sizes.map (·.2) := by
  induction dims generalizing start bound with
  | nil =>
    cases done
    exact ⟨[], .nil stop, rfl, rfl⟩
  | cons dim rest step =>
    obtain ⟨first, _, here, done⟩ := run_of_bind done
    obtain ⟨others, _, there, done⟩ := run_of_bind done
    cases done
    obtain ⟨size, count, lowered, rfl, rfl⟩ := dimension_of_run here
    obtain ⟨sizes, dimensions, decls, names⟩ := step there
    exact ⟨(size, tempName count) :: sizes, .cons lowered dimensions, congrArg _ decls,
      congrArg _ names⟩

/-- Statements in front of a value are kept in a block, which takes no temporary. -/
theorem run_blockExpr {stmt : Stmt} {stmts : List Stmt} {result tree : Expr}
    (done : (blockExpr span (stmt :: stmts) result).run start = .ok (tree, stop)) :
    tree = .block span (stmt :: stmts) result ∧ stop = start := by
  obtain ⟨_, _, checked, done⟩ := run_of_bind done
  unfold Lowering.checkLength at checked
  split at checked <;> cases checked
  cases done
  exact ⟨rfl, rfl⟩

/-- A new array with several sized dimensions: their lengths, then its levels. -/
theorem run_lowerNewArray {dims : List (LowerM Expr)} (several : 2 ≤ dims.length) {element : Ty}
    {extra : Nat} {tree : Expr}
    (done : (lowerNewArray context span element dims extra).run start = .ok (tree, stop)) :
    ∃ size sizes middle level, Dimensions dims start (size :: sizes) middle ∧
      (fillLevels span (element.arrayOf extra) size.2 (sizes.map (·.2))).run middle =
        .ok (level, stop) ∧
      tree = .block span ((size :: sizes).map (sizeDecl context span) ++ level.1) level.2 := by
  match dims with
  | [_] => exact absurd several (Nat.not_succ_le_self 1)
  | dim :: next :: rest =>
    obtain ⟨_, _, here, behind⟩ := run_of_bind done
    obtain ⟨bound, middle, there, behind⟩ := run_of_bind behind
    obtain ⟨level, _, levels, returned⟩ := run_of_bind behind
    obtain ⟨size, count, lowered, rfl, rfl⟩ := dimension_of_run here
    obtain ⟨sizes, dimensions, decls, names⟩ := dimensions_of_run there
    obtain ⟨rfl, rfl⟩ := run_blockExpr returned
    rw [names] at levels
    refine ⟨(size, tempName count), sizes, middle, level, .cons lowered dimensions, levels, ?_⟩
    rw [decls]
    rfl

/-- The outer levels of an array are held in a temporary while they are filled. -/
theorem level_of_fillLevels {leaf : Ty} {size next : Name} {rest : List Name}
    {level : List Stmt × Expr}
    (done : (fillLevels span leaf size (next :: rest)).run start = .ok (level, stop)) :
    ∃ array fill, level =
      ([.localVar (leaf.arrayOf (rest.length + 2)) (tempName start) array, fill],
        .localVar span (tempName start)) := by
  obtain ⟨_, _, here, done⟩ := run_of_bind done
  cases here
  obtain ⟨_, _, here, done⟩ := run_of_bind done
  cases here
  obtain ⟨_, _, _, done⟩ := run_of_bind done
  cases done
  exact ⟨_, _, rfl⟩

/-! ### Lengths in memory -/

/-- The sizes and their temporaries are determined. -/
theorem Dimensions.unique {dims : List (LowerM Expr)} {sizes others : List (Expr × Name)}
    {last : Nat} (dimensions : Dimensions dims start sizes stop)
    (again : Dimensions dims start others last) : sizes = others := by
  induction dimensions generalizing others with
  | nil =>
    cases again
    rfl
  | cons here _ step =>
    cases again with
    | cons hereToo more =>
    cases here.symm.trans hereToo
    rw [step more]

theorem Dimensions.length_eq {dims : List (LowerM Expr)} {sizes : List (Expr × Name)}
    (dimensions : Dimensions dims start sizes stop) : sizes.length = dims.length := by
  induction dimensions with
  | nil => rfl
  | cons _ _ step => exact congrArg Nat.succ step

section Run

variable {ω : Type} {others : Expr → Memory ω → Option (Value × Memory ω)} {limit more : Nat}

theorem eval_checkedLength {size : Expr} {memory after : Memory ω} {length : Nat}
    (sized : size.eval others limit memory = some (.int length, after)) :
    (checkedLength context span size).eval others limit memory = some (.int length, after) := by
  unfold checkedLength
  split
  · exact Expr.eval_negativeLength sized
  · exact sized

/-- The locals are temporaries from a number on up to another one. -/
def Taken (base stop : Nat) (front : List (Name × Value)) : Prop :=
  ∀ entry ∈ front, ∃ number, base ≤ number ∧ number < stop ∧ entry.1 = tempName number

theorem Taken.cons {base count : Nat} {front : List (Name × Value)}
    (taken : Taken base start front) (least : base ≤ start) (grown : start ≤ count)
    (value : Value) : Taken base (count + 1) ((tempName count, value) :: front) := by
  refine List.forall_mem_cons.mpr
    ⟨⟨count, Nat.le_trans least grown, Nat.lt_succ_self count, rfl⟩, fun entry member => ?_⟩
  obtain ⟨number, bounded, less, named⟩ := taken entry member
  exact ⟨number, bounded, Nat.lt_succ_of_lt (Nat.lt_of_lt_of_le less grown), named⟩

/-- A size mentions none of the temporaries that were taken in front of it. -/
theorem unmentioned_of_closes {allowed : Name → Prop} {base count : Nat} {size : Expr}
    (closes : Closes allowed (temps start count) size) {front : List (Name × Value)}
    (apart : ∀ number, base ≤ number → number < start → ¬allowed (tempName number))
    (taken : Taken base start front) : Unmentioned front (size.uses []) := by
  intro use member entry inside same
  obtain ⟨number, least, less, named⟩ := taken entry inside
  obtain ⟨inner, _, new, known⟩ := closes.reads [] use member
  rcases known with here | known
  · obtain ⟨later, listed, sameToo⟩ := List.mem_map.mp (new here)
    have most := (List.mem_range'_1.mp listed).1
    have := tempName_inj (sameToo.trans (same.trans named))
    omega
  · exact apart number least less (named ▸ same ▸ known)

/-- A dimension comes to the same length where temporaries are in scope that its size does not
mention, and is then one of them. -/
theorem exec_sizeDecl (frames : Frames others) (enough : limit ≤ more) {size : Expr}
    {front : List (Name × Value)} (unmentioned : Unmentioned front (size.uses []))
    {memory after : Memory ω} {length : Nat}
    (sized : size.eval others limit memory = some (.int length, after)) (name : Name) :
    after.locals.length = memory.locals.length ∧
      (sizeDecl context span (size, name)).exec others more (memory.extend front []) =
        some (after.extend ((name, .int length) :: front) []) := by
  obtain ⟨as, evaluated⟩ :=
    size.repeats_eval frames enough unmentioned memory (.int length) after (Nat.le_refl _) sized
  rw [memory.insert_length, ← as, after.insert_length] at evaluated
  exact ⟨as, Stmt.exec_localVar .int name (eval_checkedLength evaluated)⟩

/-- **The lengths are measured once, in order, and are then held in temporaries.** -/
theorem exec_dimensions (frames : Frames others) (enough : limit ≤ more) {allowed : Name → Prop}
    {dims : List (LowerM Expr)} (closes : ∀ dim ∈ dims, Takes dim (Closes allowed))
    {sizes : List (Expr × Name)} (dimensions : Dimensions dims start sizes stop) {base : Nat}
    (least : base ≤ start)
    (apart : ∀ number, base ≤ number → number < stop → ¬allowed (tempName number))
    {front : List (Name × Value)} (taken : Taken base start front) {memory after : Memory ω}
    {lengths : List Nat}
    (measures : Measures others limit (sizes.map (·.1)) memory lengths after) :
    start ≤ stop ∧ after.locals.length = memory.locals.length ∧ ∃ added, Fresh start added ∧
      Stmt.execAll others more (sizes.map (sizeDecl context span)) (memory.extend front []) =
        some (after.extend (added ++ front) []) ∧
      List.Forall₂ ((after.extend (added ++ front) []).Holds stop) (sizes.map (·.2)) lengths := by
  -- The temporaries of the dimensions in front are in scope, and may not be read by those behind.
  induction dimensions generalizing front memory lengths with
  | nil =>
    cases measures
    exact ⟨Nat.le_refl _, rfl, [], List.forall_mem_nil _, rfl, .nil⟩
  | @cons dim rest start count stop size sizes here _ step =>
    rw [List.forall_mem_cons] at closes
    cases measures with
    | @cons _ _ _ middle _ length lengths sized measured =>
    obtain ⟨grown, closed⟩ := closes.1 start size count here
    obtain ⟨further, as, added, fresh, runs, holds⟩ := step closes.2
      (Nat.le_trans least (Nat.le_succ_of_le grown)) apart
      (taken.cons least grown (.int length)) measured
    have unmentioned := unmentioned_of_closes closed
      (fun number bounded less => apart number bounded (by omega)) taken
    obtain ⟨asToo, declared⟩ :=
      exec_sizeDecl frames enough unmentioned sized (tempName count)
    have joined : added ++ [(tempName count, Value.int length)] ++ front =
        added ++ (tempName count, .int length) :: front := List.append_assoc ..
    refine ⟨by omega, as.trans asToo, added ++ [(tempName count, .int length)], ?_, ?_, ?_⟩
    · refine List.forall_mem_append.mpr ⟨fun entry member => ?_,
        List.forall_mem_singleton.mpr ⟨count, grown, rfl⟩⟩
      obtain ⟨number, later, named⟩ := fresh entry member
      exact ⟨number, by omega, named⟩
    · rw [joined, List.map_cons, Stmt.execAll_cons declared]
      exact runs
    · rw [joined]
      refine .cons ⟨count, by omega, rfl, ?_⟩ holds
      rw [after.extend_append, Memory.lookup_fresh fresh (Nat.lt_succ_self count)]
      exact List.lookup_cons_self

/-- **Behind its lengths, an array with several sized dimensions is a new grid of them.** Nothing
else is changed. -/
theorem eval_newArray (frames : Frames others) (enough : limit ≤ more) {allowed : Name → Prop}
    {dims : List (LowerM Expr)} (closes : ∀ dim ∈ dims, Takes dim (Closes allowed))
    {size : Expr × Name} {sizes : List (Expr × Name)} {middle : Nat} {leaf : Ty}
    {level : List Stmt × Expr}
    (dimensions : Dimensions dims start (size :: sizes) middle)
    (levels : (fillLevels span leaf size.2 (sizes.map (·.2))).run middle = .ok (level, stop))
    (apart : ∀ number, start ≤ number → number < stop → ¬allowed (tempName number))
    {memory after : Memory ω} {lengths : List Nat}
    (measures : Measures others limit ((size :: sizes).map (·.1)) memory lengths after)
    (bounded : ∀ length ∈ lengths, length < more) :
    ∃ cells, (Expr.block span ((size :: sizes).map (sizeDecl context span) ++ level.1) level.2).eval
        others more memory = some (.array after.arrays.length, after.extend [] cells) ∧
      IsGrid (after.extend [] cells).arrays after.arrays.length leaf lengths
        (.array after.arrays.length) := by
  have further : middle ≤ stop :=
    (takes_fillLevels span leaf trivial (fun _ _ => trivial) middle level stop levels).1
  obtain ⟨_, as, added, _, runs, holds⟩ := exec_dimensions frames enough closes dimensions
    (Nat.le_refl _)
    (fun number least less => apart number least (Nat.lt_of_lt_of_le less further))
    (List.forall_mem_nil _) measures
  rw [memory.extend_nil, List.append_nil] at runs
  rw [List.append_nil] at holds
  obtain ⟨length, rest, first, behind, rfl⟩ := List.forall₂_cons_left_iff.mp holds
  obtain ⟨inner, before, _, ran, ends⟩ := makes_fillLevels span leaf levels first behind bounded
  have same : (after.extend added []).arrays = after.arrays := List.append_nil _
  rw [same] at ends
  refine ⟨gridCells leaf (length :: rest) after.arrays.length, ?_, isGrid_of_prefix ?_⟩
  · rw [Expr.eval_block ((Stmt.execAll_append runs).trans ran) ends, ← as]
    have left := Memory.leave_append (inner ++ added) after.locals
      (after.arrays ++ gridCells leaf (length :: rest) after.arrays.length) after.world
    rw [List.append_assoc] at left
    unfold Memory.extend
    rw [List.append_nil]
    exact congrArg (fun left => some (_, left)) left
  · show _ <+: (after.arrays ++ _).drop after.arrays.length
    rw [List.drop_left]

end Run

end Lowering

/-! ### Programs -/

/-- **A new array with several sized dimensions is a grid of its lengths.** Let no identifier in the
dimensions, and not the receiver parameter, be called like a temporary that the array takes. The
dimensions are lowered once each, in order, and their checked lengths are declared in front of the
levels, which are made from the temporaries of the lengths alone; the temporary of the array has the
type that is recorded for the expression. Wherever the sizes come to lengths one after the other,
the block comes to a grid of these lengths, made of new arrays, and changes nothing else. -/
theorem new_array_is_grid {units : List SourceUnit} {facts : Facts} {options : LoweringOptions}
    {place : PlacedClass} (counts : place ∈ Program.placed units) (forest : place.unit.IsForest)
    {tag : Source.Tag} {element : Ty} {dims : List Source.Expr} {extra : Nat}
    (inside : .newArray tag element dims extra ∈ place.decl.nodes) (several : 2 ≤ dims.length)
    {context : Context}
    (reads : context = Program.contextAt units facts options place.index place.unit)
    {routine : Routine} {start stop : Nat} {tree : Expr}
    (done : ((Source.Expr.newArray tag element dims extra).lower context routine).run start =
      .ok (tree, stop))
    (apart : ∀ number, start ≤ number → number < stop →
      ¬Source.Means context (Source.Expr.namesOfList dims) (tempName number)) :
    ∃ size sizes middle temp array fill,
      Dimensions (Source.Expr.lowerEach context routine dims) start (size :: sizes) middle ∧
      (fillLevels tag.span (element.arrayOf extra) size.2 (sizes.map (·.2))).run middle =
        .ok (([.localVar (element.arrayOf (dims.length + extra)) temp array, fill],
          .localVar tag.span temp), stop) ∧
      tree = .block tag.span ((size :: sizes).map (sizeDecl context tag.span) ++
        [.localVar (element.arrayOf (dims.length + extra)) temp array, fill])
          (.localVar tag.span temp) ∧
      context.facade.exprType tag.id = some (element.arrayOf (dims.length + extra)) ∧
      ∀ {ω : Type} {others : Expr → Memory ω → Option (Value × Memory ω)}, Frames others →
        ∀ {limit : Nat} {memory after : Memory ω} {lengths : List Nat},
          Measures others limit ((size :: sizes).map (·.1)) memory lengths after →
          ∀ more ≥ limit, (∀ length ∈ lengths, length < more) →
            ∃ root cells, tree.eval others more memory = some (root, after.extend [] cells) ∧
              IsGrid (after.arrays ++ cells) after.arrays.length (element.arrayOf extra) lengths
                root := by
  obtain ⟨_, declared, owned⟩ := Program.mem_placed.mp counts
  obtain ⟨described, _⟩ :=
    Annotations.accounts_ofUnit (.ofUnits units) forest declared owned _ inside
  have closes : ∀ dim ∈ Source.Expr.lowerEach context routine dims,
      Takes dim (Closes (Source.Means context (Source.Expr.namesOfList dims))) :=
    Source.Expr.takes_lowerEach (.inl rfl) dims fun _ => Source.names_of_nodes
  have counted : (Source.Expr.lowerEach context routine dims).length = dims.length := by
    rw [Source.Expr.lowerEach_eq_map, List.length_map]
  obtain ⟨size, sizes, middle, level, dimensions, levels, rfl⟩ :=
    run_lowerNewArray (counted ▸ several) done
  have as := dimensions.length_eq.trans counted
  match sizes with
  | [] => exact absurd several (as ▸ Nat.not_succ_le_self 1)
  | next :: rest =>
    obtain ⟨array, fill, rfl⟩ := level_of_fillLevels levels
    have type : (element.arrayOf extra).arrayOf ((rest.map (·.2)).length + 2) =
        element.arrayOf (dims.length + extra) := by
      rw [Ty.arrayOf_arrayOf, List.length_map, ← as, Nat.add_comm]
      rfl
    refine ⟨size, next :: rest, middle, tempName middle, array, fill, dimensions, type ▸ levels,
      ?_, ?_, ?_⟩
    · rw [← type]
    · rw [reads]
      exact described.1
    · intro ω others frames limit memory after lengths measures more enough bounded
      obtain ⟨cells, evaluated, isGrid⟩ :=
        eval_newArray frames enough closes dimensions levels apart measures bounded
      exact ⟨_, cells, evaluated, isGrid⟩

/-- An array of one array, as long as a parameter says. -/
def Source.Expr.newTable (width : Name) : Source.Expr :=
  .newArray ⟨2, 4, 8⟩ .int [.int ⟨0, 5, 6⟩ 1, .ident ⟨1, 6, 7⟩ width] 0

/-- A class that makes the array. -/
def Source.SourceUnit.table (width : Name) : SourceUnit where
  path := "Grid"
  package := []
  imports := []
  classes := [
    { name := "Grid", parent := none, fields := [], span := ⟨0, 10⟩
      methods := [
        { name := "table", params := [⟨.int, width⟩], ret := .arrayOf .int 2
          modifiers := { isStatic := true }, span := ⟨1, 9⟩
          body := .block ⟨2, 9⟩ [.ret ⟨3, 8⟩ (some (.newTable width))] }] }]
  nodes := #[.int ⟨0, 5, 6⟩ 1, .ident ⟨1, 6, 7⟩ width, .newTable width]
  stmtCount := 2

/-- The static method of the class. -/
def Routine.table : Routine := ⟨"Grid", some ⟨"Grid", 0⟩, .static, false⟩

/-- The lengths of the array: one, and the value of the parameter. -/
def Lowering.tableSizes (width : Name) : List (Expr × Name) :=
  [(.int ⟨5, 6⟩ 1, tempName 0), (.localVar ⟨6, 7⟩ width, tempName 1)]

theorem Lowering.dimensions_table {context : Context} {width : Name}
    (means : context.facade.meaning 1 = some .localVar) :
    Dimensions (Source.Expr.lowerEach context .table [.int ⟨0, 5, 6⟩ 1, .ident ⟨1, 6, 7⟩ width]) 0
      (tableSizes width) 2 := by
  refine .cons rfl (.cons ?_ (.nil _))
  show Except.ok (identifier context ⟨1, 6, 7⟩ width, 1) = _
  unfold identifier
  rw [means]

/-- The parameter holds two. -/
def Memory.ofTable (width : Name) : Memory Unit := ⟨[(width, .int 2)], [], ()⟩

theorem Lowered.measures_table (width : Name) :
    Measures (fun _ _ => none) 0 ((tableSizes width).map (·.1)) (Memory.ofTable width) [1, 2]
      (Memory.ofTable width) := by
  have found : (Memory.ofTable width).lookup width = some (.int 2) := List.lookup_cons_self
  exact .cons rfl (.cons (Expr.eval_localVar found) (.nil _))

/-- An array of one array of two numbers. -/
theorem new_array_is_grid_table : ∃ facts tree root cells,
    (Program.ofUnits [.table "width"]).facts ⟨["Grid"]⟩ {} = .ok facts ∧
    ((Source.Expr.newTable "width").lower (Program.contextAt [.table "width"] facts {} 0
      (.table "width")) .table).run 0 = .ok (tree, 4) ∧
    tree.eval (fun _ _ => none) 3 (Memory.ofTable "width") =
      some (root, (Memory.ofTable "width").extend [] cells) ∧
    IsGrid cells 0 .int [1, 2] root := by
  have succeeds : (((Program.ofUnits [.table "width"]).facts ⟨["Grid"]⟩ {}).toOption.any
      fun facts => (((Source.Expr.newTable "width").lower (Program.contextAt [.table "width"] facts
        {} 0 (.table "width")) .table).run 0).toOption.any fun made => made.2 = 4) = true := by
    decide +kernel
  obtain ⟨facts, computed, succeeds⟩ := exists_of_any_toOption succeeds
  obtain ⟨⟨tree, _⟩, done, counted⟩ := exists_of_any_toOption succeeds
  obtain rfl := of_decide_eq_true counted
  have counts : ⟨0, .table "width", _⟩ ∈ Program.placed [.table "width"] := List.mem_cons_self
  have forest : (Source.SourceUnit.table "width").IsForest := ⟨by decide, by decide⟩
  have means : (Program.facadeAt [.table "width"] 0 (.table "width")).meaning 1 =
      some .localVar := by
    decide +kernel
  have others : ∀ number < 4, tempName number ∉ ["__this", "width"] := by decide +kernel
  obtain ⟨_, _, _, _, _, _, dimensions, _, _, _, runs⟩ := new_array_is_grid counts forest
    (List.mem_of_mem_head? rfl) (Nat.le_refl 2) rfl done
    fun number _ less known => others number less (List.mem_cons.mpr known)
  rw [← (dimensions_table means).unique dimensions] at runs
  have frames : Lowered.Frames fun _ (_ : Memory Unit) => none :=
    fun _ _ _ _ _ _ _ _ _ done => nomatch done
  obtain ⟨root, cells, evaluated, isGrid⟩ :=
    runs frames (Lowered.measures_table "width") 3 (Nat.zero_le 3) (by decide)
  exact ⟨facts, tree, root, cells, computed, done, evaluated, isGrid⟩

/-- A parameter that is called like the temporary of the first length is hidden by it: the lengths
are one and two, but the inner array has one element. -/
theorem temporary_hides_length : ∃ facts tree,
    (Program.ofUnits [.table "__tmp0"]).facts ⟨["Grid"]⟩ {} = .ok facts ∧
    ((Source.Expr.newTable "__tmp0").lower (Program.contextAt [.table "__tmp0"] facts {} 0
      (.table "__tmp0")) .table).run 0 = .ok (tree, 4) ∧
    Dimensions (Source.Expr.lowerEach (Program.contextAt [.table "__tmp0"] facts {} 0
        (.table "__tmp0")) .table [.int ⟨0, 5, 6⟩ 1, .ident ⟨1, 6, 7⟩ "__tmp0"]) 0
      (tableSizes "__tmp0") 2 ∧
    Measures (fun _ _ => none) 0 ((tableSizes "__tmp0").map (·.1)) (Memory.ofTable "__tmp0") [1, 2]
      (Memory.ofTable "__tmp0") ∧
    ∃ root cells, tree.eval (fun _ _ => none) 3 (Memory.ofTable "__tmp0") =
        some (root, (Memory.ofTable "__tmp0").extend [] cells) ∧
      ¬IsGrid cells 0 .int [1, 2] root := by
  have succeeds : (((Program.ofUnits [.table "__tmp0"]).facts ⟨["Grid"]⟩ {}).toOption.any
      fun facts => (((Source.Expr.newTable "__tmp0").lower (Program.contextAt [.table "__tmp0"]
        facts {} 0 (.table "__tmp0")) .table).run 0).toOption.any fun made =>
          made.2 = 4 ∧ (made.1.eval (fun _ _ => none) 3 (Memory.ofTable "__tmp0")).map
            (fun result => (result.1, result.2.locals, result.2.arrays)) =
              some (.array 0, [("__tmp0", .int 2)],
                [⟨.array .int, [.array 1]⟩, ⟨.int, [.int 0]⟩])) = true := by
    decide +kernel
  obtain ⟨facts, computed, succeeds⟩ := exists_of_any_toOption succeeds
  obtain ⟨⟨tree, _⟩, done, found⟩ := exists_of_any_toOption succeeds
  obtain ⟨rfl, evaluated⟩ := of_decide_eq_true found
  obtain ⟨⟨root, locals, arrays, _⟩, evaluated, same⟩ := Option.map_eq_some_iff.mp evaluated
  cases same
  have means : (Program.facadeAt [.table "__tmp0"] 0 (.table "__tmp0")).meaning 1 =
      some .localVar := by
    decide +kernel
  refine ⟨facts, tree, computed, done, dimensions_table means, Lowered.measures_table _, _, _,
    evaluated, fun isGrid => ?_⟩
  obtain ⟨_, cells, leads, _, held, sized, _⟩ := isGrid.full [0] ⟨Nat.one_pos, trivial⟩
  cases leads
  cases held
  cases sized

end ObjectLowering
