/-
**New arrays have checked lengths, and are filled within them.**

The lengths of several dimensions are evaluated and checked in order, before any array is made, and
held in temporaries. The numbers of temporaries only grow, so the arrays and counters of the levels
hide no length that a level further in needs.

* `Scope.HoldsSize`: a temporary below a count holds a checked length.
* `holdsSize_dimensions`: behind the dimensions, the temporary of each holds its length.
* `filled_fillLevels`: the levels are made of the lengths that are held, and each element is stored
  by a counter below the length.
* **`guards_lowerNewArray`**: a new array, whatever its dimensions, is made behind its checks.
-/

import ObjectLowering.Proofs.Checks.GuardedForms
import ObjectLowering.Proofs.Naming.MangledNames

namespace ObjectLowering

open Lowered (Expr Stmt Scope Guard)
open Lowering (tempName)

theorem Lowering.tempName_inj {first second : Nat} (same : tempName first = tempName second) :
    first = second := by
  refine eq_of_toString_eq ?_
  unfold tempName at same
  rw [← String.toList_inj, String.toList_append, String.toList_append] at same
  exact String.toList_inj.mp (List.append_cancel_left same)

/-! ### Temporaries in scope -/

namespace Lowered.Scope

/-- The name is of a temporary below the count that holds a checked length. -/
def HoldsSize (scope : Scope) (count : Nat) (name : Name) : Prop :=
  ∃ number init, number < count ∧ name = tempName number ∧ scope.lookup name = some init ∧
    init.IsCheckedSize

/-- The scopes hold the same in the temporaries below the count. -/
def Agrees (count : Nat) (scope other : Scope) : Prop :=
  ∀ number < count, other.lookup (tempName number) = scope.lookup (tempName number)

variable {scope other : Scope} {count : Nat} {name : Name}

theorem lookup_declare_self (scope : Scope) (type : Ty) (name : Name) (init : Expr) :
    (scope.declare (.localVar type name init)).lookup name = some init := List.lookup_cons_self

theorem lookup_declare_of_ne (scope : Scope) (type : Ty) (init : Expr) {declared name : Name}
    (different : name ≠ declared) :
    (scope.declare (.localVar type declared init)).lookup name = scope.lookup name := by
  show List.lookup name ((declared, init) :: scope) = _
  rw [List.lookup_cons, beq_eq_false_iff_ne.mpr different]

/-- A temporary that is numbered later hides none. -/
theorem agrees_declare (scope : Scope) (type : Ty) (init : Expr) {number : Nat}
    (later : count ≤ number) :
    Agrees count scope (scope.declare (.localVar type (tempName number) init)) := by
  intro below less
  refine lookup_declare_of_ne scope type init fun same => ?_
  exact absurd (Lowering.tempName_inj same) (Nat.ne_of_lt (Nat.lt_of_lt_of_le less later))

theorem Agrees.trans {last : Scope} (first : Agrees count scope other)
    (second : Agrees count other last) : Agrees count scope last := fun number less =>
  (second number less).trans (first number less)

theorem Agrees.mono {more : Nat} (agrees : Agrees more scope other) (fewer : count ≤ more) :
    Agrees count scope other := fun number less =>
  agrees number (Nat.lt_of_lt_of_le less fewer)

theorem HoldsSize.mono {more : Nat} (holds : scope.HoldsSize count name)
    (agrees : Agrees count scope other) (fewer : count ≤ more) : other.HoldsSize more name := by
  obtain ⟨number, init, less, rfl, found, checked⟩ := holds
  exact ⟨number, init, Nat.lt_of_lt_of_le less fewer, rfl, (agrees number less).trans found,
    checked⟩

theorem HoldsSize.sizes (holds : scope.HoldsSize count name) (span : Span) :
    scope.Sizes (.localVar span name) := by
  obtain ⟨_, init, _, _, found, checked⟩ := holds
  exact ⟨init, found, checked⟩

end Lowered.Scope

namespace Lowering

variable {context : Context} {span : Span}

/-! ### Dimensions -/

/-- The declaration of a temporary below the count with a checked length. -/
def IsDimension (context : Context) (count : Nat) (bound : Stmt × Name) : Prop :=
  ∃ number init, number < count ∧ bound = (.localVar .int (tempName number) init, tempName number) ∧
    init.IsCheckedSize ∧ IsGuarded context init

theorem IsDimension.mono {count more : Nat} {bound : Stmt × Name}
    (isDimension : IsDimension context count bound) (fewer : count ≤ more) :
    IsDimension context more bound := by
  obtain ⟨number, init, less, known⟩ := isDimension
  exact ⟨number, init, Nat.lt_of_lt_of_le less fewer, known⟩

theorem checkedLength_eq (checks : context.Checks) (size : Expr) :
    checkedLength context span size = .check span .negativeLength [size] :=
  if_pos checks.arrays

theorem isDimension_bindDimension (checks : context.Checks) {dim : LowerM Expr}
    (guards : Guards context dim) {start stop : Nat} {bound : Stmt × Name}
    (done : (bindDimension context span dim).run start = .ok (bound, stop)) :
    start ≤ stop ∧ IsDimension context stop bound := by
  obtain ⟨size, count, here, there⟩ := run_of_bind done
  obtain ⟨grown, guarded⟩ := guards start size count here
  cases there
  refine ⟨Nat.le_succ_of_le grown, count, checkedLength context span size, Nat.lt_succ_self count,
    rfl, ?_⟩
  rw [checkedLength_eq checks]
  exact ⟨trivial, fun scope => ⟨guarded scope, trivial⟩⟩

theorem isDimension_bindDimensions (checks : context.Checks) {dims : List (LowerM Expr)}
    (each : ∀ dim ∈ dims, Guards context dim) {start stop : Nat} {bounds : List (Stmt × Name)}
    (done : (runEach (dims.map (bindDimension context span))).run start = .ok (bounds, stop)) :
    start ≤ stop ∧ ∀ bound ∈ bounds, IsDimension context stop bound := by
  induction dims generalizing start bounds with
  | nil =>
    cases done
    exact ⟨Nat.le_refl _, fun _ member => nomatch member⟩
  | cons dim rest step =>
    rw [List.forall_mem_cons] at each
    obtain ⟨bound, count, here, more⟩ := run_of_bind done
    obtain ⟨others, last, there, returned⟩ := run_of_bind more
    cases returned
    obtain ⟨grown, isFirst⟩ := isDimension_bindDimension checks each.1 here
    obtain ⟨further, areOthers⟩ := step each.2 there
    exact ⟨Nat.le_trans grown further, List.forall_mem_cons.mpr ⟨isFirst.mono further, areOthers⟩⟩

theorem areGuarded_dimensions {count : Nat} {bounds : List (Stmt × Name)}
    (each : ∀ bound ∈ bounds, IsDimension context count bound) :
    AreGuarded context (bounds.map (·.1)) := by
  induction bounds with
  | nil => exact fun _ => trivial
  | cons bound rest step =>
    rw [List.forall_mem_cons] at each
    obtain ⟨⟨_, init, _, rfl, _, guarded⟩, others⟩ := each
    exact areGuarded_cons guarded (step others)

/-- A length stays held behind another dimension, which holds a checked length too. -/
theorem holdsSize_declare {scope : Scope} {count : Nat} {name : Name} {bound : Stmt × Name}
    (isDimension : IsDimension context count bound)
    (known : name = bound.2 ∨ scope.HoldsSize count name) :
    (scope.declare bound.1).HoldsSize count name := by
  obtain ⟨number, init, less, rfl, checked, _⟩ := isDimension
  by_cases same : name = tempName number
  · rw [same]
    exact ⟨number, init, less, rfl, Scope.lookup_declare_self .., checked⟩
  · obtain ⟨below, value, lessToo, isTemp, found, isChecked⟩ := known.resolve_left same
    exact ⟨below, value, lessToo, isTemp, (Scope.lookup_declare_of_ne _ _ _ same).trans found,
      isChecked⟩

theorem holdsSize_dimensions {count : Nat} {bounds : List (Stmt × Name)}
    (each : ∀ bound ∈ bounds, IsDimension context count bound) {scope : Scope} {name : Name}
    (known : name ∈ bounds.map (·.2) ∨ scope.HoldsSize count name) :
    (scope.after (bounds.map (·.1))).HoldsSize count name := by
  induction bounds generalizing scope with
  | nil => exact known.resolve_left List.not_mem_nil
  | cons bound rest step =>
    rw [List.forall_mem_cons] at each
    refine step each.2 ?_
    rw [List.map_cons, List.mem_cons, or_assoc] at known
    rcases known with own | inside | held
    · exact .inr (holdsSize_declare each.1 (.inl own))
    · exact .inl inside
    · exact .inr (holdsSize_declare each.1 (.inr held))

/-! ### Levels -/

/-- The statements and the array of a level are guarded, and hide none of the temporaries that were
there. -/
structure Filled (context : Context) (scope : Scope) (count : Nat) (level : List Stmt × Expr) :
    Prop where
  stmts : Stmt.AllGuarded context.options.selfParam scope .none level.1
  value : level.2.Guarded context.options.selfParam (scope.after level.1) .none
  agrees : scope.Agrees count (scope.after level.1)

/-- A loop over a new array stores within its length. -/
theorem guarded_fillLoop {scope : Scope} {array counter size : Name} {element : Ty}
    {stmts : List Stmt} {value : Expr}
    (made : ((scope.declare (.localVar .int counter (.int span 0))).after stmts).lookup array =
      some (.arrayAlloc span element (.localVar span size)))
    (before : Stmt.AllGuarded context.options.selfParam
      (scope.declare (.localVar .int counter (.int span 0))) .none stmts)
    (stored : value.Guarded context.options.selfParam
      ((scope.declare (.localVar .int counter (.int span 0))).after stmts) .none) :
    (fillLoop span array counter size (.localVar .int counter (.int span 0)) stmts value).Guarded
      context.options.selfParam scope .none := by
  have head : Guard.ofLoop [.localVar .int counter (.int span 0)]
      (.binary span .less (.localVar span counter) (.localVar span size))
      [.unary span .postIncrement (.localVar span counter)] = .fill counter size :=
    if_pos ⟨rfl, rfl⟩
  refine ⟨trivial, ⟨trivial, trivial⟩, ⟨trivial, trivial⟩, Stmt.allGuarded_concat.mpr ⟨before, ?_⟩⟩
  rw [head]
  exact ⟨stored, .inr (.inr ⟨counter, size, rfl, rfl, span, element, span, made⟩)⟩

/-- **The levels of an array are filled within the lengths that are held.** -/
theorem filled_fillLevels (leaf : Ty) {names : List Name} {size : Name} {start stop : Nat}
    {level : List Stmt × Expr}
    (done : (fillLevels span leaf size names).run start = .ok (level, stop)) {scope : Scope}
    (outer : scope.HoldsSize start size) (inner : ∀ name ∈ names, scope.HoldsSize start name) :
    start ≤ stop ∧ Filled context scope start level := by
  induction names generalizing size start level scope with
  | nil =>
    cases done
    exact ⟨Nat.le_refl _, trivial, ⟨outer.sizes span, trivial⟩, fun _ _ => rfl⟩
  | cons next rest step =>
    rw [List.forall_mem_cons] at inner
    -- The array and its counter take the next two temporaries.
    let element := leaf.arrayOf (rest.length + 1)
    let inArray := scope.declare
      (.localVar (.array element) (tempName start) (.arrayAlloc span element (.localVar span size)))
    let inLoop := inArray.declare (.localVar .int (tempName (start + 1)) (.int span 0))
    have keepsArray : scope.Agrees start inArray := Scope.agrees_declare _ _ _ (Nat.le_refl _)
    have keepsCounter : inArray.Agrees (start + 1) inLoop :=
      Scope.agrees_declare _ _ _ (Nat.le_refl _)
    have keeps := keepsArray.trans (keepsCounter.mono (Nat.le_succ start))
    obtain ⟨_, _, bindsArray, done⟩ := run_of_bind done
    cases bindsArray
    obtain ⟨_, _, bindsCounter, done⟩ := run_of_bind done
    cases bindsCounter
    obtain ⟨⟨stmts, value⟩, count, here, returned⟩ := run_of_bind done
    cases returned
    have two : start ≤ start + 2 := Nat.le_add_right _ _
    obtain ⟨grown, filled⟩ := step here (inner.1.mono keeps two) fun name member =>
      (inner.2 name member).mono keeps two
    have made : (inLoop.after stmts).lookup (tempName start) =
        some (.arrayAlloc span element (.localVar span size)) := by
      rw [filled.agrees start (by omega), keepsCounter start (Nat.lt_succ_self start)]
      exact Scope.lookup_declare_self ..
    refine ⟨Nat.le_trans two grown, ?_, trivial, keepsArray⟩
    exact ⟨⟨outer.sizes span, trivial⟩, guarded_fillLoop made filled.stmts filled.value⟩

/-- **A new array is made behind its checks**, whatever its dimensions. -/
theorem guards_lowerNewArray (checks : context.Checks) (span : Span) (element : Ty) (extra : Nat)
    {dims : List (LowerM Expr)} (each : ∀ dim ∈ dims, Guards context dim) :
    Guards context (lowerNewArray context span element dims extra) := by
  unfold lowerNewArray
  dsimp only
  split
  · exact .fail
  · rename_i dim
    refine (each dim List.mem_cons_self).bind fun size guarded => .pure fun scope => ?_
    rw [checkedLength_eq checks]
    exact ⟨trivial, guarded scope, trivial⟩
  · rename_i dim next rest
    rw [List.forall_mem_cons] at each
    intro start value stop done
    obtain ⟨first, _, here, done⟩ := run_of_bind done
    obtain ⟨bounds, count, others, done⟩ := run_of_bind done
    obtain ⟨⟨stmts, array⟩, last, levels, done⟩ := run_of_bind done
    obtain ⟨grown, isFirst⟩ := isDimension_bindDimension checks each.1 here
    obtain ⟨further, areOthers⟩ := isDimension_bindDimensions checks each.2 others
    have all : ∀ bound ∈ first :: bounds, IsDimension context count bound :=
      List.forall_mem_cons.mpr ⟨isFirst.mono further, areOthers⟩
    have held (scope : Scope) (name : Name) (member : name ∈ (first :: bounds).map (·.2)) :
        (scope.after ((first :: bounds).map (·.1))).HoldsSize count name :=
      holdsSize_dimensions all (.inl member)
    have filled (scope : Scope) : count ≤ last ∧
        Filled context (scope.after ((first :: bounds).map (·.1))) count (stmts, array) :=
      filled_fillLevels (element.arrayOf extra) levels (held scope first.2 List.mem_cons_self)
        fun name member => held scope name (List.mem_cons_of_mem _ member)
    have before : AreGuarded context (first.1 :: bounds.map (·.1) ++ stmts) := fun scope =>
      Stmt.allGuarded_append.mpr ⟨areGuarded_dimensions all scope, (filled scope).2.stmts⟩
    obtain ⟨more, guarded⟩ := guards_blockExpr span before (fun scope => by
      rw [Scope.after_append]
      exact Expr.Guarded.mono _ (filled scope).2.value) last value stop done
    exact ⟨by have := (filled []).1; omega, guarded⟩

end Lowering

end ObjectLowering
