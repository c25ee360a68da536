/-
**The operands of an array access stand fast.**

An access of an element evaluates the array, then the position and, if it stores one, a value. The
array and the position are used again in the check, so what is evaluated later must not change them:
each is a literal, the receiver or a temporary, unless it is evaluated again at each use.

* `Stands` lists the trees of a value that stands fast.
* `Prepared` says when an operand stands fast and when it is evaluated again.
* `ensures_slot_access`, `ensures_store_access`: what an access prepares.
* **`element_operands`**: the array stands fast before an impure position, and both operands do
  before an impure stored value. But a store asks only about the value: if that may be evaluated
  again, so is the array, whatever the position does.
-/

import ObjectLowering.Proofs.Lowering.Ensures

namespace ObjectLowering

namespace Lowering

open Lowered (CheckKind Expr Stmt)

/-! ### Values that stand fast -/

/-- Some run of the step has this result. -/
def Gives {α : Type} (step : LowerM α) (value : α) : Prop :=
  ∃ start stop, step.run start = .ok (value, stop)

theorem ensures_gives {α : Type} (step : LowerM α) : Ensures step (Gives step) :=
  fun start _ stop done => ⟨start, stop, done⟩

/-- A tree that stands for a value behind the given statements, and that nothing later changes: a
literal, the receiver, or a temporary that the statements declare. -/
inductive Stands (context : Context) (span : Span) (part : Part) : List Stmt → Expr → Prop
  | literal {shown : Expr} (constant : part.expr.isConstant = true)
    (given : Gives part.lower shown) : Stands context span part [] shown
  | receiver (own : part.expr.isReceiver = true) :
    Stands context span part [] (selfExpr context span)
  | temp {type : Ty} {name : Name} {value : Expr} (given : Gives part.lower value) :
    Stands context span part [.localVar type name value] (.localVar span name)

/-- The uses of a value behind the statements that prepare it: it is evaluated again at each, or it
stands fast at each. -/
structure Prepared (context : Context) (span : Span) (part : Part) (again : Bool)
    (decl : List Stmt) (uses : List Expr) : Prop where
  reread : again = true → decl = [] ∧ ∀ shown ∈ uses, Gives part.lower shown
  stands : again = false → ∀ shown ∈ uses, Stands context span part decl shown

variable {context : Context} {span : Span} {part array position value : Part}

theorem Fixed.stands {decl : List Stmt} {operand : Operand}
    (fixed : Fixed part (Gives part.lower) decl operand) {shown : Expr}
    (used : Gives (operand.use context span) shown) : Stands context span part decl shown := by
  cases fixed with
  | literal constant => exact .literal constant used
  | receiver own =>
    obtain ⟨_, _, done⟩ := used
    cases done
    exact .receiver own
  | temp given =>
    obtain ⟨_, _, done⟩ := used
    cases done
    exact .temp given

theorem prepared_of_uses {again : Bool} {prepared : List Stmt × Operand}
    (shape : if again then prepared = ([], .reread part.lower)
      else Fixed part (Gives part.lower) prepared.1 prepared.2)
    {uses : List Expr} (used : ∀ shown ∈ uses, Gives (prepared.2.use context span) shown) :
    Prepared context span part again prepared.1 uses := by
  cases again with
  | true =>
    rw [if_pos rfl] at shape
    subst shape
    exact ⟨fun _ => ⟨rfl, used⟩, nofun⟩
  | false =>
    rw [if_neg Bool.false_ne_true] at shape
    exact ⟨nofun, fun _ shown inside => shape.stands (used shown inside)⟩

/-- Without a declaration only a literal or the receiver stands fast. -/
theorem Stands.isReread_eq_false {shown : Expr} (stands : Stands context span part [] shown) :
    isReread part.expr = false := by
  unfold isReread
  cases stands with
  | literal constant => simp [constant]
  | receiver own => simp [own]

/-- The uses stand fast exactly if the value is not evaluated again at each. -/
theorem Prepared.stands_iff {later : Bool} {decl : List Stmt} {first : Expr} {others : List Expr}
    (prepared : Prepared context span part (later && isReread part.expr) decl (first :: others)) :
    (∀ shown ∈ first :: others, Stands context span part decl shown) ↔
      later = false ∨ isReread part.expr = false := by
  rw [← Bool.and_eq_false_iff]
  refine ⟨fun stands => ?_, prepared.stands⟩
  by_contra again
  rw [Bool.not_eq_false] at again
  obtain ⟨rfl, _⟩ := prepared.reread again
  have fixed := (stands first List.mem_cons_self).isReread_eq_false
  rw [fixed, Bool.and_false] at again
  cases again

/-! ### Accesses -/

/-- An access of an element: the statements that prepare the array and the position, then both as
they stand in the check, if there is one, and in the element. -/
structure Access where
  arrayDecl : List Stmt
  positionDecl : List Stmt
  checked : Option (Expr × Expr)
  array : Expr
  position : Expr

namespace Access

/-- The array at each of its uses. -/
def arrays (access : Access) : List Expr := access.array :: (access.checked.map (·.1)).toList

/-- The position at each of its uses. -/
def positions (access : Access) : List Expr := access.position :: (access.checked.map (·.2)).toList

/-- The element. -/
def element (access : Access) (span : Span) : Expr := .index span access.array access.position

/-- The check of the position, and of whatever else it takes. -/
def check (access : Access) (span : Span) (kind : CheckKind) (others : List Expr) : List Stmt :=
  (access.checked.map fun (array, position) =>
    checkStmt span kind (array :: position :: others)).toList

/-- The array is a literal, the receiver or a declared temporary at each use. -/
def ArrayStands (access : Access) (context : Context) (span : Span) (array : Part) : Prop :=
  ∀ shown ∈ access.arrays, Stands context span array access.arrayDecl shown

/-- The position is a literal, the receiver or a declared temporary at each use. -/
def PositionStands (access : Access) (context : Context) (span : Span) (position : Part) : Prop :=
  ∀ shown ∈ access.positions, Stands context span position access.positionDecl shown

/-- What the operands of a store are before what runs behind them: the array stands fast before a
position or a value that may have an effect, and the position before such a value. -/
structure InOrder (access : Access) (context : Context) (span : Span) (array position : Part)
    (value : Source.Expr) : Prop where
  array : position.expr.isPure = false ∨ value.isPure = false →
    access.ArrayStands context span array
  position : value.isPure = false → access.PositionStands context span position

/-- The access stands in the tree for an element that is not stored, behind its check. Without a
check the position is evaluated in its place. -/
structure Loads (access : Access) (context : Context) (span : Span) (array position : Part)
    (result lowered : Expr) : Prop where
  shape : lowered = behind span
    (access.arrayDecl ++ access.positionDecl ++ access.check span .arrayAccess []) result
  checks : access.checked.isSome = context.options.arrayChecks
  reads : Prepared context span array (position.expr.isPure && isReread array.expr)
    access.arrayDecl access.arrays
  places : Prepared context span position (!context.options.arrayChecks || isReread position.expr)
    access.positionDecl access.positions

/-- The access stands in the tree for an element that is stored. The value is evaluated behind both
operands: into a temporary if there is a check, else in its place. -/
structure Stores (access : Access) (context : Context) (span : Span) (array position value : Part)
    (lowered : Expr) : Prop where
  shape : ∃ late stored, lowered = behind span
    (access.arrayDecl ++ access.positionDecl ++ late) (.assign span (access.element span) stored) ∧
    if context.options.arrayChecks then ∃ type name given, Gives value.lower given ∧
      late = .localVar type name given :: access.check span .arrayStore [.localVar span name] ∧
      stored = .localVar span name
    else late = [] ∧ Gives value.lower stored
  checks : access.checked.isSome = context.options.arrayChecks
  reads : Prepared context span array (value.expr.isPure && isReread array.expr)
    access.arrayDecl access.arrays
  places : Prepared context span position (value.expr.isPure && isReread position.expr)
    access.positionDecl access.positions

end Access

theorem ensures_slot_access (context : Context) (span : Span) (array position : Part) :
    Ensures (slot context span array position) fun element => ∃ access : Access,
      element.2 = access.element span ∧
      ∀ result, access.Loads context span array position result (behind span element.1 result) := by
  unfold slot
  refine (ensures_operandBefore context .object (ensures_gives array.lower) position.expr).bind ?_
  rintro ⟨arrayDecl, arrayUse⟩ arrayShape
  dsimp only
  by_cases checks : context.options.arrayChecks = true
  · rw [if_neg (by simp [checks])]
    refine (ensures_operand context .int (ensures_gives position.lower)).bind ?_
    rintro ⟨positionDecl, positionUse⟩ positionShape
    refine (ensures_gives (arrayUse.use context span)).bind ?_
    intro checkedArray arrayChecked
    refine (ensures_gives (positionUse.use context span)).bind ?_
    intro checkedPosition positionChecked
    refine (ensures_gives (arrayUse.use context span)).bind ?_
    intro arrayExpr arrayUsed
    refine (ensures_gives (positionUse.use context span)).bind ?_
    intro positionExpr positionUsed
    refine .pure ⟨⟨arrayDecl, positionDecl, some (checkedArray, checkedPosition), arrayExpr,
      positionExpr⟩, rfl, fun result => ⟨rfl, checks.symm, ?_, ?_⟩⟩
    · exact prepared_of_uses arrayShape
        (List.forall_mem_cons.mpr ⟨arrayUsed, List.forall_mem_singleton.mpr arrayChecked⟩)
    · rw [checks, Bool.not_true, Bool.false_or]
      exact prepared_of_uses positionShape
        (List.forall_mem_cons.mpr ⟨positionUsed, List.forall_mem_singleton.mpr positionChecked⟩)
  · rw [Bool.not_eq_true] at checks
    rw [if_pos (by simp [checks])]
    refine (ensures_gives (arrayUse.use context span)).bind ?_
    intro arrayExpr arrayUsed
    refine (ensures_gives position.lower).bind ?_
    intro positionExpr positionGiven
    refine .pure ⟨⟨arrayDecl, [], none, arrayExpr, positionExpr⟩, rfl, fun result =>
      ⟨?_, checks.symm, ?_, ?_⟩⟩
    · show _ = behind span (arrayDecl ++ [] ++ []) result
      rw [List.append_nil, List.append_nil]
    · exact prepared_of_uses arrayShape (List.forall_mem_singleton.mpr arrayUsed)
    · rw [checks]
      exact ⟨fun _ => ⟨rfl, List.forall_mem_singleton.mpr positionGiven⟩, nofun⟩

/-- An element that is not stored has its array fixed before a position with an effect. -/
theorem ensures_load_access (context : Context) (span : Span) (array position : Part)
    (wrap : Expr → Expr) :
    Ensures (slot context span array position >>= fun element =>
      blockExpr span element.1 (wrap element.2)) fun lowered => ∃ access : Access,
        access.Loads context span array position (wrap (access.element span)) lowered ∧
        (position.expr.isPure = false → access.ArrayStands context span array) := by
  refine (ensures_slot_access context span array position).bind ?_
  rintro element ⟨access, same, loads⟩
  refine (ensures_blockExpr span element.1 _).mono ?_
  intro lowered shape
  have here := loads (wrap element.2)
  rw [← shape, same] at here
  exact ⟨access, here, fun effect => here.reads.stands_iff.mpr (.inl effect)⟩

theorem ensures_store_access (context : Context) (span : Span) (array position value : Part) :
    Ensures (store context span array position value) fun lowered => ∃ access : Access,
      access.Stores context span array position value lowered := by
  unfold store
  refine (ensures_operandBefore context _ (ensures_gives array.lower) value.expr).bind ?_
  rintro ⟨arrayDecl, arrayUse⟩ arrayShape
  refine (ensures_operandBefore context .int (ensures_gives position.lower) value.expr).bind ?_
  rintro ⟨positionDecl, positionUse⟩ positionShape
  dsimp only
  by_cases checks : context.options.arrayChecks = true
  · rw [if_neg (by simp [checks])]
    refine (ensures_gives value.lower).bind ?_
    intro stored storedGiven
    refine (ensures_bindTemp _ stored).bind ?_
    rintro ⟨decl, temp⟩ declared
    refine (ensures_gives (arrayUse.use context span)).bind ?_
    intro checkedArray arrayChecked
    refine (ensures_gives (positionUse.use context span)).bind ?_
    intro checkedPosition positionChecked
    refine (ensures_gives (arrayUse.use context span)).bind ?_
    intro arrayExpr arrayUsed
    refine (ensures_gives (positionUse.use context span)).bind ?_
    intro positionExpr positionUsed
    refine (ensures_blockExpr span _ _).mono ?_
    intro lowered shape
    refine ⟨⟨arrayDecl, positionDecl, some (checkedArray, checkedPosition), arrayExpr,
      positionExpr⟩, ⟨_, _, shape, ?_⟩, checks.symm, ?_, ?_⟩
    · rw [if_pos checks]
      dsimp only at declared
      rw [declared]
      exact ⟨_, temp, stored, storedGiven, rfl, rfl⟩
    · exact prepared_of_uses arrayShape
        (List.forall_mem_cons.mpr ⟨arrayUsed, List.forall_mem_singleton.mpr arrayChecked⟩)
    · exact prepared_of_uses positionShape
        (List.forall_mem_cons.mpr ⟨positionUsed, List.forall_mem_singleton.mpr positionChecked⟩)
  · rw [Bool.not_eq_true] at checks
    rw [if_pos (by simp [checks])]
    refine (ensures_gives (arrayUse.use context span)).bind ?_
    intro arrayExpr arrayUsed
    refine (ensures_gives (positionUse.use context span)).bind ?_
    intro positionExpr positionUsed
    refine (ensures_gives value.lower).bind ?_
    intro stored storedGiven
    refine (ensures_blockExpr span _ _).mono ?_
    intro lowered shape
    refine ⟨⟨arrayDecl, positionDecl, none, arrayExpr, positionExpr⟩, ⟨[], stored, ?_, ?_⟩,
      checks.symm, ?_, ?_⟩
    · rw [shape, List.append_nil]
      rfl
    · rw [if_neg (by simp [checks])]
      exact ⟨rfl, storedGiven⟩
    · exact prepared_of_uses arrayShape (List.forall_mem_singleton.mpr arrayUsed)
    · exact prepared_of_uses positionShape (List.forall_mem_singleton.mpr positionUsed)

/-- The operands of a store are in order exactly if the value has an effect, or the position has
none, or the array is not evaluated again anyway. -/
theorem Access.Stores.inOrder_iff {access : Access} {lowered : Expr}
    (stores : access.Stores context span array position value lowered) :
    access.InOrder context span array position value.expr ↔
      position.expr.isPure = true ∨ value.expr.isPure = false ∨ isReread array.expr = false := by
  have reads := stores.reads.stands_iff
  have places := stores.places.stands_iff
  refine ⟨fun ordered => ?_, fun known => ⟨fun later => reads.mpr ?_, fun later => ?_⟩⟩
  · cases pure : position.expr.isPure with
    | true => exact .inl rfl
    | false => exact .inr (reads.mp (ordered.array (.inl pure)))
  · rcases known with pure | known
    · rw [pure] at later
      exact .inl (later.resolve_left Bool.true_eq_false.mp)
    · exact known
  · exact places.mpr (.inl later)

end Lowering

open Lowering

/-- A source expression with its lowering. -/
def Source.Expr.part (expr : Source.Expr) (context : Context) (routine : Routine) : Part :=
  ⟨expr, expr.lower context routine⟩

/-- **The operands of an element stand fast before what runs later**, with checks and without. An
element that is read or updated fixes the array before a position with an effect. One that is
stored fixes both operands before a value with an effect; but before a position with an effect it
fixes the array only if the value has one as well, or the array is no value to evaluate again. -/
theorem element_operands (context : Context) (routine : Routine) :
    (∀ tag array position, Ensures ((Source.Expr.index tag array position).lower context routine)
      fun lowered => ∃ access : Access,
        access.Loads context tag.span (array.part context routine) (position.part context routine)
          (access.element tag.span) lowered ∧
        (position.isPure = false →
          access.ArrayStands context tag.span (array.part context routine))) ∧
    (∀ tag op inner array position, op.mutates = true →
      Ensures ((Source.Expr.unary tag op (.index inner array position)).lower context routine)
        fun lowered => ∃ access : Access,
          access.Loads context tag.span (array.part context routine)
            (position.part context routine) (.unary tag.span op (access.element tag.span)) lowered ∧
          (position.isPure = false →
            access.ArrayStands context tag.span (array.part context routine))) ∧
    ∀ tag inner array position value,
      Ensures ((Source.Expr.assign tag (.index inner array position) value).lower context routine)
        fun lowered => ∃ access : Access,
          access.Stores context tag.span (array.part context routine)
            (position.part context routine) (value.part context routine) lowered ∧
          (access.InOrder context tag.span (array.part context routine)
            (position.part context routine) value ↔
            position.isPure = true ∨ value.isPure = false ∨ isReread array = false) := by
  refine ⟨fun tag array position => ?_, fun tag op inner array position mutates => ?_,
    fun tag inner array position value => ?_⟩
  · exact ensures_load_access context tag.span _ _ id
  · rw [Source.Expr.lower]
    · exact ensures_load_access context tag.span _ _ (.unary tag.span op)
    · exact mutates
  · refine (ensures_store_access context tag.span _ _ _).mono ?_
    rintro lowered ⟨access, stores⟩
    exact ⟨access, stores, stores.inOrder_iff⟩

/-- An array in a field of the receiver. -/
def Source.Expr.ownItems : Source.Expr := .field ⟨6, 12, 13⟩ (.this ⟨5, 11, 12⟩) "items"

/-- A position that a call gives. -/
def Source.Expr.nextPosition : Source.Expr := .call ⟨7, 13, 14⟩ none "next" []

/-- A store of a literal there. -/
def Source.Expr.storeNext : Source.Expr :=
  .assign ⟨10, 16, 17⟩ (.index ⟨8, 14, 15⟩ .ownItems .nextPosition) (.int ⟨9, 15, 16⟩ 1)

/-- A class with an array, a method that loses the array and gives a position, and a method that
stores there. -/
def Source.SourceUnit.slots : Source.SourceUnit where
  path := "Slots"
  package := []
  imports := []
  classes := [
    { name := "Slots", parent := none, span := ⟨0, 1⟩
      fields := [
        { name := "items", type := .array .int, init := none, modifiers := {}, span := ⟨1, 2⟩ }]
      methods := [
        { name := "next", params := [], ret := .int, modifiers := {}, span := ⟨10, 11⟩
          body := .block ⟨9, 10⟩ [
            .eval ⟨6, 7⟩ (.assign ⟨3, 5, 6⟩ (.field ⟨1, 3, 4⟩ (.this ⟨0, 2, 3⟩) "items")
              (.null ⟨2, 4, 5⟩)),
            .ret ⟨8, 9⟩ (some (.int ⟨4, 7, 8⟩ 0))] },
        { name := "put", params := [], ret := .void, modifiers := {}, span := ⟨19, 20⟩
          body := .block ⟨18, 19⟩ [.eval ⟨17, 18⟩ .storeNext] }] }]
  nodes := #[.this ⟨0, 2, 3⟩, .field ⟨1, 3, 4⟩ (.this ⟨0, 2, 3⟩) "items", .null ⟨2, 4, 5⟩,
    .assign ⟨3, 5, 6⟩ (.field ⟨1, 3, 4⟩ (.this ⟨0, 2, 3⟩) "items") (.null ⟨2, 4, 5⟩),
    .int ⟨4, 7, 8⟩ 0, .this ⟨5, 11, 12⟩, .ownItems, .nextPosition,
    .index ⟨8, 14, 15⟩ .ownItems .nextPosition, .int ⟨9, 15, 16⟩ 1, .storeNext]
  stmtCount := 5

/-- The method that stores, as it is lowered. -/
def Routine.put : Routine := ⟨"Slots", some ⟨"Slots", 1⟩, .instanceMethod, false⟩

/-- An update there fixes the array first. -/
theorem update_fixes_array :
    ∃ context lowered stop, ∃ access : Access,
      (Program.ofUnits [.slots]).context? ⟨[]⟩ {} 0 = some context ∧
      ((Source.Expr.unary ⟨10, 16, 17⟩ .postIncrement
        (.index ⟨8, 14, 15⟩ .ownItems .nextPosition)).lower context .put).run 0 =
          .ok (lowered, stop) ∧
      access.ArrayStands context ⟨16, 17⟩ (Source.Expr.ownItems.part context .put) := by
  have runs : ((Program.ofUnits [.slots]).context? ⟨[]⟩ {} 0).map (fun context =>
      ((Source.Expr.unary ⟨10, 16, 17⟩ .postIncrement
        (.index ⟨8, 14, 15⟩ .ownItems .nextPosition)).lower context .put).run 0) =
      some (.ok (.block ⟨16, 17⟩ [
        .localVar (.array .int) "__tmp0" (.field ⟨12, 13⟩ (.localVar ⟨11, 12⟩ "__this") "items"),
        .localVar .int "__tmp1" (.virtualCall ⟨13, 14⟩ (.localVar ⟨13, 14⟩ "__this") "next_0"
          [.localVar ⟨13, 14⟩ "__this"]),
        checkStmt ⟨16, 17⟩ .arrayAccess
          [.localVar ⟨16, 17⟩ "__tmp0", .localVar ⟨16, 17⟩ "__tmp1"]]
        (.unary ⟨16, 17⟩ .postIncrement
          (.index ⟨16, 17⟩ (.localVar ⟨16, 17⟩ "__tmp0") (.localVar ⟨16, 17⟩ "__tmp1"))), 2)) := by
    rfl
  obtain ⟨context, known, done⟩ := Option.map_eq_some_iff.mp runs
  obtain ⟨access, _, stands⟩ :=
    (element_operands context _).2.1 _ .postIncrement _ _ _ rfl 0 _ _ done
  exact ⟨context, _, _, access, known, done, stands rfl⟩

/-- The store reads the array again behind the call. -/
theorem store_reads_array_late :
    Source.Expr.storeNext ∈ Source.SourceUnit.slots.classes.flatMap (·.nodes) ∧
    Source.Expr.nextPosition.isPure = false ∧
    ∃ context lowered stop, (Program.ofUnits [.slots]).context? ⟨[]⟩ {} 0 = some context ∧
      (Source.Expr.storeNext.lower context .put).run 0 = .ok (lowered, stop) ∧
      ∀ (access : Access) (value : Part), access.Stores context ⟨16, 17⟩
        (Source.Expr.ownItems.part context .put) (Source.Expr.nextPosition.part context .put)
        value lowered →
        ¬access.ArrayStands context ⟨16, 17⟩ (Source.Expr.ownItems.part context .put) := by
  have runs : ((Program.ofUnits [.slots]).context? ⟨[]⟩ {} 0).map (fun context =>
      (Source.Expr.storeNext.lower context .put).run 0) =
      some (.ok (.block ⟨16, 17⟩ [
        .localVar .int "__tmp0" (.virtualCall ⟨13, 14⟩ (.localVar ⟨13, 14⟩ "__this") "next_0"
          [.localVar ⟨13, 14⟩ "__this"]),
        .localVar .int "__tmp1" (.int ⟨15, 16⟩ 1),
        checkStmt ⟨16, 17⟩ .arrayStore
          [.field ⟨12, 13⟩ (.localVar ⟨11, 12⟩ "__this") "items", .localVar ⟨16, 17⟩ "__tmp0",
            .localVar ⟨16, 17⟩ "__tmp1"]]
        (.assign ⟨16, 17⟩
          (.index ⟨16, 17⟩ (.field ⟨12, 13⟩ (.localVar ⟨11, 12⟩ "__this") "items")
            (.localVar ⟨16, 17⟩ "__tmp0"))
          (.localVar ⟨16, 17⟩ "__tmp1")), 2)) := by
    rfl
  obtain ⟨context, known, done⟩ := Option.map_eq_some_iff.mp runs
  refine ⟨?_, rfl, context, _, _, known, done, fun access value stores stands => ?_⟩
  · exact List.mem_of_getElem? (i := 5) rfl
  · obtain ⟨late, stored, shape, _⟩ := stores.shape
    unfold behind at shape
    split at shape
    · cases shape
    · injection shape with _ _ element
      injection element with _ target _
      injection target with _ array _
      have use := stands access.array List.mem_cons_self
      rw [← array] at use
      generalize access.arrayDecl = decl at use
      cases use with
      | literal constant => cases constant

end ObjectLowering
