/-
**Which bodies lowering makes longer.**

A construction routine that does not hand the receiver on begins with the parent's routine and the
values of the class's own fields, and a construction routine or an entry point that does not end in
a return gets one. These statements stand in one list with those of the source.

* `Lowering.BodyHasRoom`: a body has room for what stands in front of it and behind it.
* `Lowering.ConstructionHasRoom`, `Lowering.ClassHasRoom`: so have the routines of a class, and its
  expressions have room as well.
* `Lowering.ShortReads`: the lists that lowering a class reads are short.
* **`Lowering.fits_lowerClass`**, **`Lowering.room_of_lowerClass`**: a class with room is lowered
  without a list that is too long, and a class that was lowered had room.
-/

import ObjectLowering.Proofs.Construction.RoutineReturns
import ObjectLowering.Proofs.Limits.ShortSources
import ObjectLowering.Proofs.Temporaries.KeptNames

namespace ObjectLowering

open Source (ClassDecl MethodDecl ShortLists)

namespace Lowering

open Lowered (Expr Stmt)

variable {context : Context} {routine : Routine} {span : Span}

/-! ### Conditions -/

/-- How many returns are appended to the statements of a body. -/
def addedReturns (mode : Mode) (stmts : List Source.Stmt) : Nat :=
  ((mode == .constructor || mode == .entry) && !Source.Stmt.endInReturn stmts).toNat

/-- The statements have room for those in front of them and for a return behind them, and all that
lowering reaches in them has room. -/
structure BodyHasRoom (context : Context) (mode : Mode) (inFront : Nat) (stmts : List Source.Stmt) :
    Prop where
  nodes : AllHaveRoom context (Source.Stmt.reachedOfList context stmts)
  length : RoomFor stmts.length (inFront + addedReturns mode stmts)

/-- The values that a class gives to its own fields have room. -/
def ValuesHaveRoom (context : Context) (className : Name) : Prop :=
  ∀ value ∈ fieldValues context.facts className, AllHaveRoom context (value.reached context)

/-- How many statements a construction routine that hands the receiver on, or does not, starts
with: the parent's routine and an assignment for each value. -/
def startLength (context : Context) (className : Name) (chained : Bool) : Nat :=
  if chained then 0 else (fieldValues context.facts className).length + 1

/-- The body of a construction routine has room, and the values in front of it have. -/
structure ConstructionHasRoom (context : Context) (decl : ClassDecl)
    (source : Option (MethodDecl × Nat)) : Prop where
  values : (routineOf decl source).chained = false → ValuesHaveRoom context decl.name
  body : BodyHasRoom context .constructor
    (startLength context decl.name (routineOf decl source).chained) (stmtsOf source)

/-- The routines and the static fields of a class have room. -/
structure ClassHasRoom (context : Context) (decl : ClassDecl) : Prop where
  constructions : ∀ source ∈ constructions decl, ConstructionHasRoom context decl source
  methods : ∀ method ∈ decl.methods, method.isConstructorOf decl.name = false →
    BodyHasRoom context (modeOf context method) 0 (bodyStmts (some method.body))
  statics : ∀ init ∈ context.facts.chains.statics decl.name, ∀ value, init.value = some value →
    AllHaveRoom context (value.reached context)

/-- The lists that lowering a class reads are within the limit. -/
structure ShortReads (context : Context) (decl : ClassDecl) : Prop where
  declared : decl.Short
  values : ∀ value ∈ fieldValues context.facts decl.name, ShortLists value.nodes
  statics : ∀ init ∈ context.facts.chains.statics decl.name, ∀ value, init.value = some value →
    ShortLists value.nodes

/-- For a list that is short, room for what is added is room for both. -/
theorem roomFor_iff {length added : Nat} (short : length ≤ maxListLength) :
    RoomFor length added ↔ length + added ≤ maxListLength := by
  unfold RoomFor
  rcases Nat.eq_zero_or_pos added with rfl | some
  · exact iff_of_true (fun never => absurd never (Nat.lt_irrefl 0)) short
  · exact forall_prop_of_true some

/-! ### Bodies -/

theorem length_appended (stmts : List Source.Stmt) :
    (appended context routine span stmts).length = addedReturns routine.mode stmts := by
  unfold appended addedReturns Routine.inConstructor Routine.inEntry
  split
  · rename_i needed
    rw [needed]
    rfl
  · rename_i unneeded
    rw [Bool.not_eq_true] at unneeded
    rw [unneeded]
    rfl

/-- The statements of a short body are short and not too many. -/
theorem short_bodyStmts {body : Source.Stmt} (short : body.Short) :
    (∀ stmt ∈ bodyStmts (some body), stmt.Short) ∧
      (bodyStmts (some body)).length ≤ maxListLength := by
  have one : 1 ≤ maxListLength := by decide
  cases body with
  | block _ stmts =>
    obtain ⟨few, lists⟩ := List.forall_mem_cons.mp short.lists
    exact ⟨Source.Stmt.short_of_list short.nodes lists, few⟩
  | _ => exact ⟨List.forall_mem_singleton.mpr short, one⟩

/-- **A body is a list of the statements in front, the source's and the appended return.** -/
theorem limits_lowerBody {start : List Stmt} (continues : Continue start)
    {source : Option Source.Stmt} (short : ∀ body ∈ source, body.Short) :
    LimitsAny (BodyHasRoom context routine.mode start.length (bodyStmts source))
      (lowerBody context routine span start source) := by
  have known : (∀ stmt ∈ bodyStmts source, stmt.Short) ∧
      (bodyStmts source).length ≤ maxListLength := by
    cases source with
    | none => exact ⟨List.forall_mem_nil _, Nat.zero_le _⟩
    | some body => exact short_bodyStmts (short body rfl)
  obtain ⟨each, few⟩ := known
  have user : Limits (AllHaveRoom context (Source.Stmt.reachedOfList context (bodyStmts source)))
      (runEach ((bodyStmts source).map (·.lower context routine)))
      (List.Forall₂ (fun stmt result => Stmt.isReturn result = stmt.isReturn)
        (bodyStmts source)) := by
    rw [allHaveRoom_reachedOfStmts]
    refine Limits.runEach fun stmt inside => ?_
    have limits : LimitsAny (AllHaveRoom context (stmt.reached context))
        (stmt.lower context routine) := stmt.limits_lower routine (each stmt inside)
    exact (limits.also (stmt.isReturn_lower context routine)).mono fun _ => And.right
  have both : BodyHasRoom context routine.mode start.length (bodyStmts source) ↔
      AllHaveRoom context (Source.Stmt.reachedOfList context (bodyStmts source)) ∧
        (bodyStmts source).length + (start.length + addedReturns routine.mode (bodyStmts source)) ≤
          maxListLength := by
    rw [← roomFor_iff few]
    exact ⟨fun room => ⟨room.nodes, room.length⟩, fun ⟨nodes, length⟩ => ⟨nodes, length⟩⟩
  rw [both]
  refine user.bind fun lowered same => ?_
  dsimp only
  rw [finalReturn_eq continues same]
  refine ((Limits.checkLength _ _).last fun _ _ => .pure trivial).of_iff ?_
  rw [List.length_append, List.length_append, List.length_map, length_appended, ← same.length_eq]
  omega

/-! ### The start of a construction routine -/

theorem limits_assignField (field : Name × Source.Expr) (short : ShortLists field.2.nodes) :
    LimitsAny (AllHaveRoom context (field.2.reached context))
      (assignField context routine span field) :=
  (field.2.limits_lower routine short).last fun _ _ => .pure trivial

/-- The parent's routine and the assignments of the values. -/
theorem limits_prologue (kept : routine.chained = false)
    (short : ∀ value ∈ fieldValues context.facts routine.className, ShortLists value.nodes) :
    Limits (ValuesHaveRoom context routine.className) (prologue context routine span)
      fun start => Continue start ∧
        start.length = (fieldValues context.facts routine.className).length + 1 := by
  have limits : Limits (ValuesHaveRoom context routine.className) (prologue context routine span)
      fun start => start.length = (fieldValues context.facts routine.className).length + 1 := by
    unfold prologue ValuesHaveRoom
    unfold fieldValues at short ⊢
    dsimp only
    cases resolved : context.facts.chains.instance? routine.className with
    | none => exact .fail
    | some chain =>
      rw [resolved] at short
      rw [Option.map_some, Option.getD_some, List.forall_mem_map] at short ⊢
      refine (Limits.runEach fun field inside => limits_assignField field
        (short field inside)).last fun assigns same => .pure ?_
      rw [List.length_cons, List.length_map, same.length_eq]
  refine (limits.also (ensures_prologue kept)).mono ?_
  exact fun _ known => ⟨continue_of_begins known.2, known.1⟩

/-! ### Routines -/

variable {decl : ClassDecl}

theorem limits_lowerMethod (owner : Name) (method : MethodDecl × Nat)
    (short : method.1.body.Short) :
    LimitsAny (BodyHasRoom context (modeOf context method.1) 0 (bodyStmts (some method.1.body)))
      (lowerMethod context owner method.2 method.1) := by
  have body : LimitsAny
      (BodyHasRoom context (methodRoutine context owner method).mode 0
        (bodyStmts (some method.1.body)))
      (lowerBody context (methodRoutine context owner method) method.1.span []
        (some method.1.body)) := by
    refine limits_lowerBody (List.forall_mem_nil _) ?_
    rintro _ ⟨⟩
    exact short
  exact body.last fun _ _ => .pure trivial

/-- The start of a construction routine needs room unless the receiver is handed on. -/
theorem limits_startOf (source : Option (MethodDecl × Nat))
    (short : ∀ value ∈ fieldValues context.facts decl.name, ShortLists value.nodes) :
    Limits ((routineOf decl source).chained = false → ValuesHaveRoom context decl.name)
      (startOf context decl source) fun start => Continue start ∧
        start.length = startLength context decl.name (routineOf decl source).chained := by
  unfold startOf startLength
  cases kept : (routineOf decl source).chained with
  | true =>
    refine (Limits.pure ⟨List.forall_mem_nil _, rfl⟩).of_iff ?_
    exact iff_of_true trivial fun never => nomatch never
  | false =>
    have named : (routineOf decl source).className = decl.name := className_routineOf
    rw [← named] at short ⊢
    refine (limits_prologue kept short).of_iff ?_
    exact ⟨fun room _ => room, fun needed => needed rfl⟩

theorem limits_lowerConstruction (source : Option (MethodDecl × Nat))
    (short : ∀ body ∈ source.map (·.1.body), body.Short)
    (values : ∀ value ∈ fieldValues context.facts decl.name, ShortLists value.nodes) :
    LimitsAny (ConstructionHasRoom context decl source)
      (lowerConstruction context decl source) := by
  have both : ConstructionHasRoom context decl source ↔
      ((routineOf decl source).chained = false → ValuesHaveRoom context decl.name) ∧
        BodyHasRoom context (routineOf decl source).mode
          (startLength context decl.name (routineOf decl source).chained) (stmtsOf source) := by
    rw [mode_routineOf source]
    exact ⟨fun room => ⟨room.values, room.body⟩, fun ⟨values, body⟩ => ⟨values, body⟩⟩
  rw [lowerConstruction_eq, both]
  refine (limits_startOf source values).bind fun start ⟨continues, long⟩ => ?_
  rw [← long]
  exact (limits_lowerBody continues short).last fun _ _ => .pure trivial

/-- A static field that is given no value needs no room. -/
theorem limits_lowerStatic (className : Name) (init : Initializer Source.Expr)
    (short : ∀ value, init.value = some value → ShortLists value.nodes) :
    LimitsAny (∀ value, init.value = some value → AllHaveRoom context (value.reached context))
      (lowerStatic context className span init) := by
  unfold lowerStatic
  cases given : init.value with
  | none =>
    refine (Limits.pure trivial).of_iff (iff_true_intro fun _ never => ?_).symm
    cases never
  | some value =>
    have alone : AllHaveRoom context (value.reached context) ↔
        ∀ other, some value = some other → AllHaveRoom context (other.reached context) :=
      ⟨fun room _ same => Option.some.inj same ▸ room, fun each => each value rfl⟩
    rw [← alone]
    refine (value.limits_lower _ (short value given)).last fun _ _ => ?_
    exact .pure trivial

/-! ### Classes -/

/-- No list is too long for a step. -/
def Fits {α : Type} (step : Except LoweringFailure α) : Prop :=
  ∀ refusal, step ≠ .error (.listTooLong refusal)

namespace Fits

variable {α β : Type} {step : Except LoweringFailure α} {next : α → Except LoweringFailure β}

theorem pure {value : α} : Fits (pure value) := fun _ failed => nomatch failed

theorem fail {error : LoweringError} : Fits (α := α) (.error (.error error)) :=
  fun _ failed => nomatch failed

theorem bind (first : Fits step) (second : ∀ value, step = .ok value → Fits (next value)) :
    Fits (step >>= next) := by
  intro refusal failed
  cases done : step with
  | error failure =>
    rw [done] at failed first
    cases failed
    exact first refusal rfl
  | ok value =>
    rw [done] at failed
    exact second value done refusal failed

theorem mapM {ι : Type} {items : List ι} {step : ι → Except LoweringFailure α}
    (each : ∀ item ∈ items, Fits (step item)) : Fits (items.mapM step) := by
  induction items with
  | nil => exact pure
  | cons item rest induct =>
    rw [List.forall_mem_cons] at each
    rw [List.mapM_cons]
    exact each.1.bind fun _ _ => (induct each.2).bind fun _ _ => pure

/-- A routine whose condition holds. -/
theorem inRoutine {room : Prop} {step : LowerM α} (limits : LimitsAny room step) (known : room) :
    Fits (inRoutine step) := by
  intro refusal failed
  change (·.1) <$> step.run 0 = _ at failed
  cases ran : step.run 0 with
  | error failure =>
    rw [ran] at failed
    cases failed
    exact limits.overflows 0 refusal ran known
  | ok reached =>
    rw [ran] at failed
    cases failed

end Fits

/-- A routine that was lowered meets its condition. -/
theorem LimitsAny.of_inRoutine {α : Type} {room : Prop} {step : LowerM α}
    (limits : LimitsAny room step) {value : α} (done : inRoutine step = .ok value) : room :=
  (limits.ensures.of_inRoutine done).1

theorem limits_statics (reads : ShortReads context decl) :
    LimitsAny (∀ init ∈ context.facts.chains.statics decl.name, ∀ value, init.value = some value →
        AllHaveRoom context (value.reached context))
      (runEach ((context.facts.chains.statics decl.name).map
        (lowerStatic context decl.name decl.span))) :=
  (Limits.runEach fun init inside =>
    limits_lowerStatic decl.name init (reads.statics init inside)).mono fun _ _ => trivial

theorem ShortReads.construction (reads : ShortReads context decl)
    {source : Option (MethodDecl × Nat)} (made : source ∈ constructions decl) :
    LimitsAny (ConstructionHasRoom context decl source)
      (lowerConstruction context decl source) := by
  refine limits_lowerConstruction source (fun body given => ?_) reads.values
  obtain ⟨method, rfl, rfl⟩ := Option.map_eq_some_iff.mp given
  rcases mem_constructions.mp made with ⟨never, _⟩ | ⟨_, same, declared, _⟩
  · cases never
  · cases same
    exact reads.declared.bodies _ (List.fst_mem_of_mem_zipIdx declared)

theorem ShortReads.method (reads : ShortReads context decl) {method : MethodDecl × Nat}
    (declared : method ∈ decl.methods.zipIdx) :
    LimitsAny (BodyHasRoom context (modeOf context method.1) 0 (bodyStmts (some method.1.body)))
      (lowerMethod context decl.name method.2 method.1) :=
  limits_lowerMethod decl.name method
    (reads.declared.bodies _ (List.fst_mem_of_mem_zipIdx declared))

/-- **A class with room is lowered without a list that is too long.** -/
theorem fits_lowerClass (reads : ShortReads context decl) (room : ClassHasRoom context decl) :
    Fits (lowerClass context decl) := by
  have members : ∀ method ∈ decl.methods.zipIdx, Fits (lowerMember context decl.name method) := by
    intro method declared
    unfold lowerMember
    cases isConstructor : method.1.isConstructorOf decl.name with
    | true =>
      have made : some method ∈ constructions decl :=
        mem_constructions.mpr (.inr ⟨method, rfl, declared, isConstructor⟩)
      exact (Fits.inRoutine (reads.construction made) (room.constructions _ made)).bind
        fun _ _ => .pure
    | false =>
      have known := room.methods method.1 (List.fst_mem_of_mem_zipIdx declared) isConstructor
      exact (Fits.inRoutine (reads.method declared) known).bind fun _ _ => .pure
  unfold lowerClass
  dsimp only
  split
  · refine (Fits.inRoutine (limits_statics reads) room.statics).bind fun _ _ => ?_
    split
    · refine (Fits.mapM members).bind fun routines each => ?_
      have constructors := (members_of_mapM each).1
      split
      · rename_i none
        have undeclared : constructions decl = [Option.none] := by
          unfold constructions
          rw [List.isEmpty_iff_length_eq_zero, ← constructors.length_eq] at none
          exact if_pos (List.isEmpty_iff_length_eq_zero.mpr none)
        have made : Option.none ∈ constructions decl := undeclared ▸ List.mem_singleton_self _
        rw [map_eq_pure_bind, bind_assoc]
        exact (Fits.inRoutine (reads.construction made) (room.constructions _ made)).bind
          fun _ _ => .pure
      · exact .pure
    · exact .fail
  · exact .fail

/-- **A class that was lowered had room.** -/
theorem room_of_lowerClass (reads : ShortReads context decl)
    {layout : Lowered.ClassLayout Expr Stmt} (done : lowerClass context decl = .ok layout) :
    ClassHasRoom context decl := by
  have lays := lays_of_lowerClass done
  refine ⟨fun source made => ?_, fun method declared other => ?_, ?_⟩
  · obtain ⟨routine, _, built⟩ := exists_of_mem_right lays.inits.flip made
    exact (reads.construction made).of_inRoutine built
  · obtain ⟨index, there⟩ := List.getElem?_of_mem declared
    have placed : (method, index) ∈ decl.methods.zipIdx :=
      List.mem_zipIdx_iff_getElem?.mpr there
    have kept : (method, index) ∈ decl.methods.zipIdx.filter (!·.1.isConstructorOf decl.name) :=
      List.mem_filter.mpr ⟨placed, by rw [other]; rfl⟩
    obtain ⟨routine, _, built⟩ := exists_of_mem_right lays.methods.flip kept
    exact (reads.method placed).of_inRoutine built
  · exact (limits_statics reads).of_inRoutine lays.statics

end Lowering

end ObjectLowering
