/-
**A unit is lowered without a list that is too long exactly if its lists leave room.**

The lists that a program is written with are within the limit, and no other list of a unit that was
lowered is longer. Between the two stand the lists that lowering makes longer: one of these may have
no room for what is added, and then the unit is refused.

* `Program.shortReads_of_number`: what lowering reads of a numbered program is short.
* `Lowering.UnitHasRoom`: the classes of a unit have room.
* `Lowering.short_of_lowerClasses`: the lists of a lowered unit are short.
* **`too_long_only_without_room`**: a unit that has room is not refused for a list; one that was
  lowered had room, and the lists of the result are within the limit.
-/

import ObjectLowering.Proofs.Checks.NullChecks
import ObjectLowering.Proofs.Limits.RoutineRoom
import ObjectLowering.Proofs.Units.UnitOrder

namespace ObjectLowering

open Source (SourceUnit ShortLists)
open Lowering

/-! ### What lowering reads of a numbered program -/

namespace Program

variable {texts : List Written.UnitText} {units : List SourceUnit} {names : NameTable}
  {options : LoweringOptions} {facts : Facts} {place : PlacedClass}

theorem exists_text_of_number (numbered : texts.mapM Written.UnitText.number = .ok units)
    {index : Nat} {unit : SourceUnit} (here : units[index]? = some unit) :
    ∃ text : Written.UnitText, text.number = .ok unit := by
  obtain ⟨text, _, done⟩ :=
    exists_of_mem_right (ok_of_mapM numbered) (List.mem_of_getElem? here)
  exact ⟨text, done⟩

/-- **The lists that lowering reads of a numbered program are short.** -/
theorem shortReads_of_number (numbered : texts.mapM Written.UnitText.number = .ok units)
    (computed : (ofUnits units).facts names options = .ok facts) (counts : place ∈ placed units) :
    ShortReads (contextAt units facts options place.index place.unit) place.decl := by
  have short {other : PlacedClass} (counts : other ∈ placed units) : other.decl.Short := by
    obtain ⟨here, declared, _⟩ := mem_placed.mp counts
    obtain ⟨text, done⟩ := exists_text_of_number numbered here
    exact short_of_number done other.decl declared
  have values {value : Source.Expr} (hosted : Hosts units place value) :
      ShortLists value.nodes := by
    obtain ⟨decl, countsToo, among⟩ := hosted
    exact fun node member => (short countsToo).nodes node (among node member)
  refine ⟨short counts, fun value member => values ?_, fun init member value given => values ?_⟩
  · change value ∈ fieldValues facts place.decl.name at member
    unfold fieldValues at member
    cases resolved : facts.chains.instance? place.decl.name with
    | none =>
      rw [resolved] at member
      cases member
    | some chain =>
      rw [resolved] at member
      obtain ⟨field, own, rfl⟩ := List.mem_map.mp member
      exact hosts_of_ownValues computed counts resolved own
  · exact hosts_of_statics computed counts member given

end Program

/-! ### Units -/

namespace Lowering

variable {context : Context} {index : Nat} {unit : SourceUnit} {names : NameTable}
  {options : LoweringOptions} {facts : Facts} {units : List SourceUnit}

/-- The classes of the unit at a position that count there have room. -/
def UnitHasRoom (context : Context) (index : Nat) (unit : SourceUnit) : Prop :=
  ∀ decl ∈ unit.classes, context.facade.owns index decl.name = true → ClassHasRoom context decl

/-- **The lists of a unit that was lowered are within the limit.** -/
theorem short_of_lowerClasses {tree : Lowered.TreeUnit}
    (done : lowerClasses context index unit = .ok tree) :
    ∀ layout ∈ tree.classes, layout.Short := by
  have follows : Follows Lowered.CodeUnit.unchecked
      (fun tree => ∀ layout ∈ tree.classes, layout.Short)
      (lowerClasses (context.withNullChecks true) index unit)
      (lowerClasses (context.withNullChecks false) index unit) := follows_lowerClasses index unit
  have same : context = context.withNullChecks context.options.nullChecks := rfl
  rw [same] at done
  cases asked : context.options.nullChecks with
  | true =>
    rw [asked] at done
    exact follows.known tree done
  | false =>
    rw [asked, follows.follows] at done
    obtain ⟨checked, ran, rfl⟩ := ok_of_map done
    have short := follows.known checked ran
    exact List.forall_mem_map.mpr fun layout inside => (short layout inside).unchecked

variable (here : units[index]? = some unit)
  (reads : ∀ decl, ⟨index, unit, decl⟩ ∈ Program.placed units →
    ShortReads (Program.contextAt units facts options index unit) decl)

include here reads

/-- **A unit with room is lowered without a list that is too long.** -/
theorem fits_lowerUnit
    (room : UnitHasRoom (Program.contextAt units facts options index unit) index unit) :
    Fits (lowerUnit index unit (Program.facadeAt units index unit) facts options) := by
  refine Fits.bind (Fits.mapM fun decl inside => ?_) fun _ _ => .pure
  obtain ⟨declared, owned⟩ := List.mem_filter.mp inside
  exact fits_lowerClass (reads decl (Program.mem_placed.mpr ⟨here, declared, owned⟩))
    (room decl declared owned)

/-- **A unit that was lowered had room**, and the lists of the result are within the limit. -/
theorem room_of_lowerUnit {tree : Lowered.TreeUnit}
    (done : lowerUnit index unit (Program.facadeAt units index unit) facts options = .ok tree) :
    UnitHasRoom (Program.contextAt units facts options index unit) index unit ∧
      ∀ layout ∈ tree.classes, layout.Short := by
  constructor
  · intro decl declared owned
    have counts : ⟨index, unit, decl⟩ ∈ Program.placed units :=
      Program.mem_placed.mpr ⟨here, declared, owned⟩
    obtain ⟨layout, _, built⟩ := exists_of_mem_right (ok_of_lowerUnit done).flip
      (List.mem_filter.mpr ⟨declared, owned⟩)
    exact room_of_lowerClass (reads decl counts) built
  · exact short_of_lowerClasses done

/-- **A unit without room is refused**, where nothing else can be wrong with it. -/
theorem refused_of_noRoom (computed : (Program.ofUnits units).facts names options = .ok facts)
    (lenient : options.strict = false) (covers : names.Covers units) (forest : unit.IsForest)
    (sized : unit.IsSized)
    (noRoom : ¬UnitHasRoom (Program.contextAt units facts options index unit) index unit) :
    ∃ refusal, lowerUnit index unit (Program.facadeAt units index unit) facts options =
      .error (.listTooLong refusal) := by
  have admits : ∀ decl ∈ unit.classes.filter
      ((Program.facadeAt units index unit).owns index ·.name),
      ClassAdmits (Program.contextAt units facts options index unit) (fun _ => False) decl := by
    intro decl inside
    obtain ⟨declared, owned⟩ := List.mem_filter.mp inside
    have counts : ⟨index, unit, decl⟩ ∈ Program.placed units :=
      Program.mem_placed.mpr ⟨here, declared, owned⟩
    have admits := Program.classAdmits_of_facts computed lenient covers counts forest sized
    exact admits
  refine (ends_lowerUnit admits).total.resolve_left ?_
  rintro ⟨tree, done⟩
  exact noRoom (room_of_lowerUnit here reads done).1

end Lowering

/-- **A unit is refused for a list that is too long only if one of its lists has no room for what
lowering adds to it.** The program may be any that numbering accepts. A list has room if it has at
most `maxListLength` items together with those that are added: the receiver of a call, the new
object or the receiver of a construction, the two statements that fill an array of several sized
dimensions; and in a body the start of a construction routine and the return that is appended. A
unit that was lowered had room, and all lists of the result are within the limit. So the units
without room are refused, where nothing else can be wrong with them. -/
theorem too_long_only_without_room {texts : List Written.UnitText} {units : List SourceUnit}
    {names : NameTable} {options : LoweringOptions} {facts : Facts}
    (numbered : texts.mapM Written.UnitText.number = .ok units)
    (computed : (Program.ofUnits units).facts names options = .ok facts) {index : Nat}
    {unit : SourceUnit} (here : units[index]? = some unit) :
    ((∃ refusal, lowerUnit index unit (Program.facadeAt units index unit) facts options =
        .error (.listTooLong refusal)) →
      ¬UnitHasRoom (Program.contextAt units facts options index unit) index unit) ∧
    (∀ tree, lowerUnit index unit (Program.facadeAt units index unit) facts options = .ok tree →
      UnitHasRoom (Program.contextAt units facts options index unit) index unit ∧
        ∀ layout ∈ tree.classes, layout.Short) ∧
    (options.strict = false → names.Covers units → unit.IsSized →
      ¬UnitHasRoom (Program.contextAt units facts options index unit) index unit →
        ∃ refusal, lowerUnit index unit (Program.facadeAt units index unit) facts options =
          .error (.listTooLong refusal)) := by
  have reads (decl : Source.ClassDecl) (counts : ⟨index, unit, decl⟩ ∈ Program.placed units) :
      ShortReads (Program.contextAt units facts options index unit) decl := by
    have known := Program.shortReads_of_number numbered computed counts
    exact known
  refine ⟨fun ⟨refusal, refused⟩ room => ?_, fun tree done => room_of_lowerUnit here reads done, ?_⟩
  · exact fits_lowerUnit here reads room refusal refused
  · intro lenient covers sized noRoom
    obtain ⟨text, done⟩ := Program.exists_text_of_number numbered here
    exact refused_of_noRoom here reads computed lenient covers (isForest_of_number done) sized
      noRoom

/-- Two small classes, one below the other, are lowered: their lists have room. -/
theorem too_long_only_without_room_stepper :
    ∃ facts tree,
      (Program.ofUnits [.ticker, .stepper]).facts
        (.mentionAll .start ["Ticker", "count", "next", "Stepper", "step"]) {} = .ok facts ∧
      lowerUnit 1 .stepper (Program.facadeAt [.ticker, .stepper] 1 .stepper) facts {} = .ok tree ∧
      UnitHasRoom (Program.contextAt [.ticker, .stepper] facts {} 1 .stepper) 1 .stepper ∧
      ∀ layout ∈ tree.classes, layout.Short := by
  have numbered : [Written.UnitText.ticker, .stepper].mapM Written.UnitText.number =
      .ok [.ticker, .stepper] := by
    rw [List.mapM_cons, List.mapM_cons, Written.UnitText.number_ticker,
      Written.UnitText.number_stepper]
    rfl
  obtain ⟨facts, computed, succeeds⟩ := exists_of_any_toOption
    (show (((Program.ofUnits [.ticker, .stepper]).facts
      (.mentionAll .start ["Ticker", "count", "next", "Stepper", "step"]) {}).toOption.any
        fun facts => (lowerUnit 1 .stepper (Program.facadeAt [.ticker, .stepper] 1 .stepper) facts
          {}).isOk) = true by decide +kernel)
  obtain ⟨tree, done⟩ := exists_of_isOk succeeds
  have room := (too_long_only_without_room numbered computed rfl).2.1 tree done
  exact ⟨facts, tree, computed, done, room⟩

/-! ### A construction without room -/

/-- A class whose method constructs an object from so many values. -/
def Written.UnitText.crowd (count : Nat) : UnitText where
  path := "Crowd"
  dottedPackage := ""
  imports := []
  classes := [
    { name := "Crowd", parent := none, fields := []
      methods := [
        { modifiers := { isStatic := true }, ret := .void, name := some "meet", params := []
          body := [.eval (.newObject "Crowd" (List.replicate count .null))]
          replacement := none }] }]

namespace Source

/-- So many values with the next numbers and spans. -/
def Expr.nulls (id cursor : Nat) : Nat → List Expr
  | 0 => []
  | count + 1 => .null ⟨id, cursor, cursor + 1⟩ :: nulls (id + 1) (cursor + 1) count

/-- The construction as it is numbered, its values first. -/
def Expr.crowd (count : Nat) : Expr :=
  .newObject ⟨count, count + 1, count + 2⟩ "Crowd" (nulls 0 1 count)

def ClassDecl.crowd (count : Nat) : ClassDecl where
  name := "Crowd"
  parent := none
  fields := []
  methods := [
    { name := "meet", params := [], ret := .void, modifiers := { isStatic := true }
      body := .block ⟨count + 3, count + 4⟩ [.eval ⟨count + 2, count + 3⟩ (.crowd count)]
      span := ⟨count + 4, count + 5⟩ }]
  span := ⟨0, 1⟩

def SourceUnit.crowd (count : Nat) : SourceUnit where
  path := "Crowd"
  package := []
  imports := []
  classes := [.crowd count]
  nodes := (Expr.nulls 0 1 count).toArray.push (.crowd count)
  stmtCount := 2

theorem Expr.length_nulls (id cursor count : Nat) : (nulls id cursor count).length = count := by
  induction count generalizing id cursor with
  | zero => rfl
  | succ count step => rw [nulls, List.length_cons, step]

theorem Expr.nodesOfList_nulls (id cursor count : Nat) :
    nodesOfList (nulls id cursor count) = nulls id cursor count := by
  induction count generalizing id cursor with
  | zero => rfl
  | succ count step =>
    rw [nulls, nodesOfList, step]
    rfl

theorem Expr.null_of_mem_nulls {expr : Expr} {id cursor count : Nat}
    (member : expr ∈ nulls id cursor count) : ∃ tag, expr = .null tag := by
  induction count generalizing id cursor with
  | zero => cases member
  | succ count step =>
    rcases List.mem_cons.mp member with rfl | behind
    · exact ⟨_, rfl⟩
    · exact step behind

theorem SourceUnit.isSized_crowd (count : Nat) : (crowd count).IsSized := by
  intro tag element dims extra member
  have all : (crowd count).reachable = .crowd count :: Expr.nulls 0 1 count := by
    simp [reachable, crowd, ClassDecl.crowd, ClassDecl.nodes, ClassDecl.initializers,
      Expr.nodesOfList, Stmt.nodes, Stmt.nodesOfList, Expr.crowd, Expr.nodes,
      Expr.nodesOfList_nulls]
  rw [all] at member
  rcases List.mem_cons.mp member with same | behind
  · cases same
  · obtain ⟨_, same⟩ := Expr.null_of_mem_nulls behind
    cases same

/-- The new object does not fit in front of so many values. -/
theorem SourceUnit.noRoom_crowd {facts : Facts} {count : Nat} (many : maxListLength ≤ count) :
    ¬UnitHasRoom (Program.contextAt [.crowd count] facts {} 0 (.crowd count)) 0 (.crowd count) := by
  intro room
  have owned : (ClassTable.ofUnits [.crowd count]).owns 0 "Crowd" = true := rfl
  have meet := (room (.crowd count) List.mem_cons_self owned).methods _ List.mem_cons_self rfl
  have known := hasRoom_newObject.mp (meet.nodes _ List.mem_cons_self)
  rw [Expr.length_nulls] at known
  omega

end Source

namespace Written

theorem Expr.number_nulls (count : Nat) (start : NodeNumbering) :
    (numberList (List.replicate count .null)).run start =
      pure (Source.Expr.nulls start.nodes.size start.cursor count,
        { start with
          cursor := start.cursor + count
          nodes := start.nodes ++ Source.Expr.nulls start.nodes.size start.cursor count }) := by
  induction count generalizing start with
  | zero => simp [numberList, Source.Expr.nulls]
  | succ count step =>
    let null : Source.Expr := .null ⟨start.nodes.size, start.cursor, start.cursor + 1⟩
    have first : Expr.null.number.run start =
      pure (null, { start with cursor := start.cursor + 1, nodes := start.nodes.push null }) := rfl
    simp [List.replicate_succ, numberList, Source.Expr.nulls, first, step, null, Nat.add_assoc,
      Nat.add_comm 1]

/-- Numbering accepts the class as long as the values by themselves are not too many. -/
theorem UnitText.number_crowd {count : Nat} (few : count ≤ maxListLength) :
    (crowd count).number = .ok (.crowd count) := by
  have values := Expr.number_nulls count ⟨1, #[], 0⟩
  have short : checkListLength .expr count = pure () := if_pos few
  have one : checkListLength .stmt 1 = pure () := rfl
  have construction : (Expr.newObject "Crowd" (List.replicate count .null)).number.run ⟨1, #[], 0⟩ =
      pure (.crowd count, ⟨count + 2, (Source.SourceUnit.crowd count).nodes, 0⟩) := by
    simp [Expr.number, NodeNumbering.checkLength, NodeNumbering.complete, NodeNumbering.nextSpan,
      values, short, Source.Expr.crowd, Source.SourceUnit.crowd, Source.Expr.length_nulls,
      Nat.add_comm 1]
  have package : "".splitOn "." = [""] := by cbv
  simp [number, crowd, ClassText.number, Method.number, Stmt.numberList, Stmt.number,
    NodeNumbering.completeBlock, NodeNumbering.completeStmt, NodeNumbering.checkLength,
    NodeNumbering.nextSpan, UnitText.package, package, construction, one,
    Source.SourceUnit.crowd, Source.ClassDecl.crowd]
  rfl

end Written

/-- A construction from as many values as a list may have is accepted and then refused. -/
theorem too_long_crowd :
    ∃ facts refusal,
      [Written.UnitText.crowd maxListLength].mapM Written.UnitText.number =
        .ok [.crowd maxListLength] ∧
      (Program.ofUnits [.crowd maxListLength]).facts (NameTable.start.mention "Crowd") {} =
        .ok facts ∧
      lowerUnit 0 (.crowd maxListLength)
          (Program.facadeAt [.crowd maxListLength] 0 (.crowd maxListLength)) facts {} =
        .error (.listTooLong refusal) := by
  obtain ⟨facts, computed⟩ := exists_of_isOk (show ((Program.ofUnits [.crowd maxListLength]).facts
    (NameTable.start.mention "Crowd") {}).isOk = true by decide +kernel)
  have covers : (NameTable.start.mention "Crowd").Covers [.crowd maxListLength] := by
    unfold NameTable.Covers
    decide +kernel
  have done := Written.UnitText.number_crowd (Nat.le_refl maxListLength)
  have numbered : [Written.UnitText.crowd maxListLength].mapM Written.UnitText.number =
      .ok [.crowd maxListLength] := by
    rw [List.mapM_cons, done]
    rfl
  have reads (decl : Source.ClassDecl)
      (counts : ⟨0, .crowd maxListLength, decl⟩ ∈ Program.placed [.crowd maxListLength]) :
      ShortReads (Program.contextAt [.crowd maxListLength] facts {} 0 (.crowd maxListLength))
        decl := by
    have known := Program.shortReads_of_number numbered computed counts
    exact known
  obtain ⟨refusal, refused⟩ := refused_of_noRoom rfl reads computed rfl covers
    (isForest_of_number done) (SourceUnit.isSized_crowd _) (SourceUnit.noRoom_crowd (Nat.le_refl _))
  exact ⟨facts, refusal, numbered, computed, refused⟩

end ObjectLowering
