/-
**Names by number.**

Units are named one after the other, under positions and with answers of any kind; a method may be
named again, and then its last name counts. Whatever happened, the number behind a source name had
not been used in the class before, so the methods of a class have names of their own. Where every
class is named only once, the numbers count its declarations of a source name from zero.

* `NamingCall` is one turn of the naming, `MangleRecord.ofCalls` is the record after several.
* `MangleRecord.mangled?_giveAll_append`: a method that is named once is numbered by what was named
  before it.
* `MangleRecord.Numbers` says how the methods of a declaration are named.
* `Program.namingCalls` are those of a program, which names each unit once.
* **`names_numbered`**: the names of a class are apart, and where no class is named twice they are
  numbered in order.
-/

import ObjectLowering.Proofs.Units.UnitOrder

namespace ObjectLowering

open Source (SourceUnit ClassDecl MethodDecl)

/-- One unit is named under a position, with a facade that tells which classes the unit owns. -/
structure NamingCall where
  index : Nat
  unit : SourceUnit
  facade : Facade

/-- The declarations whose methods are named. -/
def NamingCall.decls (call : NamingCall) : List ClassDecl :=
  call.unit.classes.filter (call.facade.owns call.index ·.name)

namespace MangleRecord

/-- The record after units were named one after the other. -/
def ofCalls (entryPoint : Name) (calls : List NamingCall) : MangleRecord :=
  let name (record : MangleRecord) (call : NamingCall) : MangleRecord :=
    record.nameUnit entryPoint call.index call.unit call.facade
  calls.foldl name .empty

/-- Whether a declaration of the source name is numbered. -/
def isNumbered (entryPoint owner source : Name) (method : MethodDecl) : Bool :=
  !keepsName entryPoint owner method && method.name == source

/-- How the methods of a declaration are named. -/
structure Numbers (record : MangleRecord) (entryPoint : Name) (decl : ClassDecl) : Prop where
  /-- A constructor and a method called like the entry point have no name. -/
  kept : ∀ (index : Nat) (method : MethodDecl), decl.methods[index]? = some method →
    keepsName entryPoint decl.name method = true → record.mangled? ⟨decl.name, index⟩ = none
  /-- Any other is numbered by how many of its source name stand before it. -/
  numbered : ∀ (index : Nat) (method : MethodDecl), decl.methods[index]? = some method →
    keepsName entryPoint decl.name method = false → record.mangled? ⟨decl.name, index⟩ =
      some (numbered method.name
        ((decl.methods.take index).countP (isNumbered entryPoint decl.name method.name)))
  /-- The number of names given is that of all declarations of the source name. -/
  counted : ∀ source, record.count decl.name source =
    decl.methods.countP (isNumbered entryPoint decl.name source)

variable {record : MangleRecord} {method : MethodRef} {source : Name}

/-! ### Names given one by one -/

theorem mangled?_give_self : (record.give method source).mangled? method =
    some (numbered source (record.count method.className source)) := by
  have first := List.find?_cons_of_pos (l := record.given) (p := (·.method == method))
    (a := ⟨method, source, numbered source (record.count method.className source)⟩)
    (beq_self_eq_true method)
  exact congrArg (Option.map MangledName.mangled) first

/-- Naming other methods does not matter. -/
theorem mangled?_giveAll_of_not_mem {methods : List (MethodRef × Name)}
    (absent : method ∉ methods.map (·.1)) :
    (record.giveAll methods).mangled? method = record.mangled? method := by
  induction methods generalizing record with
  | nil => rfl
  | cons named rest step =>
    rw [List.map_cons, List.mem_cons, not_or] at absent
    refine (step absent.2).trans ?_
    unfold mangled? give
    rw [List.find?_cons_of_neg (by rw [beq_iff_eq]; exact Ne.symm absent.1)]

theorem count_giveAll (methods : List (MethodRef × Name)) (className : Name) :
    (giveAll .empty methods).count className source =
      methods.countP fun named => named.1.className == className && named.2 == source := by
  have each (record : MangleRecord) : (record.giveAll methods).count className source =
      record.count className source +
        methods.countP fun named => named.1.className == className && named.2 == source := by
    induction methods generalizing record with
    | nil => rfl
    | cons named rest step =>
      refine (step _).trans ?_
      rw [count_give, List.countP_cons, Nat.add_assoc, Nat.add_comm (ite _ _ _)]
  exact (each .empty).trans (Nat.zero_add _)

/-- **A method that is not named again is numbered by what was named before it.** -/
theorem mangled?_giveAll_append (front behind : List (MethodRef × Name))
    (once : method ∉ behind.map (·.1)) :
    (giveAll .empty (front ++ (method, source) :: behind)).mangled? method =
      some (numbered source ((giveAll .empty front).count method.className source)) := by
  unfold giveAll
  rw [List.foldl_append, List.foldl_cons]
  exact (mangled?_giveAll_of_not_mem once).trans mangled?_give_self

/-! ### The methods of one declaration -/

section OneClass

variable {entryPoint owner : Name}

/-- The methods of a list that are given names; the first one stands at a position. -/
def renamedAt (entryPoint owner : Name) (start : Nat) (methods : List MethodDecl) :
    List (MethodRef × Name) :=
  ((methods.zipIdx start).filter (!keepsName entryPoint owner ·.1)).map fun method =>
    (⟨owner, method.2⟩, method.1.name)

theorem renamedAt_append (start : Nat) (front behind : List MethodDecl) :
    renamedAt entryPoint owner start (front ++ behind) =
      renamedAt entryPoint owner start front ++
        renamedAt entryPoint owner (start + front.length) behind := by
  unfold renamedAt
  rw [List.zipIdx_append, List.filter_append, List.map_append]

theorem renamedAt_cons {method : MethodDecl} (changes : keepsName entryPoint owner method = false)
    (start : Nat) (rest : List MethodDecl) :
    renamedAt entryPoint owner start (method :: rest) =
      (⟨owner, start⟩, method.name) :: renamedAt entryPoint owner (start + 1) rest := by
  unfold renamedAt
  rw [List.zipIdx_cons, List.filter_cons_of_pos (by rw [changes]; rfl), List.map_cons]

theorem mem_renamedAt {start index : Nat} {methods : List MethodDecl}
    (member : (⟨owner, index⟩ : MethodRef) ∈
      (renamedAt entryPoint owner start methods).map (·.1)) :
    start ≤ index ∧ ∃ method, methods[index - start]? = some method ∧
      keepsName entryPoint owner method = false := by
  obtain ⟨_, named, same⟩ := List.mem_map.mp member
  obtain ⟨⟨method, position⟩, kept, rfl⟩ := List.mem_map.mp named
  obtain ⟨there, changes⟩ := List.mem_filter.mp kept
  obtain ⟨_, rfl⟩ := MethodRef.mk.inj same
  obtain ⟨low, here⟩ := List.mk_mem_zipIdx_iff_le_and_getElem?_sub.mp there
  exact ⟨low, method, here, (Bool.not_eq_true' _).mp changes⟩

theorem count_renamedAt (start : Nat) (methods : List MethodDecl) (source : Name) :
    (giveAll .empty (renamedAt entryPoint owner start methods)).count owner source =
      methods.countP (isNumbered entryPoint owner source) := by
  unfold renamedAt
  rw [count_giveAll, List.countP_map, List.countP_filter]
  calc _ = (methods.zipIdx start).countP (isNumbered entryPoint owner source ∘ Prod.fst) := by
        refine List.countP_congr fun place _ => ?_
        unfold isNumbered
        simp [and_comm]
    _ = methods.countP (isNumbered entryPoint owner source) := by
        rw [← List.countP_map, List.zipIdx_map_fst]

/-- **The methods of one declaration are numbered in order.** -/
theorem numbers_renamedFrom (entryPoint : Name) (decl : ClassDecl) :
    (giveAll .empty (Program.renamedFrom entryPoint decl)).Numbers entryPoint decl where
  kept index method here keeps := by
    refine Option.not_isSome_iff_eq_none.mp fun named => ?_
    obtain ⟨_, other, there, changes⟩ := mem_renamedAt (mangled?_giveAll.mp named)
    cases here.symm.trans there
    rw [keeps] at changes
    cases changes
  numbered index method here changes := by
    have split : decl.methods =
        decl.methods.take index ++ method :: decl.methods.drop (index + 1) := by
      obtain ⟨bound, rfl⟩ := List.getElem?_eq_some_iff.mp here
      rw [← List.drop_eq_getElem_cons bound, List.take_append_drop]
    have front : (decl.methods.take index).length = index :=
      List.length_take_of_le (List.getElem?_eq_some_iff.mp here).1.le
    have methods : Program.renamedFrom entryPoint decl =
        renamedAt entryPoint decl.name 0 (decl.methods.take index) ++
          (⟨decl.name, index⟩, method.name) ::
            renamedAt entryPoint decl.name (index + 1) (decl.methods.drop (index + 1)) := by
      show renamedAt entryPoint decl.name 0 decl.methods = _
      conv_lhs => rw [split, renamedAt_append, Nat.zero_add, front, renamedAt_cons changes]
    rw [methods, mangled?_giveAll_append, count_renamedAt]
    intro again
    exact absurd (mem_renamedAt again).1 (Nat.not_succ_le_self index)
  counted source := count_renamedAt 0 decl.methods source

/-- The names of a class are all that matters. -/
theorem Numbers.of_within {record : MangleRecord} {decl : ClassDecl}
    (numbers : (record.within decl.name).Numbers entryPoint decl) :
    record.Numbers entryPoint decl where
  kept index method here keeps :=
    (mangled?_within record ⟨decl.name, index⟩).symm.trans (numbers.kept index method here keeps)
  numbered index method here changes :=
    (mangled?_within record ⟨decl.name, index⟩).symm.trans
      (numbers.numbered index method here changes)
  counted source := (count_within record source).symm.trans (numbers.counted source)

end OneClass

/-! ### One unit after the other -/

theorem ofCalls_eq (entryPoint : Name) (calls : List NamingCall) :
    ofCalls entryPoint calls =
      giveAll .empty ((calls.flatMap (·.decls)).flatMap (Program.renamedFrom entryPoint)) := by
  unfold ofCalls giveAll
  rw [List.flatMap_assoc, List.foldl_flatMap]
  refine congrArg (fun step => List.foldl step MangleRecord.empty calls) (funext fun record =>
    funext fun call => ?_)
  unfold nameUnit NamingCall.decls
  rw [List.foldl_flatMap]
  refine congrArg (fun step => List.foldl step record _) (funext fun record =>
    funext fun decl => ?_)
  exact Program.nameClass_eq entryPoint record ⟨call.index, call.unit, decl⟩

/-- The names of a class come from the declarations of that class. -/
theorem within_ofCalls (entryPoint className : Name) (calls : List NamingCall) :
    (ofCalls entryPoint calls).within className =
      giveAll .empty (((calls.flatMap (·.decls)).filter (·.name == className)).flatMap
        (Program.renamedFrom entryPoint)) := by
  rw [ofCalls_eq, within_giveAll, Program.flatMap_renamedFrom_filter]
  rfl

end MangleRecord

/-- Each unit is named once, under a position of its own, and declares no class twice; which classes
it owns is told by one table for all. -/
structure NamedOnce (table : ClassTable) (calls : List NamingCall) : Prop where
  positions : (calls.map (·.index)).Nodup
  declared : ∀ call ∈ calls, (call.unit.classes.map (·.name)).Nodup
  owned : ∀ call ∈ calls, ∀ name, call.facade.owns call.index name = true →
    table.owns call.index name = true

/-- No class is named twice. -/
theorem NamedOnce.nodup_decls {table : ClassTable} {calls : List NamingCall}
    (once : NamedOnce table calls) : ((calls.flatMap (·.decls)).map (·.name)).Nodup := by
  rw [List.map_flatMap, List.nodup_flatMap]
  refine ⟨fun call member => ?_, ?_⟩
  · exact List.Nodup.sublist (List.filter_sublist.map _) (once.declared call member)
  · refine (List.pairwise_map.mp once.positions).imp_of_mem fun {call other} here there apart => ?_
    intro name namedHere namedThere
    have ownedBy {call : NamingCall} (member : call ∈ calls)
        (named : name ∈ call.decls.map (·.name)) : table.owns call.index name = true := by
      obtain ⟨decl, inside, rfl⟩ := List.mem_map.mp named
      exact once.owned call member decl.name (List.mem_filter.mp inside).2
    -- The table has one entry of the name, and this entry has one unit.
    obtain ⟨info, found, isHere⟩ := ClassTable.owns_iff.mp (ownedBy here namedHere)
    obtain ⟨_, foundToo, isThere⟩ := ClassTable.owns_iff.mp (ownedBy there namedThere)
    cases found.symm.trans foundToo
    exact apart (Option.some.inj (isHere.symm.trans isThere))

namespace Program

/-- The units of a program, each to be named under its own position. -/
def namingCalls (program : Program) : List NamingCall :=
  (program.parts .unchanged).zipIdx.map fun ((unit, facade), index) => ⟨index, unit, facade⟩

theorem mangle_record (program : Program) (options : LoweringOptions) :
    (program.mangle options .unchanged).record =
      .ofCalls options.entryPoint program.namingCalls := by
  unfold MangleRecord.ofCalls namingCalls
  rw [List.foldl_map]
  rfl

theorem of_mem_namingCalls {units : List SourceUnit} {call : NamingCall}
    (member : call ∈ (ofUnits units).namingCalls) :
    call.unit ∈ units ∧ ∃ notes, call.facade = .ofUnit (.ofUnits units) notes := by
  obtain ⟨⟨⟨unit, facade⟩, index⟩, inside, rfl⟩ := List.mem_map.mp member
  have part : ((ofUnits units).parts .unchanged)[index]? = some (unit, facade) :=
    List.mem_zipIdx_iff_getElem?.mp inside
  have here : units[index]? = some unit := (List.getElem?_zip_eq_some.mp part).1
  have answers := congrArg Prod.snd (Option.some.inj (part.symm.trans (parts_ofUnits here)))
  exact ⟨List.mem_of_getElem? here, _, answers⟩

/-- **A program names each unit once**, if no unit declares a class twice. -/
theorem namedOnce_ofUnits {units : List SourceUnit}
    (declared : ∀ unit ∈ units, (unit.classes.map (·.name)).Nodup) :
    NamedOnce (.ofUnits units) (ofUnits units).namingCalls where
  positions := by
    have indices : (ofUnits units).namingCalls.map (·.index) =
        ((ofUnits units).parts .unchanged).zipIdx.map Prod.snd := List.map_map
    rw [indices, List.zipIdx_map_snd]
    exact List.nodup_range'
  declared call member := declared call.unit (of_mem_namingCalls member).1
  owned call member name owned := by
    obtain ⟨_, _, answers⟩ := of_mem_namingCalls member
    rw [answers] at owned
    exact owned

end Program

/-- **The methods of a class have names of their own**, however often and under whatever positions
the units are named, and none is called like the entry point unless that is a numbered name. Where
each unit is named once, the constructors and the methods called like the entry point have no name,
and the others are numbered by their source name in order. A class that no unit owns has no
names. -/
theorem names_numbered (entryPoint : Name) (calls : List NamingCall) :
    (∀ method other name, method.className = other.className →
      (MangleRecord.ofCalls entryPoint calls).mangled? method = some name →
      (MangleRecord.ofCalls entryPoint calls).mangled? other = some name → method = other) ∧
    (∀ method, (MangleRecord.ofCalls entryPoint calls).mangled? method = some entryPoint →
      ∃ source number, entryPoint = source ++ "_" ++ toString (number : Nat)) ∧
    (∀ table, NamedOnce table calls → ∀ call ∈ calls, ∀ decl ∈ call.decls,
      (MangleRecord.ofCalls entryPoint calls).Numbers entryPoint decl) ∧
    ∀ className, (∀ call ∈ calls, ∀ decl ∈ call.decls, decl.name ≠ className) →
      (∀ index, (MangleRecord.ofCalls entryPoint calls).mangled? ⟨className, index⟩ = none) ∧
      ∀ source, (MangleRecord.ofCalls entryPoint calls).count className source = 0 := by
  have consistent : (MangleRecord.ofCalls entryPoint calls).Consistent :=
    MangleRecord.ofCalls_eq entryPoint calls ▸ MangleRecord.consistent_giveAll _
  refine ⟨fun method other name sameClass named namedToo =>
    consistent.eq_of_mangled? sameClass named namedToo, fun method named =>
    consistent.numbered_of_mangled? named, ?_, ?_⟩
  · intro table once call member decl owned
    have inside : decl ∈ calls.flatMap (·.decls) := List.mem_flatMap.mpr ⟨call, member, owned⟩
    refine MangleRecord.Numbers.of_within ?_
    rw [MangleRecord.within_ofCalls, filter_of_nodup_map once.nodup_decls inside,
      List.flatMap_singleton]
    exact MangleRecord.numbers_renamedFrom entryPoint decl
  · intro className absent
    have empty : (MangleRecord.ofCalls entryPoint calls).within className = .empty := by
      rw [MangleRecord.within_ofCalls, List.filter_eq_nil_iff.mpr]
      · rfl
      · intro decl inside
        obtain ⟨call, member, owned⟩ := List.mem_flatMap.mp inside
        rw [beq_iff_eq]
        exact absent call member decl owned
    refine ⟨fun index => ?_, fun source => ?_⟩
    · rw [← MangleRecord.mangled?_within, empty]
      rfl
    · rw [← MangleRecord.count_within, empty]
      rfl

/-- With `run` as the entry point, a class that overloads `main` has the names `main_0`, `main_1`
and `main_2`. -/
theorem names_numbered_entries :
    NamedOnce (.ofUnits [.entries, .overloads])
        (Program.ofUnits [.entries, .overloads]).namingCalls ∧
      let record :=
        ((Program.ofUnits [.entries, .overloads]).mangle { entryPoint := "run" } .unchanged).record
      record.mangled? ⟨"C", 0⟩ = some "main_0" ∧ record.mangled? ⟨"C", 1⟩ = some "main_1" ∧
        record.mangled? ⟨"C", 2⟩ = some "main_2" ∧ record.mangled? ⟨"Derived", 1⟩ = none ∧
        record.count "Derived" "main" = 1 := by
  have once : NamedOnce (.ofUnits [.entries, .overloads])
      (Program.ofUnits [.entries, .overloads]).namingCalls :=
    Program.namedOnce_ofUnits (by decide +kernel)
  obtain ⟨_, _, numbers, _⟩ :=
    names_numbered "run" (Program.ofUnits [.entries, .overloads]).namingCalls
  have entries := numbers _ once _ (.head _) _ (.head _)
  have derived := numbers _ once _ (.tail _ (.head _)) _ (.tail _ (.head _))
  rw [Program.mangle_record]
  exact ⟨once, entries.numbered 0 _ rfl rfl, entries.numbered 1 _ rfl rfl,
    entries.numbered 2 _ rfl rfl, derived.kept 1 _ rfl rfl, derived.counted "main"⟩

end ObjectLowering
