/-
**The order of the units does not matter.**

Where no class is declared twice, each declaration counts unless the run time provides a class of
its name, wherever its unit stands. So the same units in another order have a table with the same
outlines, and each unit owns the same classes. The record of names depends on the order only in that
it names one class after the other; within a class nothing changes. What is left is the table of
names of a run, and this decides at most which error comes first.

* `filter_eq_of_perm`: what a key selects from a list does not depend on the order.
* `MangleRecord.within_giveAll`: a class is given its names by its own methods.
* `Program.DeclaresOnce`: no class is declared twice.
* `Program.tables_of_perm`, `Program.record_of_perm`: the tables and the names given to methods.
* `Program.seenAlike_of_perm`: the two programs look the same to every unit.
* `Program.exists_facts`, `Program.facts_of_perm`: in a closed hierarchy the facts are
  known, and so they are in the other order.
* `compileUnits_of_perm`: a run comes to a result in the other order, too.
* **`unit_order_immaterial`**: units that are written in another order are lowered and printed in
  the same way, whatever else the tables of names hold.
-/

import Mathlib
import ObjectLowering.Proofs.Hierarchy.HierarchyErrors
import ObjectLowering.Proofs.Units.SeparateUnits

namespace ObjectLowering

open Source (SourceUnit ClassDecl)

/-! ### Lists in another order -/

section Lists

variable {α β κ : Type}

/-- What one key selects from a list does not depend on the order. -/
theorem filter_eq_of_perm [DecidableEq κ] {items others : List α} (perm : items.Perm others)
    (key : α → κ) (distinct : (items.map key).Nodup) (value : κ) :
    items.filter (key · == value) = others.filter (key · == value) := by
  induction perm with
  | nil => rfl
  | cons first _ step =>
    rw [List.filter_cons, List.filter_cons, step (List.nodup_cons.mp distinct).2]
  | swap first second rest =>
    -- Two keys that differ do not both select.
    have apart : key second ≠ key first := fun same =>
      (List.nodup_cons.mp distinct).1 (same ▸ List.mem_cons_self)
    by_cases selected : key first = value
    · have other : (key second == value) = false := beq_false_of_ne (selected ▸ apart)
      simp only [List.filter_cons, other, Bool.false_eq_true, if_false]
    · have other : (key first == value) = false := beq_false_of_ne selected
      simp only [List.filter_cons, other, Bool.false_eq_true, if_false]
  | trans earlier _ step stepToo =>
    exact (step distinct).trans (stepToo ((earlier.map key).nodup_iff.mp distinct))

/-- Where keys differ, a key selects the one item that has it. -/
theorem filter_of_nodup_map [DecidableEq κ] {items : List α} {key : α → κ}
    (distinct : (items.map key).Nodup) {item : α} (member : item ∈ items) :
    items.filter (key · == key item) = [item] := by
  induction items with
  | nil => cases member
  | cons first rest step =>
    rw [List.map_cons, List.nodup_cons] at distinct
    rcases List.mem_cons.mp member with rfl | later
    · rw [List.filter_cons, if_pos (beq_self_eq_true _)]
      refine congrArg _ (List.filter_eq_nil_iff.mpr fun other behind same => distinct.1 ?_)
      exact beq_iff_eq.mp same ▸ List.mem_map_of_mem behind
    · have apart : key first ≠ key item := fun same =>
        distinct.1 (same ▸ List.mem_map_of_mem later)
      rw [List.filter_cons_of_neg (by rwa [beq_iff_eq]), step distinct.2 later]

theorem flatMap_zipIdx (items : List α) (change : α → List β) :
    items.zipIdx.flatMap (fun place => change place.1) = items.flatMap change := by
  rw [← List.flatMap_map Prod.fst change, List.zipIdx_map_fst]

/-- Results that are settled by their items come in the order of the items. -/
theorem perm_of_forall₂ {related : α → β → Prop} (unique : Relator.RightUnique related)
    {items others : List α} (perm : items.Perm others) {results found : List β}
    (each : List.Forall₂ related items results) (eachToo : List.Forall₂ related others found) :
    results.Perm found := by
  obtain ⟨middle, among, reordered⟩ := List.perm_comp_forall₂ perm eachToo
  rwa [List.right_unique_forall₂' unique each among]

end Lists

/-! ### The names of one class -/

namespace MangleRecord

variable {className : Name}

/-- The names given to the methods of a class. -/
def within (record : MangleRecord) (className : Name) : MangleRecord :=
  ⟨record.given.filter (·.method.className == className)⟩

theorem mangled?_within (record : MangleRecord) (method : MethodRef) :
    (record.within method.className).mangled? method = record.mangled? method := by
  unfold mangled? within
  dsimp only
  rw [List.find?_filter]
  refine congrArg (fun test => (List.find? test record.given).map _) (funext fun entry => ?_)
  rw [Bool.eq_iff_iff, decide_eq_true_iff, beq_iff_eq, beq_iff_eq]
  exact ⟨fun both => both.2, fun same => ⟨congrArg _ same, same⟩⟩

theorem count_within (record : MangleRecord) (source : Name) :
    (record.within className).count className source = record.count className source := by
  unfold count within
  rw [List.countP_filter]
  refine List.countP_congr fun entry _ => ?_
  rw [Bool.and_right_comm, Bool.and_self]

/-- **A class is given its names by its own methods.** -/
theorem within_giveAll (methods : List (MethodRef × Name)) (record : MangleRecord) :
    (record.giveAll methods).within className =
      (record.within className).giveAll (methods.filter (·.1.className == className)) := by
  induction methods generalizing record with
  | nil => rfl
  | cons named rest step =>
    refine (step _).trans ?_
    rw [List.filter_cons]
    by_cases here : named.1.className = className
    · have given : (record.give named.1 named.2).within className =
          (record.within className).give named.1 named.2 := by
        subst here
        unfold give
        rw [count_within]
        exact congrArg MangleRecord.mk (List.filter_cons_of_pos (beq_self_eq_true _))
      rw [given, if_pos (beq_iff_eq.mpr here)]
      rfl
    · have kept : (record.give named.1 named.2).within className = record.within className :=
        congrArg MangleRecord.mk (List.filter_cons_of_neg (by rwa [beq_iff_eq]))
      rw [kept, if_neg (by rwa [beq_iff_eq])]

end MangleRecord

/-! ### Classes that are declared once -/

/-- No class is declared twice. -/
def Program.DeclaresOnce (units : List SourceUnit) : Prop :=
  ((units.flatMap (·.classes)).map (·.name)).Nodup

namespace ClassTable

variable {units others : List SourceUnit} {index : Nat} {unit : SourceUnit} {decl : ClassDecl}

/-- The outlines of the declarations do not show the positions of the units. -/
theorem outlines_entries (units : List SourceUnit) :
    (entries units).map (·.outline) = units.flatMap fun unit =>
      unit.classes.map fun decl => (entry 0 unit.package decl).outline := by
  unfold entries
  rw [List.map_flatMap]
  refine Eq.trans (congrArg (List.flatMap · _) (funext fun place => ?_)) (flatMap_zipIdx units _)
  exact List.map_map

theorem names_entries (units : List SourceUnit) :
    names ⟨entries units⟩ = (units.flatMap (·.classes)).map (·.name) := by
  have outlined : (entries units).map (·.name) =
      ((entries units).map (·.outline)).map (·.name) := by
    rw [List.map_map]
    rfl
  unfold names
  rw [outlined, outlines_entries, List.map_flatMap, List.map_flatMap]
  refine congrArg (List.flatMap · _) (funext fun unit => ?_)
  exact List.map_map

/-- **The tables answer alike.** -/
theorem tables_of_perm (perm : units.Perm others) (once : Program.DeclaresOnce units) :
    (ofUnits units).Alike (.ofUnits others) := by
  have distinct : (names ⟨entries units⟩).Nodup := names_entries units ▸ once
  have outlines : ((entries units).map (·.outline)).Perm ((entries others).map (·.outline)) := by
    rw [outlines_entries, outlines_entries]
    exact perm.flatMap_right _
  exact alike_ofUnits (map_class?_of_perm distinct outlines)

/-- The class of a declared name is the provided one or the declared one. -/
theorem class?_of_declared (once : Program.DeclaresOnce units) (here : units[index]? = some unit)
    (declared : decl ∈ unit.classes) :
    (ofUnits units).class? decl.name =
      ((class? ⟨provided⟩ decl.name).or (some (entry index unit.package decl))).map
        (·.withOverrides (unmarked units)) := by
  have distinct : (names ⟨entries units⟩).Nodup := names_entries units ▸ once
  have member : entry index unit.package decl ∈ entries units :=
    List.mem_flatMap.mpr ⟨(unit, index), List.mem_zipIdx_iff_getElem?.mpr here,
      List.mem_map_of_mem declared⟩
  have found : class? ⟨entries units⟩ decl.name = some (entry index unit.package decl) :=
    class?_of_mem distinct member
  rw [class?_ofUnits, List.find?_append]
  exact congrArg (fun answer => (Option.or _ answer).map _) found

/-- **A unit owns what it declares**, unless the run time provides a class of the name. -/
theorem owns_of_declared (once : Program.DeclaresOnce units) (here : units[index]? = some unit)
    (declared : decl ∈ unit.classes) :
    (ofUnits units).owns index decl.name = !contains ⟨provided⟩ decl.name := by
  unfold owns contains
  rw [class?_of_declared once here declared]
  cases given : class? ⟨provided⟩ decl.name with
  | none => exact beq_self_eq_true (some index)
  | some info =>
    have unowned : ∀ info ∈ provided, info.unit = none := by decide
    show (info.unit == some index) = false
    rw [unowned info (List.mem_of_find?_eq_some given)]
    rfl

/-- The initializers of a class that a unit owns are those of its declaration. -/
theorem of_of_declared (once : Program.DeclaresOnce units) (here : units[index]? = some unit)
    (declared : decl ∈ unit.classes) (owned : (ofUnits units).owns index decl.name = true) :
    (RawInitializers.ofTable (.ofUnits units)).of decl.name = decl.fields.map fun field =>
      ⟨field.name, field.type, decl.name, field.init, field.modifiers.isStatic⟩ := by
  rw [owns_of_declared once here declared, Bool.not_eq_true'] at owned
  have absent : class? ⟨provided⟩ decl.name = none :=
    Option.not_isSome_iff_eq_none.mp (ne_true_of_eq_false owned)
  rw [RawInitializers.of_ofTable, class?_of_declared once here declared, absent]
  exact List.map_map

end ClassTable

/-! ### Closed hierarchies -/

/-- Tables that answer alike have closed hierarchies alike. -/
theorem ClassTable.Alike.rooted {table other : ClassTable} (alike : table.Alike other)
    (rooted : table.Rooted) : other.Rooted := by
  intro name inside
  rw [← alike.contains] at inside
  obtain ⟨classes, lineage⟩ := rooted name inside
  refine ⟨classes, isLineage_of_complete ?_⟩
  rw [← alike.lineage]
  exact complete_of_isLineage lineage inside

namespace Program

variable {units others : List SourceUnit} {options : LoweringOptions}

/-! ### Names of methods -/

/-- The methods of a declaration that are given names, wherever it stands. -/
def renamedFrom (entryPoint : Name) (decl : ClassDecl) : List (MethodRef × Name) :=
  (decl.methods.zipIdx.filter (!MangleRecord.keepsName entryPoint decl.name ·.1)).map fun method =>
    (⟨decl.name, method.2⟩, method.1.name)

/-- The methods of one class that are given names are those of its declarations. -/
theorem flatMap_renamedFrom_filter (decls : List ClassDecl) (entryPoint className : Name) :
    (decls.flatMap (renamedFrom entryPoint)).filter (·.1.className == className) =
      (decls.filter (·.name == className)).flatMap (renamedFrom entryPoint) := by
  have each (decl : ClassDecl) :
      (renamedFrom entryPoint decl).filter (·.1.className == className) =
        if decl.name == className then renamedFrom entryPoint decl else [] := by
    unfold renamedFrom
    rw [List.filter_map]
    cases here : decl.name == className with
    | true => exact congrArg _ (List.filter_eq_self.mpr fun _ _ => here)
    | false =>
      exact congrArg _ (List.filter_eq_nil_iff.mpr fun _ _ => ne_true_of_eq_false here)
  induction decls with
  | nil => rfl
  | cons decl rest step =>
    rw [List.flatMap_cons, List.filter_append, step, each, List.filter_cons]
    cases decl.name == className <;> rfl

theorem renamed_filter (units : List SourceUnit) (entryPoint className : Name) :
    (renamed units entryPoint).filter (·.1.className == className) =
      (((placed units).map (·.decl)).filter (·.name == className)).flatMap
        (renamedFrom entryPoint) := by
  rw [← flatMap_renamedFrom_filter, List.flatMap_map]
  rfl

/-- The declarations that are lowered are those of which the run time provides no class. -/
theorem decls_placed (once : DeclaresOnce units) :
    (placed units).map (·.decl) =
      (units.flatMap (·.classes)).filter fun decl =>
        !ClassTable.contains ⟨ClassTable.provided⟩ decl.name := by
  unfold placed
  rw [List.map_flatMap, List.filter_flatMap]
  refine Eq.trans (List.flatMap_congr fun place member => ?_) (flatMap_zipIdx units _)
  have here := List.mem_zipIdx_iff_getElem?.mp member
  unfold placedIn
  rw [List.map_map]
  refine (List.map_id _).trans (List.filter_congr fun decl declared => ?_)
  exact ClassTable.owns_of_declared once here declared

theorem DeclaresOnce.of_perm (perm : units.Perm others) (once : DeclaresOnce units) :
    DeclaresOnce others :=
  ((perm.flatMap_right _).map _).nodup_iff.mp once

/-- **The methods are given the same names.** -/
theorem record_of_perm (perm : units.Perm others) (once : DeclaresOnce units)
    (options : LoweringOptions) :
    ((ofUnits units).mangle options .unchanged).record.Alike
      ((ofUnits others).mangle options .unchanged).record := by
  intro method
  have decls : ((placed units).map (·.decl)).Perm ((placed others).map (·.decl)) := by
    rw [decls_placed once, decls_placed (once.of_perm perm)]
    exact (perm.flatMap_right _).filter _
  have distinct : (((placed units).map (·.decl)).map (·.name)).Nodup := by
    rw [decls_placed once]
    exact List.Nodup.sublist (List.filter_sublist.map _) once
  have same : (renamed units options.entryPoint).filter (·.1.className == method.className) =
      (renamed others options.entryPoint).filter (·.1.className == method.className) := by
    rw [renamed_filter, renamed_filter, filter_eq_of_perm decls (·.name) distinct]
  rw [record_eq, record_eq, ← MangleRecord.mangled?_within, MangleRecord.within_giveAll, same,
    ← MangleRecord.within_giveAll, MangleRecord.mangled?_within]

/-- **The two programs look the same to every unit.** -/
theorem seenAlike_of_perm (perm : units.Perm others) (once : DeclaresOnce units)
    (options : LoweringOptions) {index position : Nat} {unit : SourceUnit}
    (here : units[index]? = some unit) (there : others[position]? = some unit) :
    SeenAlike units others options index position unit where
  here := here
  there := there
  tables := ClassTable.tables_of_perm perm once
  names := record_of_perm perm once options
  owns decl declared := by
    rw [ClassTable.owns_of_declared once here declared,
      ClassTable.owns_of_declared (once.of_perm perm) there declared]
  declared decl declared owned := by
    have ownedToo := owned
    rw [ClassTable.owns_of_declared once here declared,
      ← ClassTable.owns_of_declared (once.of_perm perm) there declared] at ownedToo
    rw [ClassTable.of_of_declared once here declared owned,
      ClassTable.of_of_declared (once.of_perm perm) there declared ownedToo]

/-! ### Facts -/

/-- The facts of a program are known if its hierarchy is closed. -/
theorem exists_facts (rooted : (ClassTable.ofUnits units).Rooted) (names : NameTable)
    (options : LoweringOptions) : ∃ facts, (ofUnits units).facts names options = .ok facts := by
  obtain ⟨chains, resolved⟩ := InitializerChains.exists_ofTable rooted names
  obtain ⟨vtables, built⟩ := VtableSet.exists_ofTable rooted
    ((ofUnits units).mangle options .unchanged).record
  refine ⟨⟨(ofUnits units).mangle options .unchanged, chains, vtables⟩, ?_⟩
  unfold facts Facts.ofProgram
  show InitializerChains.ofTable names (.ofUnits units) >>= _ = _
  rw [resolved]
  show VtableSet.ofTable (.ofUnits units) ((ofUnits units).mangle options .unchanged).record >>= _ =
    _
  rw [built]
  rfl

/-- **The facts are known in the other order, too.** -/
theorem facts_of_perm (perm : units.Perm others) (once : DeclaresOnce units)
    {names : NameTable} {facts : Facts}
    (computed : (ofUnits units).facts names options = .ok facts) (known : NameTable) :
    ∃ found, (ofUnits others).facts known options = .ok found := by
  have rooted := VtableSet.rooted_of_ofTable (vtables_of_facts computed)
  exact exists_facts ((ClassTable.tables_of_perm perm once).rooted rooted) known options

/-- The chains of all classes are resolved with a table of names that covers the program. -/
theorem resolves_of_covers {names : NameTable} {facts : Facts}
    (computed : (ofUnits units).facts names options = .ok facts) (covers : names.Covers units)
    (index : Nat) (unit : SourceUnit) : Resolves units facts index unit := by
  intro decl _ owned
  obtain ⟨_, found, _⟩ := ClassTable.owns_iff.mp owned
  obtain ⟨_, _, resolved⟩ :=
    resolved_of_covers computed covers (ClassTable.contains_of_class? found)
  unfold InitializerChains.instance?
  rw [resolved]
  rfl

end Program

/-! ### Runs -/

/-- The table of names of a run covers what the table before it covers. -/
theorem NameTable.Covers.runNames {names : NameTable} {units : List SourceUnit}
    (covers : names.Covers units) (options : CompileOptions) :
    (ObjectLowering.runNames names options units).Covers units :=
  fun name member => mem_mentionAll (.inl (covers name member))

/-- **A run comes to a result in the other order, too**, and to the same for each unit. -/
theorem compileUnits_of_perm {units others : List SourceUnit} (perm : units.Perm others)
    (once : Program.DeclaresOnce units) {names known : NameTable} (covers : names.Covers units)
    (coversToo : known.Covers others) {options : CompileOptions} {compiled : Compiled}
    (done : (compileUnits names options units).2 = .ok compiled) :
    ∃ found, (compileUnits known options others).2 = .ok found ∧
      ∀ index position unit, units[index]? = some unit → others[position]? = some unit →
        compiled.SameAt options found index position := by
  obtain ⟨facts, computed, each⟩ := ok_of_compileUnits done
  obtain ⟨factsToo, computedToo⟩ : ∃ found, (Program.ofUnits others).facts
      (runNames known options others) options.lower = .ok found :=
    Program.facts_of_perm perm once computed _
  have same {index position : Nat} {unit : SourceUnit} (here : units[index]? = some unit)
      (there : others[position]? = some unit) :=
    (Program.seenAlike_of_perm perm once options.lower here there).lowerUnit_congr computed
      computedToo (Program.resolves_of_covers computed (covers.runNames options) index unit)
      (Program.resolves_of_covers computedToo (coversToo.runNames options) position unit)
  obtain ⟨found, doneToo⟩ := exists_compileUnits computedToo fun position unit there => by
    obtain ⟨index, here⟩ := List.getElem?_of_mem (perm.mem_iff.mpr (List.mem_of_getElem? there))
    obtain ⟨tree, ran, _, printed⟩ := each index unit here
    exact ⟨tree, same here there ▸ ran, fun asked => (printed asked).imp fun _ files => files.1⟩
  refine ⟨found, doneToo, fun index position unit here there => ?_⟩
  obtain ⟨_, computedAgain, eachToo⟩ := ok_of_compileUnits doneToo
  cases computedToo.symm.trans computedAgain
  have second := eachToo position unit there
  rw [← same here there] at second
  exact (each index unit here).same second

theorem isOk_of_perm {units others : List SourceUnit} (perm : units.Perm others)
    (once : Program.DeclaresOnce units) {names known : NameTable} (covers : names.Covers units)
    (coversToo : known.Covers others) {options : CompileOptions}
    (succeeds : (compileUnits names options units).2.isOk = true) :
    (compileUnits known options others).2.isOk = true := by
  obtain ⟨_, done⟩ := exists_of_isOk succeeds
  obtain ⟨_, doneToo, _⟩ := compileUnits_of_perm perm once covers coversToo done
  rw [doneToo]
  rfl

/-! ### Programs as they are written -/

section Texts

open Written

variable {texts others : List UnitText} {units found : List SourceUnit}

/-- Units that are written in another order are numbered in another order. -/
theorem perm_of_number (perm : texts.Perm others)
    (numbered : texts.mapM UnitText.number = .ok units)
    (numberedToo : others.mapM UnitText.number = .ok found) : units.Perm found :=
  perm_of_forall₂ (fun _ _ _ first second => Except.ok.inj (first.symm.trans second)) perm
    (ok_of_mapM numbered) (ok_of_mapM numberedToo)

/-- Numbering declares no class twice. -/
theorem declaresOnce_of_number (once : ((texts.flatMap (·.classes)).map (·.name)).Nodup)
    (numbered : texts.mapM UnitText.number = .ok units) : Program.DeclaresOnce units := by
  have names := map_eq_of_forall₂ (ok_of_mapM numbered) fun text unit done =>
    (UnitText.names_number done).symm
  unfold Program.DeclaresOnce
  rwa [List.map_flatMap, List.flatMap_def, ← names, ← List.flatMap_def, ← List.map_flatMap]

/-- **Neither the order of the units nor the table of names matters.** Where no class is declared
twice, a program that is written in another order comes to a result exactly if it does in this one,
and each unit is lowered and printed in the same way. The tables may hold any other names, too. -/
theorem unit_order_immaterial (perm : texts.Perm others)
    (once : ((texts.flatMap (·.classes)).map (·.name)).Nodup)
    (numbered : texts.mapM UnitText.number = .ok units)
    (numberedToo : others.mapM UnitText.number = .ok found) {known knownToo : List String}
    (mentioned : texts.flatMap (·.mentions) ⊆ known)
    (mentionedToo : others.flatMap (·.mentions) ⊆ knownToo) (options : CompileOptions) :
    (compileUnits (.mentionAll .start known) options units).2.isOk =
        (compileUnits (.mentionAll .start knownToo) options found).2.isOk ∧
      ∀ {first second}, (compileUnits (.mentionAll .start known) options units).2 = .ok first →
        (compileUnits (.mentionAll .start knownToo) options found).2 = .ok second →
        ∀ index position text, texts[index]? = some text → others[position]? = some text →
          first.SameAt options second index position := by
  have reordered := perm_of_number perm numbered numberedToo
  have declared := declaresOnce_of_number once numbered
  have covers := NameTable.covers_mentionAll numbered mentioned
  have coversToo := NameTable.covers_mentionAll numberedToo mentionedToo
  refine ⟨?_, fun done doneToo index position text here there => ?_⟩
  · rw [Bool.eq_iff_iff]
    exact ⟨isOk_of_perm reordered declared covers coversToo,
      isOk_of_perm reordered.symm (declared.of_perm reordered) coversToo covers⟩
  · obtain ⟨second, doneAgain, same⟩ :=
      compileUnits_of_perm reordered declared covers coversToo done
    cases doneToo.symm.trans doneAgain
    obtain ⟨unit, stands, ran⟩ := getElem?_of_forall₂ (ok_of_mapM numbered) here
    obtain ⟨unitToo, standsToo, ranToo⟩ := getElem?_of_forall₂ (ok_of_mapM numberedToo) there
    cases ran.symm.trans ranToo
    exact same index position unit stands standsToo

/-- The class with a value as it is written. -/
def Written.UnitText.ticker : UnitText where
  path := "Ticker"
  dottedPackage := ""
  imports := []
  classes := [
    { name := "Ticker", parent := none
      fields := [⟨{}, .int, "count", some (.int 1)⟩]
      methods := [⟨{}, .int, some "next", [], [.ret (some (.ident "count"))], none⟩] }]

/-- The class below it as it is written. -/
def Written.UnitText.stepper : UnitText where
  path := "Stepper"
  dottedPackage := ""
  imports := []
  classes := [
    { name := "Stepper", parent := some "Ticker"
      fields := [⟨{}, .int, "step", some (.ident "count")⟩]
      methods := [
        ⟨{}, .int, some "next", [], [.ret (some (.call (some .super) "next" []))], none⟩] }]

theorem Written.UnitText.number_ticker : ticker.number = .ok .ticker := by cbv

theorem Written.UnitText.number_stepper : stepper.number = .ok .stepper := by cbv

theorem Written.UnitText.mentions_ticker :
    ticker.mentions = ["Ticker", "count", "count", "next"] := by cbv

theorem Written.UnitText.mentions_stepper :
    stepper.mentions = ["Stepper", "Ticker", "count", "step", "next", "next"] := by cbv

/-- A class becomes the same before and behind the one above it. -/
theorem unit_order_immaterial_stepper :
    ∃ first second,
      (compileUnits (.mentionAll .start ["Ticker", "count", "next", "Stepper", "step"]) {}
        [.ticker, .stepper]).2 = .ok first ∧
      (compileUnits (.mentionAll .start ["size", "step", "count", "next", "Stepper", "Ticker"]) {}
        [.stepper, .ticker]).2 = .ok second ∧
      first.SameAt {} second 1 0 := by
  have numbered : [UnitText.ticker, .stepper].mapM UnitText.number =
      .ok [.ticker, .stepper] := by
    rw [List.mapM_cons, List.mapM_cons, UnitText.number_ticker, UnitText.number_stepper]
    rfl
  have numberedToo : [UnitText.stepper, .ticker].mapM UnitText.number =
      .ok [.stepper, .ticker] := by
    rw [List.mapM_cons, List.mapM_cons, UnitText.number_ticker, UnitText.number_stepper]
    rfl
  have mentioned : [UnitText.ticker, .stepper].flatMap (·.mentions) ⊆
      ["Ticker", "count", "next", "Stepper", "step"] := by
    rw [List.flatMap_cons, List.flatMap_cons, UnitText.mentions_ticker,
      UnitText.mentions_stepper]
    decide +kernel
  have mentionedToo : [UnitText.stepper, .ticker].flatMap (·.mentions) ⊆
      ["size", "step", "count", "next", "Stepper", "Ticker"] := by
    rw [List.flatMap_cons, List.flatMap_cons, UnitText.mentions_ticker,
      UnitText.mentions_stepper]
    decide +kernel
  have both := unit_order_immaterial (.swap _ _ []) (by decide +kernel) numbered numberedToo
    mentioned mentionedToo {}
  obtain ⟨first, done⟩ := exists_of_isOk (show (compileUnits (.mentionAll .start
    ["Ticker", "count", "next", "Stepper", "step"]) {} [.ticker, .stepper]).2.isOk = true by
      decide +kernel)
  have succeeds := both.1.symm
  rw [done] at succeeds
  obtain ⟨second, doneToo⟩ := exists_of_isOk succeeds
  exact ⟨first, second, done, doneToo, both.2 done doneToo 1 0 .stepper rfl rfl⟩

end Texts

end ObjectLowering
