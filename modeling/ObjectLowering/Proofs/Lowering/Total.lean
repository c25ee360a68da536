/-
**A program whose facts are known is lowered.**

Each error of lowering is kept away by what an earlier stage left. A call with a target has its
dispatch kind on record; a virtual target is declared by some class, which has a slot for it; a
target that is not static takes the current receiver where none is written; and the chain and the
vtable of every class were built with the facts.

* `Program.callError?_eq_none`: no call of a class that counts ends in an error.
* `Program.classAdmits_of_facts`: nor does anything else that lowering such a class reads.
* `NameTable.Covers`, `NameTable.covers_mentionAll`: the table of names was filled from the program.
* **`lower_total`**: lowering gives a result, unless a list is too long to be numbered.
-/

import ObjectLowering.Proofs.Building.Units
import ObjectLowering.Proofs.Initializers.Chains
import ObjectLowering.Proofs.Lowering.LoweredClasses
import ObjectLowering.Proofs.Lowering.WholeClasses
import ObjectLowering.Proofs.Resolution.Dispatch
import ObjectLowering.Proofs.Resolution.Numbering

namespace ObjectLowering

open Source (SourceUnit ClassDecl)
open Lowering

/-! ### What the facts of a program hold -/

namespace Program

variable {units : List SourceUnit} {names : NameTable} {options : LoweringOptions} {facts : Facts}

theorem mangle_of_facts (computed : (ofUnits units).facts names options = .ok facts) :
    facts.mangle = (ofUnits units).mangle options .unchanged := by
  obtain ⟨_, _, computed⟩ := ok_of_bind computed
  obtain ⟨_, _, computed⟩ := ok_of_bind computed
  cases computed
  rfl

theorem chains_of_facts (computed : (ofUnits units).facts names options = .ok facts) :
    InitializerChains.ofTable names (.ofUnits units) = .ok facts.chains := by
  obtain ⟨_, resolved, computed⟩ := ok_of_bind computed
  obtain ⟨_, _, computed⟩ := ok_of_bind computed
  cases computed
  exact resolved

/-- The calls of a unit are resolved with its true facade. -/
theorem sites_of_facts (computed : (ofUnits units).facts names options = .ok facts) {index : Nat}
    {unit : SourceUnit} (here : units[index]? = some unit) :
    facts.mangle.sites index =
      .ofUnit (facadeAt units index unit) facts.mangle.record index unit := by
  rw [mangle_of_facts computed]
  unfold MangleTable.sites
  rw [sites_ofUnits options here]
  rfl

end Program

/-! ### Errors of nodes -/

namespace Lowering

variable {context : Context} {tag : Source.Tag} {receiver : Option Source.Expr} {method : Name}

/-- A call without a target is no error, unless such calls are refused. -/
theorem callError?_of_unresolved (absent : context.sites.get? tag.id = none)
    (lenient : context.options.strict = false) :
    callError? context tag receiver method = none := by
  unfold callError?
  split
  · rfl
  · rw [absent]
    exact if_neg (by rw [lenient]; exact Bool.false_ne_true)

/-- A call whose target and way were found alike ends in no error if a virtual target has a slot: a
target that is not static takes the current receiver where none is written. -/
theorem callError?_of_resolved {target : MethodRef} {name : Name} {flags : MethodFlags}
    {viaSuper : Bool}
    (site : context.sites.get? tag.id = some ⟨target, name, receiver.isNone && !flags.isStatic⟩)
    (way : context.facade.dispatch tag.id = some (.classify flags viaSuper))
    (listed : flags.isVirtual = true → slotError? context tag.span
      ⟨target, name, receiver.isNone && !flags.isStatic⟩ = none) :
    callError? context tag receiver method = none := by
  have received (dynamic : DispatchKind.classify flags viaSuper ≠ .static) : receiverError? tag
      receiver ⟨target, name, receiver.isNone && !flags.isStatic⟩ = none := by
    rw [Ne, DispatchKind.classify_eq_static, Bool.not_eq_true] at dynamic
    unfold receiverError?
    dsimp only
    rw [dynamic]
    cases receiver <;> rfl
  unfold callError?
  split
  · rfl
  · rw [site, way]
    dsimp only
    cases kind : DispatchKind.classify flags viaSuper with
    | static => rfl
    | direct => exact received (by rw [kind]; decide)
    | virtual =>
      dsimp only
      rw [listed (DispatchKind.isVirtual_of_classify kind.symm), Option.none_or]
      exact received (by rw [kind]; decide)

end Lowering

/-- Every array creation of the unit has a sized dimension. -/
def Source.SourceUnit.IsSized (unit : SourceUnit) : Prop :=
  ∀ tag element dims extra, Expr.newArray tag element dims extra ∈ unit.reachable → dims ≠ []

/-- The table of names has the name of every class of the program. -/
def NameTable.Covers (names : NameTable) (units : List SourceUnit) : Prop :=
  ∀ name ∈ (ClassTable.ofUnits units).names, name ∈ names.texts

namespace Program

variable {units : List SourceUnit} {names : NameTable} {options : LoweringOptions} {facts : Facts}
  {place : PlacedClass}

/-- **A virtual target of a call has a slot**, that of the class which declares it. -/
theorem slotError?_eq_none (computed : (ofUnits units).facts names options = .ok facts)
    {index : Nat} {unit : SourceUnit} {className : Option Name} {method : Name}
    {args : List (Option Ty)} {target : MethodRef} {info : MethodInfo}
    (found : (ClassTable.ofUnits units).target? className method args = some (target, info))
    (isVirtual : info.flags.isVirtual = true) (span : Span) (name : Name) (needsSelf : Bool) :
    slotError? (contextAt units facts options index unit) span ⟨target, name, needsSelf⟩ =
      none := by
  cases className with
  | none => cases found
  | some className =>
    obtain ⟨decl, above, named, declared, entry⟩ := ClassTable.declared_of_target? found
    obtain ⟨_, _, slot, _, listed, _⟩ := VtableSet.slotFor?_of_declared (vtables_of_facts computed)
      (ClassTable.class?_of_mem_ancestors above) declared isVirtual
    have read : (contextAt units facts options index unit).facade.method target = some info := entry
    have there : (contextAt units facts options index unit).facts.vtables.slotFor? target.className
        info.name info.params = some slot := named ▸ listed
    unfold slotError?
    dsimp only
    rw [read]
    dsimp only
    rw [there]

/-- **No call of a class that counts ends in an error**, unless calls without a target are
refused. -/
theorem callError?_eq_none (computed : (ofUnits units).facts names options = .ok facts)
    (lenient : options.strict = false) (counts : place ∈ placed units)
    (forest : place.unit.IsForest) {tag : Source.Tag} {receiver : Option Source.Expr}
    {method : Name} {args : List Source.Expr}
    (reached : .call tag receiver method args ∈ place.decl.nodes) :
    callError? (contextAt units facts options place.index place.unit) tag receiver method =
      none := by
  obtain ⟨here, declared, owned⟩ := mem_placed.mp counts
  obtain ⟨_, described, call⟩ :=
    Annotations.accounts_ofUnit (.ofUnits units) forest declared owned _ reached
  have site := CallSites.get?_ofUnit (facadeAt units place.index place.unit) facts.mangle.record
    forest declared owned reached
  rw [← sites_of_facts computed here] at site
  have site := site.trans (Annotations.resolveCall_eq described facts.mangle.record method args)
  unfold Annotations.callInfo? at call
  cases found : Annotations.target? (.ofUnits units) (.ofUnit (.ofUnits units) place.index
    place.unit) place.decl.name receiver method args with
  | none =>
    rw [found] at site
    exact callError?_of_unresolved site lenient
  | some target =>
    rw [found] at site call
    have way := congrArg (Option.map (fun call : CallInfo => call.dispatch)) call
    exact callError?_of_resolved site way fun isVirtual =>
      slotError?_eq_none computed found isVirtual _ _ _

/-- The expressions of a class that counts end in no errors. -/
theorem admitsAll_nodes (computed : (ofUnits units).facts names options = .ok facts)
    (lenient : options.strict = false) (counts : place ∈ placed units)
    (forest : place.unit.IsForest) (sized : place.unit.IsSized) :
    AdmitsAll (contextAt units facts options place.index place.unit) (fun _ => False) true
      place.decl.nodes := by
  obtain ⟨_, declared, _⟩ := mem_placed.mp counts
  refine fun node member => ⟨fun error ends => ?_, fun _ => rfl⟩
  cases node with
  | call tag receiver method args =>
    have none := callError?_eq_none computed lenient counts forest member
    cases none.symm.trans ends
  | newArray tag element dims extra =>
    cases dims with
    | nil => exact sized tag element [] extra (List.mem_flatMap.mpr ⟨_, declared, member⟩) rfl
    | cons _ _ => cases ends
  | _ => cases ends

/-- The expressions of a value stand in a declaration that counts in the same unit. -/
def Hosts (units : List SourceUnit) (place : PlacedClass) (value : Source.Expr) : Prop :=
  ∃ decl, ⟨place.index, place.unit, decl⟩ ∈ placed units ∧ ∀ node ∈ value.nodes, node ∈ decl.nodes

/-- The initializers that the table has for a class stand in a declaration of its name that counts
in the same unit. -/
theorem hosts_of_field (counts : place ∈ placed units) {info : ClassInfo}
    (found : (ClassTable.ofUnits units).class? place.decl.name = some info) {field : FieldInfo}
    (stored : field ∈ info.fields) {value : Source.Expr} (given : field.init = some value) :
    Hosts units place value := by
  obtain ⟨here, _, owned⟩ := mem_placed.mp counts
  obtain ⟨unit, there, decl, declared, named, entry⟩ := ClassTable.declared_of_owns owned
  cases here.symm.trans there
  cases found.symm.trans entry
  obtain ⟨written, declares, rfl⟩ := List.mem_map.mp stored
  refine ⟨decl, mem_placed.mpr ⟨here, declared, named ▸ owned⟩, fun node member => ?_⟩
  refine List.mem_append_left _ ?_
  rw [Source.Expr.nodesOfList_eq_flatMap]
  exact List.mem_flatMap.mpr ⟨value, List.mem_filterMap.mpr ⟨written, declares, given⟩, member⟩

theorem hosts_of_ownValues (computed : (ofUnits units).facts names options = .ok facts)
    (counts : place ∈ placed units) {chain : List (Initializer Source.Expr)}
    (resolved : facts.chains.instance? place.decl.name = some chain) {field : Name × Source.Expr}
    (member : field ∈ ownValues place.decl.name chain) : Hosts units place field.2 := by
  obtain ⟨lineage, _, rfl⟩ :=
    InitializerChains.lineage_of_instance? (chains_of_facts computed) resolved
  obtain ⟨info, found, stored, isField, _, given⟩ := init_of_mem_ownValues member
  exact hosts_of_field counts found isField given

theorem hosts_of_statics (computed : (ofUnits units).facts names options = .ok facts)
    (counts : place ∈ placed units) {init : Initializer Source.Expr}
    (member : init ∈ facts.chains.statics place.decl.name) {value : Source.Expr}
    (given : init.value = some value) : Hosts units place value := by
  unfold InitializerChains.statics at member
  cases resolved : facts.chains.class? place.decl.name with
  | none =>
    rw [resolved] at member
    cases member
  | some entry =>
    rw [resolved] at member
    obtain ⟨_, _, rfl⟩ := InitializerChains.entry_of_class? (chains_of_facts computed) resolved
    obtain ⟨among, _⟩ := List.mem_filter.mp member
    obtain ⟨info, found, _, field, stored, rfl⟩ := RawInitializers.mem_of_ofTable among
    exact hosts_of_field counts found stored given

/-- Every class has a chain, if the table of names has its name. -/
theorem resolved_of_covers (computed : (ofUnits units).facts names options = .ok facts)
    (covers : names.Covers units) {name : Name}
    (inside : (ClassTable.ofUnits units).contains name = true) :
    ∃ lineage, IsLineage (ClassTable.ofUnits units).parentMap name lineage ∧
      facts.chains.class? name = some ⟨name, chainOf (.ofTable (.ofUnits units)) lineage,
        ((RawInitializers.ofTable (.ofUnits units)).of name).filter (·.isStatic)⟩ := by
  have listed := ClassTable.contains_iff_mem_names.mp inside
  refine InitializerChains.class?_of_resolve (chains_of_facts computed) ?_
  exact List.mem_filter.mpr ⟨covers _ listed,
    decide_eq_true (ClassTable.mem_classes_parentMap.mpr inside)⟩

/-- **Lowering a class that counts reads nothing that ends in an error.** -/
theorem classAdmits_of_facts (computed : (ofUnits units).facts names options = .ok facts)
    (lenient : options.strict = false) (covers : names.Covers units)
    (counts : place ∈ placed units) (forest : place.unit.IsForest) (sized : place.unit.IsSized) :
    ClassAdmits (contextAt units facts options place.index place.unit) (fun _ => False)
      place.decl := by
  obtain ⟨here, declared, owned⟩ := mem_placed.mp counts
  obtain ⟨_, found, _⟩ := ClassTable.owns_iff.mp owned
  have inside := ClassTable.contains_of_class? found
  obtain ⟨lineage, _, resolved⟩ := resolved_of_covers computed covers inside
  have values {value : Source.Expr} (hosted : Hosts units place value) :
      AdmitsAll (contextAt units facts options place.index place.unit) (fun _ => False) true
        value.nodes := by
    obtain ⟨decl, countsToo, among⟩ := hosted
    exact fun node member =>
      admitsAll_nodes computed lenient countsToo forest sized node (among node member)
  have chain := congrArg (Option.map fun found => found.instanceFields) resolved
  refine ⟨admitsAll_nodes computed lenient counts forest sized, ⟨_, chain, ?_⟩, ?_, ?_⟩
  · exact fun field member => values (hosts_of_ownValues computed counts chain member)
  · exact fun init member value given => values (hosts_of_statics computed counts member given)
  · obtain ⟨classes, _, built⟩ := VtableSet.get?_of_contains (vtables_of_facts computed) inside
    exact ⟨_, built⟩

end Program

/-! ### Units -/

/-- A step that ends in no error has a result, unless a list is too long. -/
theorem Lowering.Ends.total {α : Type} {step : Except LoweringFailure α} {property : α → Prop}
    (ends : Ends (fun _ => False) step property) :
    (∃ value, step = .ok value) ∨ ∃ refusal, step = .error (.listTooLong refusal) := by
  cases step with
  | ok value => exact .inl ⟨value, rfl⟩
  | error failure =>
    cases failure with
    | error error => exact ends.elim
    | listTooLong refusal => exact .inr ⟨refusal, rfl⟩

section Units

variable {index : Nat} {unit : SourceUnit} {facade : Facade} {facts : Facts}
  {options : LoweringOptions} {errors : LoweringError → Prop}

/-- The classes of a unit are whole if each of them is. -/
theorem ends_lowerClasses (context : Context)
    (each : ∀ decl ∈ unit.classes.filter (context.facade.owns index ·.name),
      Ends errors (lowerClass context decl) Lowered.ClassLayout.Formed) :
    Ends errors (lowerClasses context index unit)
      fun lowered => ∀ layout ∈ lowered.classes, layout.Formed :=
  (Ends.mapM each).bind fun _ formed => Ends.pure formed

/-- A unit is lowered if its classes are whole. -/
theorem ends_lowerUnit_of_classes
    (each : ∀ decl ∈ unit.classes.filter (facade.owns index ·.name),
      Ends errors (lowerClass ⟨facade, facts.mangle.sites index, facts, options⟩ decl)
        Lowered.ClassLayout.Formed) :
    Ends errors (lowerUnit index unit facade facts options)
      fun lowered => ∀ layout ∈ lowered.classes, layout.Formed :=
  ends_lowerClasses _ each

/-- A unit is lowered if its classes admit no other errors. -/
theorem ends_lowerUnit (admits : ∀ decl ∈ unit.classes.filter (facade.owns index ·.name),
      ClassAdmits ⟨facade, facts.mangle.sites index, facts, options⟩ errors decl) :
    Ends errors (lowerUnit index unit facade facts options)
      fun lowered => ∀ layout ∈ lowered.classes, layout.Formed :=
  ends_lowerUnit_of_classes fun decl member => ends_lowerClass (admits decl member)

/-- **A unit that was lowered is whole.** -/
theorem formed_of_lowerUnit {lowered : Lowered.TreeUnit}
    (done : lowerUnit index unit facade facts options = .ok lowered) :
    ∀ layout ∈ lowered.classes, layout.Formed := by
  have ends : Ends (fun _ => True) (lowerUnit index unit facade facts options)
      fun lowered => ∀ layout ∈ lowered.classes, layout.Formed :=
    ends_lowerUnit_of_classes fun decl _ => ends_lowerClass_always decl
  rw [done] at ends
  exact ends

end Units

theorem lowerUnits_total {facts : Facts} {options : LoweringOptions}
    {parts : List (SourceUnit × Facade)} {start : Nat}
    (each : ∀ part ∈ parts.zipIdx start, Ends (fun _ => False)
      (lowerUnit part.2 part.1.1 part.1.2 facts options)
        fun lowered => ∀ layout ∈ lowered.classes, layout.Formed) :
    (∃ lowered, lowerUnits facts options start parts = .ok lowered) ∨
      ∃ path refusal, lowerUnits facts options start parts =
        .error ⟨path, .listTooLong refusal⟩ := by
  induction parts generalizing start with
  | nil => exact .inl ⟨[], rfl⟩
  | cons part rest step =>
    rw [List.zipIdx_cons, List.forall_mem_cons] at each
    obtain ⟨unit, facade⟩ := part
    unfold lowerUnits
    rcases each.1.total with ⟨first, here⟩ | ⟨refusal, here⟩
    · dsimp only at here
      rw [here]
      rcases step each.2 with ⟨others, there⟩ | ⟨path, refusal, there⟩
      · rw [there]
        exact .inl ⟨first :: others, rfl⟩
      · rw [there]
        exact .inr ⟨path, refusal, rfl⟩
    · dsimp only at here
      rw [here]
      exact .inr ⟨unit.path, refusal, rfl⟩

/-! ### The table of names -/

/-- Numbering a unit keeps the names of its classes. -/
theorem Written.UnitText.names_number {text : UnitText} {unit : SourceUnit}
    (done : text.number = .ok unit) : unit.classes.map (·.name) = text.classes.map (·.name) := by
  obtain ⟨⟨classes, state⟩, first, built⟩ := ok_of_bind done
  cases built
  have each := run_of_mapM first
  clear first done
  show classes.map (·.name) = text.classes.map (·.name)
  generalize text.classes = written at each ⊢
  induction each with
  | nil => rfl
  | @cons _ decl _ _ here _ step =>
    obtain ⟨_, _, done⟩ := here
    unfold ClassText.number at done
    obtain ⟨_, _, _, done⟩ := run_of_bind done
    obtain ⟨_, _, _, done⟩ := run_of_bind done
    obtain ⟨_, _, _, done⟩ := run_of_bind done
    cases done
    rw [List.map_cons, List.map_cons, step]

namespace NameTable

theorem mem_mentionAll {texts : List String} {text : String} :
    ∀ {names : NameTable}, text ∈ names.texts ∨ text ∈ texts →
      text ∈ (names.mentionAll texts).texts := by
  induction texts with
  | nil => exact fun known => known.resolve_right List.not_mem_nil
  | cons first rest step =>
    intro names known
    refine step ?_
    obtain ⟨added, grown⟩ := names.texts_mention first
    rcases known with old | new
    · rw [grown]
      exact .inl (List.mem_append_left _ old)
    · rcases List.mem_cons.mp new with rfl | behind
      · exact .inl (names.mem_mention text)
      · exact .inr behind

/-- **A table in which written units were mentioned covers them**, whatever else was mentioned. -/
theorem covers_mentionAll {texts : List Written.UnitText} {units : List SourceUnit}
    {mentioned : List String} (numbered : texts.mapM Written.UnitText.number = .ok units)
    (among : texts.flatMap (·.mentions) ⊆ mentioned) :
    (start.mentionAll mentioned).Covers units := by
  intro name member
  refine mem_mentionAll ?_
  rw [ClassTable.names_ofUnits] at member
  rcases List.mem_append.mp member with given | counted
  · have always : ∀ name ∈ ClassTable.names ⟨ClassTable.provided⟩, name ∈ Reserved.all := by decide
    exact .inl (always name given)
  · obtain ⟨info, kept, rfl⟩ := List.mem_map.mp counted
    obtain ⟨index, unit, here, decl, declared, rfl⟩ := ClassTable.declared_of_mem_counted kept
    obtain ⟨text, written, done⟩ :=
      exists_of_mem_right (ok_of_mapM numbered) (List.mem_of_getElem? here)
    have named : decl.name ∈ text.classes.map (·.name) := by
      rw [← Written.UnitText.names_number done]
      exact List.mem_map_of_mem declared
    obtain ⟨decl', declares, same⟩ := List.mem_map.mp named
    refine .inr (among (List.mem_flatMap.mpr ⟨text, written, List.mem_append_right _ ?_⟩))
    refine List.mem_flatMap.mpr ⟨decl', declares, ?_⟩
    rw [show (ClassTable.entry index unit.package decl).name = decl'.name from same.symm]
    exact List.mem_cons_self

end NameTable

section Programs

variable {units : List SourceUnit} {names : NameTable} {options : LoweringOptions} {facts : Facts}
  (computed : (Program.ofUnits units).facts names options = .ok facts)

include computed

/-- No unit of a program whose facts could be computed ends in an error. -/
theorem Program.lower_of_facts (forest : ∀ unit ∈ units, unit.IsForest)
    (sized : ∀ unit ∈ units, unit.IsSized) (lenient : options.strict = false)
    (covers : names.Covers units) :
    (∃ lowered, (ofUnits units).lower facts options = .ok lowered) ∨
      ∃ path refusal, (ofUnits units).lower facts options =
        .error ⟨path, .listTooLong refusal⟩ := by
  unfold lower
  refine lowerUnits_total fun part member => ?_
  rw [zipIdx_parts] at member
  obtain ⟨⟨unit, index⟩, here, rfl⟩ := List.mem_map.mp member
  have inside : unit ∈ units := List.fst_mem_of_mem_zipIdx here
  refine ends_lowerUnit fun decl kept => ?_
  have counts : ⟨index, unit, decl⟩ ∈ placed units :=
    mem_placed.mpr ⟨List.mem_zipIdx_iff_getElem?.mp here, List.mem_filter.mp kept⟩
  have admits := classAdmits_of_facts computed lenient covers counts (forest unit inside)
    (sized unit inside)
  unfold contextAt at admits
  exact admits

/-- A program that is refused for lists at most is built, unless an arena has no place left. -/
theorem Program.build_of_lower
    (lowers : (∃ lowered, (ofUnits units).lower facts options = .ok lowered) ∨
      ∃ path refusal, (ofUnits units).lower facts options =
        .error ⟨path, .listTooLong refusal⟩) :
    (∃ built, (ofUnits units).build facts options = .ok built) ∨
      ∃ path refusal, (ofUnits units).build facts options = .error ⟨path, .refused refusal⟩ := by
  have agrees := @Building.agrees_build facts options
    (VtableSet.aligned (vtables_of_facts computed)) (ofUnits units)
  cases run : (ofUnits units).build facts options with
  | ok built => exact .inl ⟨built, rfl⟩
  | error stop =>
    rw [run] at agrees
    obtain ⟨path, failure⟩ := stop
    cases failure with
    | refused refusal => exact .inr ⟨path, refusal, rfl⟩
    | violation violation => exact agrees.elim
    | error error =>
      rcases lowers with ⟨_, lowered⟩ | ⟨_, _, lowered⟩ <;> cases agrees.symm.trans lowered

end Programs

/-- **Lowering succeeds on every program whose facts could be computed**: in no unit does it end in
an error, only lists may be too long to be numbered. So does building the program in arenas, each of
which may be full as well. -/
theorem lower_total {units : List SourceUnit} {names : NameTable} {options : LoweringOptions}
    {facts : Facts} (forest : ∀ unit ∈ units, unit.IsForest)
    (sized : ∀ unit ∈ units, unit.IsSized) (lenient : options.strict = false)
    (covers : names.Covers units)
    (computed : (Program.ofUnits units).facts names options = .ok facts) :
    ((∃ lowered, (Program.ofUnits units).lower facts options = .ok lowered) ∨
      ∃ path refusal, (Program.ofUnits units).lower facts options =
        .error ⟨path, .listTooLong refusal⟩) ∧
    ((∃ built, (Program.ofUnits units).build facts options = .ok built) ∨
      ∃ path refusal, (Program.ofUnits units).build facts options =
        .error ⟨path, .refused refusal⟩) :=
  have lowers := Program.lower_of_facts computed forest sized lenient covers
  ⟨lowers, Program.build_of_lower computed lowers⟩

theorem Source.SourceUnit.isSized_shapes : shapes.IsSized := by
  intro tag element dims extra member
  have all : shapes.reachable = shapes.nodes.toList := rfl
  rw [all] at member
  simp [shapes] at member

/-- Two classes and a virtual call between them are lowered. -/
theorem lower_total_shapes :
    ∃ facts, (Program.ofUnits [.shapes]).facts
        ⟨["Object", "String", "Class", "Shape", "Square"]⟩ {} = .ok facts ∧
      ((∃ lowered, (Program.ofUnits [.shapes]).lower facts {} = .ok lowered) ∨
        ∃ path refusal, (Program.ofUnits [.shapes]).lower facts {} =
          .error ⟨path, .listTooLong refusal⟩) ∧
      ((∃ built, (Program.ofUnits [.shapes]).build facts {} = .ok built) ∨
        ∃ path refusal, (Program.ofUnits [.shapes]).build facts {} =
          .error ⟨path, .refused refusal⟩) := by
  obtain ⟨facts, computed⟩ := exists_of_isOk (show ((Program.ofUnits [.shapes]).facts
    ⟨["Object", "String", "Class", "Shape", "Square"]⟩ {}).isOk = true by decide +kernel)
  refine ⟨facts, computed, lower_total ?_ ?_ rfl ?_ computed⟩
  · rw [List.forall_mem_singleton]
    exact Source.SourceUnit.isForest_shapes
  · rw [List.forall_mem_singleton]
    exact Source.SourceUnit.isSized_shapes
  · unfold NameTable.Covers
    decide +kernel

end ObjectLowering
