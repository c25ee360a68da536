/-
**What vtables and calls by class name is there.**

A name is given to a method when it is declared. A vtable carries it on to the classes below, a call
carries it with its target, and lowering the method puts it on the routine. So each of them finds
the routine of its method in the layout of the class that declares it.

* `Implements` says that a routine is what a method was lowered to.
* `Program.implements_methods`: a layout has the routines of its class's methods, in order.
* `Program.named?_of_declared`: a method is the first that its class lowers under its name.
* `Reaches` says that a class and a name lead to a routine.
* `Program.reaches_of_declared`: the name of a method leads to its routine.
* **`bindings_and_calls_reach`**: so do the bindings of every vtable and the calls by class.
-/

import ObjectLowering.Proofs.Calls.CallTargets
import ObjectLowering.Proofs.Naming.MangledNames

namespace ObjectLowering

open Source (SourceUnit)
open Lowering (Context Gives inRoutine lowerMethod)

/-- The routine is what the method was lowered to. -/
structure Implements (record : MangleRecord) (method : MethodRef × MethodInfo)
    (routine : Lowered.Method Lowered.Stmt) : Prop where
  name : routine.name = record.implName method
  source : routine.source = method.2.name
  owner : routine.owner = method.1.className
  kind : routine.kind = .instanceMethod ↔ method.2.flags.isStatic = false
  params : routine.params.map (·.type) =
    (if method.2.flags.isStatic then [] else [.class method.1.className]) ++ method.2.params

/-- A method is lowered to a routine of its own name, kind and parameters. -/
theorem implements_of_lowerMethod {context : Context} {owner : Name} {decl : Source.MethodDecl}
    {info : MethodInfo} (isOf : info.IsOf owner decl) {index : Nat}
    {routine : Lowered.Method Lowered.Stmt}
    (done : inRoutine (lowerMethod context owner index decl) = .ok routine) :
    Implements context.facts.mangle.record (⟨owner, index⟩, info) routine := by
  have ensures : Lowering.Ensures (lowerMethod context owner index decl)
      (Implements context.facts.mangle.record (⟨owner, index⟩, info)) := by
    unfold lowerMethod
    refine .after fun body => .pure ?_
    have mode : Lowering.modeOf context decl = .instanceMethod ↔ info.flags.isStatic = false := by
      rw [isOf.isStatic]
      exact Lowering.modeOf_eq_instanceMethod
    constructor
    · unfold MangleRecord.implName
      rw [isOf.name]
    · exact isOf.name.symm
    · rfl
    · rw [← mode]
      show Lowering.kindOf (Lowering.modeOf context decl) = .instanceMethod ↔ _
      cases Lowering.modeOf context decl <;> decide
    · dsimp only
      rw [isOf.params]
      cases isStatic : info.flags.isStatic with
      | false =>
        rw [if_pos (mode.mpr isStatic)]
        rfl
      | true =>
        rw [if_neg fun same => Bool.noConfusion (isStatic.symm.trans (mode.mp same))]
        rfl
  obtain ⟨⟨_, stop⟩, ran, same⟩ := ok_of_map done
  cases same
  exact ensures 0 _ stop ran

/-- The methods of a class that are lowered as methods: all but its constructors. -/
def ClassInfo.plainMethods (info : ClassInfo) : List (MethodRef × MethodInfo) :=
  info.declaredMethods.filter (!·.2.flags.isConstructor)

/-- The first method of a class that is lowered under a name. -/
def ClassInfo.named? (info : ClassInfo) (record : MangleRecord) (name : Name) :
    Option (MethodRef × MethodInfo) :=
  info.plainMethods.find? (record.implName · == name)

/-- The name leads to the routine in the layout of the class: it stands there, and it is the first
of the name unless the name is that of the entry point, which several methods may keep. -/
def Reaches (layouts : List (Lowered.ClassLayout Lowered.Expr Lowered.Stmt))
    (entryPoint className name : Name) (routine : Lowered.Method Lowered.Stmt) : Prop :=
  ∃ layout, layouts.find? (·.name == className) = some layout ∧ routine ∈ layout.methods ∧
    routine.name = name ∧ (name ≠ entryPoint → layout.method? name = some routine)

namespace Program

variable {units : List SourceUnit} {names : NameTable} {options : LoweringOptions} {facts : Facts}
  {lowered : List Lowered.TreeUnit} {name : Name} {info : ClassInfo}

/-- **A layout has the routines of its class's methods, in order.** -/
theorem implements_methods {layout : Lowered.ClassLayout Lowered.Expr Lowered.Stmt}
    {place : PlacedClass} (laid : LayoutOf units facts options info layout place) :
    List.Forall₂ (Implements facts.mangle.record) info.plainMethods layout.methods := by
  obtain ⟨_, entry, lays⟩ := laid
  have plain : info.plainMethods =
      (place.decl.methods.zipIdx.filter (!·.1.isConstructorOf place.decl.name)).map fun method =>
        (⟨place.decl.name, method.2⟩, place.methodInfo (ClassTable.unmarked units) method.1) := by
    unfold ClassInfo.plainMethods
    rw [entry, PlacedClass.declaredMethods_entry, List.filter_map]
    refine congrArg _ (List.filter_congr fun method _ => ?_)
    exact congrArg not (place.isOf_methodInfo _ method.1).isConstructor
  rw [plain, List.forall₂_map_left_iff]
  refine lays.methods.imp fun method routine ran => ?_
  have implements := implements_of_lowerMethod
    (place.isOf_methodInfo (ClassTable.unmarked units) method.1) ran
  exact implements

section Layout

variable {layout : Lowered.ClassLayout Lowered.Expr Lowered.Stmt} {place : PlacedClass}
  {method : MethodRef × MethodInfo}

/-- The first method of a name is lowered to the first routine of the name. -/
theorem method?_of_named? (laid : LayoutOf units facts options info layout place)
    (first : info.named? facts.mangle.record name = some method) :
    ∃ routine, layout.method? name = some routine ∧
      Implements facts.mangle.record method routine :=
  find?_of_forall₂ (implements_methods laid)
    (fun _ _ implements => congrArg (· == name) implements.name.symm) first

/-- The first routine of a name is what the first method of the name was lowered to. -/
theorem named?_of_method? (laid : LayoutOf units facts options info layout place)
    {routine : Lowered.Method Lowered.Stmt} (here : layout.method? name = some routine) :
    ∃ method, info.named? facts.mangle.record name = some method ∧
      Implements facts.mangle.record method routine :=
  find?_of_forall₂ (implements_methods laid).flip
    (fun _ _ implements => congrArg (· == name) implements.name) here

/-- **A method is the first of its name**, if the name is not that of the entry point. -/
theorem named?_of_declared (computed : (ofUnits units).facts names options = .ok facts)
    (found : (ClassTable.ofUnits units).class? name = some info) (user : info.isProvided = false)
    (declared : method ∈ info.declaredMethods) (isMethod : method.2.flags.isConstructor = false)
    (notEntry : facts.mangle.record.implName method ≠ options.entryPoint) :
    info.named? facts.mangle.record (facts.mangle.record.implName method) = some method := by
  have known : (info.named? facts.mangle.record (facts.mangle.record.implName method)).isSome :=
    List.find?_isSome.mpr
      ⟨method, List.mem_filter.mpr ⟨declared, by rw [isMethod]; rfl⟩, beq_self_eq_true _⟩
  obtain ⟨other, first⟩ := Option.isSome_iff_exists.mp known
  obtain ⟨declaredToo, isMethodToo⟩ := List.mem_filter.mp (List.mem_of_find?_eq_some first)
  have sameName := List.find?_some first
  rw [beq_iff_eq] at sameName
  rw [mangle_of_facts computed] at sameName notEntry
  rw [first, eq_of_implName found user declaredToo declared ((Bool.not_eq_true' _).mp isMethodToo)
    isMethod sameName (sameName ▸ notEntry)]

end Layout

/-- **The name of a method leads to its routine.** -/
theorem reaches_of_declared (computed : (ofUnits units).facts names options = .ok facts)
    (done : (ofUnits units).lower facts options = .ok lowered)
    (found : (ClassTable.ofUnits units).class? name = some info) (user : info.isProvided = false)
    {method : MethodRef × MethodInfo} (declared : method ∈ info.declaredMethods)
    (isMethod : method.2.flags.isConstructor = false) :
    ∃ routine, Implements facts.mangle.record method routine ∧
      Reaches (lowered.flatMap (·.classes)) options.entryPoint name
        (facts.mangle.record.implName method) routine := by
  obtain ⟨layout, place, first, laid⟩ := layout_of_class? done found user
  by_cases entry : facts.mangle.record.implName method = options.entryPoint
  · have plain : method ∈ info.plainMethods :=
      List.mem_filter.mpr ⟨declared, by rw [isMethod]; rfl⟩
    obtain ⟨routine, inside, implements⟩ := exists_of_mem_right (implements_methods laid).flip plain
    exact ⟨routine, implements, layout, first, inside, implements.name,
      fun other => absurd entry other⟩
  · obtain ⟨routine, here, implements⟩ := method?_of_named? laid
      (named?_of_declared computed found user declared isMethod entry)
    exact ⟨routine, implements, layout, first, List.mem_of_find?_eq_some here, implements.name,
      fun _ => here⟩

/-- A binding of a lowered class stands beside the slot that it names. It fills the slot with a
virtual method of the slot's signature, which the class declares that the binding names. -/
theorem method_of_binding (computed : (ofUnits units).facts names options = .ok facts)
    (done : (ofUnits units).lower facts options = .ok lowered)
    {layout : Lowered.ClassLayout Lowered.Expr Lowered.Stmt}
    (member : layout ∈ lowered.flatMap (·.classes)) {position : Nat} {binding : SlotBinding}
    (bound : layout.bindings[position]? = some binding) :
    ∃ slot info method, layout.slots[position]? = some slot ∧ slot.name = binding.slot ∧
      (ClassTable.ofUnits units).class? binding.owner = some info ∧
      method ∈ info.declaredMethods ∧ method.2.fills slot.source slot.params = true ∧
      binding.implName = facts.mangle.record.implName method := by
  obtain ⟨place, counts, built⟩ := exists_of_mem_right (ok_of_lower done) member
  obtain ⟨vtable, found, slots, bindings⟩ := (Lowering.lays_of_lowerClass built).vtable
  obtain ⟨_, known, _⟩ := ClassTable.class?_of_user (ClassTable.mem_userClasses_of_placed counts)
  obtain ⟨classes, _, along⟩ := VtableSet.get?_of_contains (vtables_of_facts computed)
    (ClassTable.contains_of_class? known)
  cases found.symm.trans along
  rw [slots]
  rw [bindings] at bound
  have beside := congrArg (·[position]?)
    (Vtable.names_slots_along (.ofUnits units) facts.mangle.record classes)
  rw [List.getElem?_map, List.getElem?_map, bound, Option.map_some] at beside
  obtain ⟨slot, there, named⟩ := Option.map_eq_some_iff.mp beside
  obtain ⟨other, boundToo, filled⟩ :=
    Vtable.binding_of_slot (Vtable.signatures_nodup _ facts.mangle.record classes) there
  cases bound.symm.trans boundToo
  rw [Vtable.implementation?_along] at filled
  obtain ⟨info, onWay, nearest⟩ := List.exists_of_findSome?_eq_some filled
  obtain ⟨_, _, entered⟩ := List.mem_filterMap.mp onWay
  obtain ⟨method, last, same⟩ := Option.map_eq_some_iff.mp nearest
  obtain ⟨owned, implName⟩ := Prod.mk.inj same
  obtain ⟨declared, fills⟩ := List.mem_filter.mp (List.mem_of_getLast? last)
  rw [← ClassTable.name_of_class? entered, owned] at entered
  exact ⟨slot, info, method, there, named, entered, declared, fills, implName.symm⟩

/-- The target that is stored for a call is declared by its class, and its name is on record. -/
theorem declared_of_site (computed : (ofUnits units).facts names options = .ok facts)
    {index : Nat} {unit : SourceUnit} (here : units[index]? = some unit) {id : NodeId}
    {site : CallSite} (stored : (facts.mangle.sites index).get? id = some site) :
    ∃ info decl, (ClassTable.ofUnits units).method? site.target = some info ∧
      (ClassTable.ofUnits units).class? site.target.className = some decl ∧
      (site.target, info) ∈ decl.declaredMethods ∧ info.flags.isConstructor = false ∧
      site.mangled = facts.mangle.record.implName (site.target, info) := by
  rw [sites_of_facts computed here] at stored
  obtain ⟨className, info, _, _, found, named⟩ := CallSites.founded_ofUnit stored
  obtain ⟨decl, above, owner, declared, entry⟩ := ClassTable.declared_of_target? found
  refine ⟨info, decl, entry, ?_, declared, (ClassTable.find?_of_target? found).1.isMethod, named⟩
  rw [← owner]
  exact ClassTable.class?_of_mem_ancestors above

end Program

/-- **Every vtable binding and every call by class leads to a routine of its method.** What a
binding names is an instance routine of its slot's signature; what a call by class names is what its
target was lowered to. -/
theorem bindings_and_calls_reach {units : List SourceUnit} {names : NameTable}
    {options : LoweringOptions} {facts : Facts} {lowered : List Lowered.TreeUnit}
    (computed : (Program.ofUnits units).facts names options = .ok facts)
    (done : (Program.ofUnits units).lower facts options = .ok lowered) :
    (∀ layout ∈ lowered.flatMap (·.classes), ∀ (position : Nat) (binding : SlotBinding),
      layout.bindings[position]? = some binding →
      ∃ slot, layout.slots[position]? = some slot ∧ slot.name = binding.slot ∧
        (binding.owner ∈ (ClassTable.ofUnits units).userClasses.map (·.name) →
          ∃ routine, Reaches (lowered.flatMap (·.classes)) options.entryPoint binding.owner
              binding.implName routine ∧
            routine.kind = .instanceMethod ∧ routine.source = slot.source ∧
            routine.params.map (·.type) = .class binding.owner :: slot.params)) ∧
    ∀ (index : Nat) (unit : SourceUnit), units[index]? = some unit →
      ∀ (tag : Source.Tag) (receiver : Option Source.Expr) (method : Name)
        (args : List Source.Expr) (caller : Routine) (call : Lowered.Expr) (span : Span)
        (className name : Name) (values : List Lowered.Expr),
      Gives ((Source.Expr.call tag receiver method args).lower
        (Program.contextAt units facts options index unit) caller) call →
      call.result = .qualifiedCall span className name values →
      ∃ site info, (facts.mangle.sites index).get? tag.id = some site ∧
        (ClassTable.ofUnits units).method? site.target = some info ∧
        className = site.target.className ∧
        (className ∈ (ClassTable.ofUnits units).userClasses.map (·.name) →
          ∃ routine, Reaches (lowered.flatMap (·.classes)) options.entryPoint className name
              routine ∧
            Implements facts.mangle.record (site.target, info) routine) := by
  constructor
  · intro layout member position binding bound
    obtain ⟨slot, info, method, there, named, found, declared, fills, implName⟩ :=
      Program.method_of_binding computed done member bound
    refine ⟨slot, there, named, fun user => ?_⟩
    obtain ⟨other, foundToo, unprovided⟩ := ClassTable.class?_of_user user
    cases found.symm.trans foundToo
    unfold MethodInfo.fills at fills
    rw [Bool.and_eq_true, Bool.and_eq_true, beq_iff_eq, beq_iff_eq] at fills
    obtain ⟨isVirtual, source, params⟩ := fills
    obtain ⟨_, _, _, _, _, isOf⟩ := Program.isOf_of_declared found unprovided declared
    obtain ⟨isMethod, isInstance⟩ := isOf.plain_of_isVirtual isVirtual
    obtain ⟨routine, implements, reaches⟩ :=
      Program.reaches_of_declared computed done found unprovided declared isMethod
    rw [← implName] at reaches
    refine ⟨routine, reaches, implements.kind.mpr isInstance, implements.source.trans source, ?_⟩
    rw [implements.params, isInstance, (ClassInfo.mem_declaredMethods.mp declared).1,
      ClassTable.name_of_class? found, params]
    rfl
  · intro index unit here tag receiver method args caller call span className name values given last
    have refers := Source.Expr.refers_of_gives given
    rw [last] at refers
    cases refers with
    | @byClass _ _ site resolved way =>
      obtain ⟨info, decl, entry, found, declared, isMethod, named⟩ :=
        Program.declared_of_site computed here resolved
      refine ⟨site, info, resolved, entry, rfl, fun user => ?_⟩
      obtain ⟨other, foundToo, unprovided⟩ := ClassTable.class?_of_user user
      cases found.symm.trans foundToo
      obtain ⟨routine, implements, reaches⟩ :=
        Program.reaches_of_declared computed done found unprovided declared isMethod
      rw [← named] at reaches
      exact ⟨routine, reaches, implements⟩

/-- A class with a private method and a call of it. -/
def Source.ClassDecl.upper : ClassDecl where
  name := "Upper"
  parent := none
  fields := []
  methods := [
    { name := "help", params := [⟨.int, "n"⟩], ret := .int, modifiers := { isPrivate := true }
      span := ⟨4, 5⟩, body := .block ⟨3, 4⟩ [.ret ⟨2, 3⟩ (some (.ident ⟨0, 1, 2⟩ "n"))] },
    { name := "run", params := [], ret := .int, modifiers := {}, span := ⟨9, 10⟩
      body := .block ⟨8, 9⟩ [.ret ⟨7, 8⟩
        (some (.call ⟨2, 6, 7⟩ none "help" [.int ⟨1, 5, 6⟩ 1]))] }]
  span := ⟨0, 1⟩

/-- A class below that one. It has a method of the private method's name, overrides the caller,
calls it through `super`, and calls the private method. -/
def Source.ClassDecl.lower : ClassDecl where
  name := "Lower"
  parent := some "Upper"
  fields := []
  methods := [
    { name := "help", params := [⟨.string, "s"⟩], ret := .int, modifiers := {}, span := ⟨14, 15⟩
      body := .block ⟨13, 14⟩ [.ret ⟨12, 13⟩ (some (.int ⟨3, 11, 12⟩ 0))] },
    { name := "run", params := [], ret := .int, modifiers := {}, span := ⟨19, 20⟩
      body := .block ⟨18, 19⟩ [.ret ⟨17, 18⟩
        (some (.call ⟨5, 16, 17⟩ (some (.super ⟨4, 15, 16⟩)) "run" []))] },
    { name := "stray", params := [], ret := .int, modifiers := {}, span := ⟨24, 25⟩
      body := .block ⟨23, 24⟩ [.ret ⟨22, 23⟩
        (some (.call ⟨7, 21, 22⟩ none "help" [.int ⟨6, 20, 21⟩ 1]))] }]
  span := ⟨10, 11⟩

def Source.SourceUnit.helpers : SourceUnit where
  path := "Helpers"
  package := []
  imports := []
  classes := [.upper, .lower]
  nodes := #[.ident ⟨0, 1, 2⟩ "n", .int ⟨1, 5, 6⟩ 1, .call ⟨2, 6, 7⟩ none "help" [.int ⟨1, 5, 6⟩ 1],
    .int ⟨3, 11, 12⟩ 0, .super ⟨4, 15, 16⟩,
    .call ⟨5, 16, 17⟩ (some (.super ⟨4, 15, 16⟩)) "run" [], .int ⟨6, 20, 21⟩ 1,
    .call ⟨7, 21, 22⟩ none "help" [.int ⟨6, 20, 21⟩ 1]]
  stmtCount := 10

/-- What the overriding method is lowered in. -/
def Routine.override : Routine := ⟨"Lower", some ⟨"Lower", 1⟩, .instanceMethod, false⟩

/-- The slot of the overridden method leads to the override in the class below, and the call through
`super` leads to the method above. -/
theorem bindings_and_calls_reach_helpers :
    ∃ facts lowered, (Program.ofUnits [.helpers]).facts ⟨["Upper", "Lower"]⟩ {} = .ok facts ∧
      (Program.ofUnits [.helpers]).lower facts {} = .ok lowered ∧
      (∃ routine, Reaches (lowered.flatMap (·.classes)) "main" "Lower" "run_0" routine ∧
        routine.params.map (·.type) = [.class "Lower"]) ∧
      ∃ site info routine, (facts.mangle.sites 0).get? 5 = some site ∧
        Reaches (lowered.flatMap (·.classes)) "main" "Upper" "run_0" routine ∧
        Implements facts.mangle.record (site.target, info) routine := by
  obtain ⟨facts, lowered, computed, done⟩ :=
    Program.exists_lowered [.helpers] ⟨["Upper", "Lower"]⟩ {} (by decide +kernel)
  obtain ⟨bindings, calls⟩ := bindings_and_calls_reach computed done
  refine ⟨facts, lowered, computed, done, ?_, ?_⟩
  · have runs : (((Program.ofUnits [.helpers]).facts ⟨["Upper", "Lower"]⟩ {}).toOption.any
        fun facts => ((Program.ofUnits [.helpers]).lower facts {}).toOption.any fun lowered =>
          (lowered.flatMap (·.classes)).any fun layout =>
            layout.slots[4]?.any (·.params.isEmpty) &&
              layout.bindings[4]? == some ⟨"run_0", "Lower", "run_0", true⟩) = true := by
      decide +kernel
    rw [computed, Except.toOption, Option.any_some, done, Except.toOption, Option.any_some,
      List.any_eq_true] at runs
    obtain ⟨layout, member, runs⟩ := runs
    rw [Bool.and_eq_true, beq_iff_eq] at runs
    obtain ⟨plain, bound⟩ := runs
    obtain ⟨slot, there, _, leads⟩ := bindings layout member 4 _ bound
    obtain ⟨routine, reaches, _, _, params⟩ := leads (by decide +kernel)
    rw [there, Option.any_some, List.isEmpty_iff] at plain
    rw [plain] at params
    exact ⟨routine, reaches, params⟩
  · have runs : (((Program.ofUnits [.helpers]).facts ⟨["Upper", "Lower"]⟩ {}).toOption.any
        fun facts =>
          match ((Source.Expr.call ⟨5, 16, 17⟩ (some (.super ⟨4, 15, 16⟩)) "run" []).lower
            (Program.contextAt [.helpers] facts {} 0 .helpers) .override).run 0 with
          | .ok (.qualifiedCall _ "Upper" "run_0" _, _) => true
          | _ => false) = true := by decide +kernel
    rw [computed, Except.toOption, Option.any_some] at runs
    split at runs
    · rename_i ran
      obtain ⟨site, info, stored, _, _, leads⟩ := calls 0 _ rfl _ _ _ _ _ _ _ _ _ _ ⟨0, _, ran⟩ rfl
      obtain ⟨routine, reaches, implements⟩ := leads (by decide +kernel)
      exact ⟨site, info, routine, stored, reaches, implements⟩
    · cases runs

end ObjectLowering
