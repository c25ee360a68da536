/-
**What a direct call finds under the name it carries.**

A direct call keeps the name of its target and drops the class that declares it, so the name is
looked up in the class of the receiver. Names are numbered class by class: where the target is
inherited, the class of the receiver has no method of the name, or one of its own.

* `eq_of_find?_both`: two searches that each find what the other accepts find the same.
* `Program.named?_of_implements`: a target that a name leads to is the first method of the name.
* **`direct_call_reaches_iff`**: a direct call reaches its target exactly if the class of the
  receiver declares it, and no method before it keeps the name of the entry point with it.
-/

import ObjectLowering.Proofs.Calls.Routines

namespace ObjectLowering

open Source (SourceUnit)
open Lowering (Gives)

/-- **Two searches that each find what the other accepts find the same.** -/
theorem eq_of_find?_both {α : Type} {items : List α} {wanted accepted : α → Bool} {first second : α}
    (found : items.find? wanted = some first) (accepts : accepted first = true)
    (foundToo : items.find? accepted = some second) (wants : wanted second = true) :
    first = second := by
  induction items with
  | nil => cases found
  | cons item rest step =>
    cases here : wanted item with
    | true =>
      rw [List.find?_cons_of_pos here] at found
      cases found
      rw [List.find?_cons_of_pos accepts] at foundToo
      exact Option.some.inj foundToo
    | false =>
      rw [List.find?_cons_of_neg (Bool.eq_false_iff.mp here)] at found
      cases there : accepted item with
      | true =>
        rw [List.find?_cons_of_pos there] at foundToo
        cases foundToo
        cases here.symm.trans wants
      | false =>
        rw [List.find?_cons_of_neg (Bool.eq_false_iff.mp there)] at foundToo
        exact step found foundToo

/-- Two methods of a class that were lowered to one routine have one signature. -/
theorem Implements.sameSignature {record : MangleRecord} {method other : MethodRef × MethodInfo}
    {routine : Lowered.Method Lowered.Stmt} (implements : Implements record method routine)
    (implementsToo : Implements record other routine) :
    method.1.className = other.1.className ∧ method.2.name = other.2.name ∧
      method.2.params = other.2.params := by
  have owners := implements.owner.symm.trans implementsToo.owner
  refine ⟨owners, implements.source.symm.trans implementsToo.source, ?_⟩
  have static : method.2.flags.isStatic = other.2.flags.isStatic := by
    rw [Bool.eq_iff_iff, ← not_iff_not, Bool.not_eq_true, Bool.not_eq_true]
    exact implements.kind.symm.trans implementsToo.kind
  have params := implements.params.symm.trans implementsToo.params
  rw [static, owners] at params
  exact List.append_cancel_left params

namespace Program

variable {units : List SourceUnit} {names : NameTable} {options : LoweringOptions} {facts : Facts}
  {lowered : List Lowered.TreeUnit}

/-- Where every expression has a number of its own, the target of a call is found in the class of
its receiver. -/
theorem foundIn_of_reached (computed : (ofUnits units).facts names options = .ok facts)
    {place : PlacedClass} (counts : place ∈ placed units) (forest : place.unit.IsForest)
    {tag : Source.Tag} {receiver : Option Source.Expr} {method : Name} {args : List Source.Expr}
    (reached : .call tag receiver method args ∈ place.decl.nodes) {site : CallSite}
    (stored : (facts.mangle.sites place.index).get? tag.id = some site) :
    ∃ className info,
      lookupClass (facadeAt units place.index place.unit) place.decl.name receiver =
        some className ∧
      site.FoundIn (.ofUnits units) facts.mangle.record className info := by
  obtain ⟨here, declared, owned⟩ := mem_placed.mp counts
  rw [sites_of_facts computed here] at stored
  have same := CallSites.get?_ofUnit (facadeAt units place.index place.unit) facts.mangle.record
    forest declared owned reached
  exact CallSites.foundIn_of_resolveCall (same.symm.trans stored)

variable {className name : Name} {owner : ClassInfo} {target : MethodRef} {info : MethodInfo}

/-- A method that a call means and that the class searched for it lowers to the first routine of a
name is the first method of the name. -/
theorem named?_of_implements {layout : Lowered.ClassLayout Lowered.Expr Lowered.Stmt}
    {place : PlacedClass} (laid : LayoutOf units facts options owner layout place)
    (known : (ClassTable.ofUnits units).class? className = some owner) {method : Name}
    {args : List (Option Ty)}
    (found : (ClassTable.ofUnits units).target? (some className) method args = some (target, info))
    {routine : Lowered.Method Lowered.Stmt} (here : layout.method? name = some routine)
    (implements : Implements facts.mangle.record (target, info) routine) :
    target.className = className ∧ owner.named? facts.mangle.record name = some (target, info) := by
  obtain ⟨first, isFirst, implementsToo⟩ := named?_of_method? laid here
  obtain ⟨sameOwner, sameName, sameParams⟩ := implementsToo.sameSignature implements
  obtain ⟨declared, isMethod⟩ := List.mem_filter.mp (List.mem_of_find?_eq_some isFirst)
  have own : target.className = className := by
    rw [← ClassTable.name_of_class? known, ← (ClassInfo.mem_declaredMethods.mp declared).1]
    exact sameOwner.symm
  refine ⟨own, ?_⟩
  have fits := (ClassTable.find?_of_target? found).1
  have isTarget := ClassTable.first_of_target? found known own
  -- The first of the name has the signature of the target, and the target is first of that.
  have same : first = (target, info) := by
    unfold ClassInfo.named? ClassInfo.plainMethods at isFirst
    rw [List.find?_filter] at isFirst
    refine eq_of_find?_both isFirst ?_ isTarget ?_
    · refine MethodInfo.answers_iff.mpr ⟨sameName.trans fits.named, ?_, sameParams⟩
      exact (Bool.not_eq_true' _).mp isMethod
    · have named : facts.mangle.record.implName (target, info) = name := by
        rw [← implements.name]
        have sameRoutine := List.find?_some here
        exact beq_iff_eq.mp sameRoutine
      simp [fits.isMethod, named]
  rw [isFirst, same]

end Program

/-- **A direct call reaches its target exactly if the class of its receiver declares the target**
and lowers no method before it under the same name, which happens with methods called like the entry
point only. -/
theorem direct_call_reaches_iff {units : List SourceUnit} {names : NameTable}
    {options : LoweringOptions} {facts : Facts} {lowered : List Lowered.TreeUnit}
    (computed : (Program.ofUnits units).facts names options = .ok facts)
    (done : (Program.ofUnits units).lower facts options = .ok lowered)
    {place : PlacedClass} (counts : place ∈ Program.placed units) (forest : place.unit.IsForest)
    {tag : Source.Tag} {receiver : Option Source.Expr} {method : Name} {args : List Source.Expr}
    (reached : .call tag receiver method args ∈ place.decl.nodes)
    {caller : Routine} {call : Lowered.Expr}
    (given : Gives ((Source.Expr.call tag receiver method args).lower
      (Program.contextAt units facts options place.index place.unit) caller) call)
    {span : Span} {object : Lowered.Expr} {name : Name} {values : List Lowered.Expr}
    (last : call.result = .directCall span object name values) :
    ∃ className site info,
      lookupClass (Program.facadeAt units place.index place.unit) place.decl.name receiver =
        some className ∧
      (facts.mangle.sites place.index).get? tag.id = some site ∧
      (ClassTable.ofUnits units).method? site.target = some info ∧
      (className ∈ (ClassTable.ofUnits units).userClasses.map (·.name) →
        ∃ owner layout, (ClassTable.ofUnits units).class? className = some owner ∧
          (lowered.flatMap (·.classes)).find? (·.name == className) = some layout ∧
          ((∃ routine, layout.method? name = some routine ∧
              Implements facts.mangle.record (site.target, info) routine) ↔
            site.target.className = className ∧
              (name = options.entryPoint →
                owner.named? facts.mangle.record name = some (site.target, info)))) := by
  have refers := Source.Expr.refers_of_gives given
  rw [last] at refers
  cases refers with
  | @byName _ _ _ site resolved _ =>
    obtain ⟨className, info, searched, search, types, found, named⟩ :=
      Program.foundIn_of_reached computed counts forest reached resolved
    obtain ⟨_, above, declaring, declared, entry⟩ := ClassTable.declared_of_target? found
    refine ⟨className, site, info, searched, resolved, entry, fun user => ?_⟩
    obtain ⟨owner, known, unprovided⟩ := ClassTable.class?_of_user user
    obtain ⟨layout, _, first, laid⟩ := Program.layout_of_class? done known unprovided
    refine ⟨owner, layout, known, first, ?_, ?_⟩
    · rintro ⟨routine, here, implements⟩
      obtain ⟨own, isFirst⟩ := Program.named?_of_implements laid known found here implements
      exact ⟨own, fun _ => isFirst⟩
    · rintro ⟨own, ofEntry⟩
      refine Program.method?_of_named? laid ?_
      by_cases isEntry : site.mangled = options.entryPoint
      · exact ofEntry isEntry
      · have inOwner := ClassTable.class?_of_mem_ancestors above
        rw [declaring, own, known, Option.some.injEq] at inOwner
        rw [← inOwner] at declared
        rw [named] at isEntry ⊢
        exact Program.named?_of_declared computed known unprovided declared
          (ClassTable.find?_of_target? found).1.isMethod isEntry

theorem Source.SourceUnit.isForest_helpers : helpers.IsForest := ⟨by decide, by decide⟩

/-- The private method of the class above is what both calls of it mean. -/
theorem Program.sites_helpers {facts : Facts}
    (computed : (ofUnits [.helpers]).facts ⟨["Upper", "Lower"]⟩ {} = .ok facts) :
    (facts.mangle.sites 0).get? 2 = some ⟨⟨"Upper", 0⟩, "help_0", true⟩ ∧
      (facts.mangle.sites 0).get? 7 = some ⟨⟨"Upper", 0⟩, "help_0", true⟩ := by
  have here : [SourceUnit.helpers][0]? = some .helpers := rfl
  rw [sites_of_facts computed here, mangle_of_facts computed]
  decide +kernel

/-- The call in the class of the private method reaches it. -/
theorem direct_call_reaches_helpers :
    ∃ facts lowered layout routine info,
      (Program.ofUnits [.helpers]).facts ⟨["Upper", "Lower"]⟩ {} = .ok facts ∧
      (Program.ofUnits [.helpers]).lower facts {} = .ok lowered ∧
      (lowered.flatMap (·.classes)).find? (·.name == "Upper") = some layout ∧
      layout.method? "help_0" = some routine ∧
      Implements facts.mangle.record (⟨"Upper", 0⟩, info) routine := by
  obtain ⟨facts, lowered, computed, done⟩ :=
    Program.exists_lowered [.helpers] ⟨["Upper", "Lower"]⟩ {} (by decide +kernel)
  have runs : (((Program.ofUnits [.helpers]).facts ⟨["Upper", "Lower"]⟩ {}).toOption.any
      fun facts => match ((Source.Expr.call ⟨2, 6, 7⟩ none "help" [.int ⟨1, 5, 6⟩ 1]).lower
        (Program.contextAt [.helpers] facts {} 0 .helpers)
          ⟨"Upper", some ⟨"Upper", 1⟩, .instanceMethod, false⟩).run 0 with
        | .ok (.directCall _ _ "help_0" _, _) => true
        | _ => false) = true := by decide +kernel
  rw [computed, Except.toOption, Option.any_some] at runs
  split at runs
  · rename_i ran
    have counts : ⟨0, .helpers, .upper⟩ ∈ Program.placed [.helpers] :=
      Program.mem_placed.mpr ⟨rfl, List.mem_cons_self, by decide +kernel⟩
    obtain ⟨_, site, info, ⟨⟩, stored, _, leads⟩ := direct_call_reaches_iff computed done counts
      Source.SourceUnit.isForest_helpers (List.mem_cons_of_mem _ List.mem_cons_self) ⟨0, _, ran⟩ rfl
    cases (Program.sites_helpers computed).1.symm.trans stored
    obtain ⟨_, layout, _, first, reaches⟩ := leads (by decide +kernel)
    obtain ⟨routine, here, implements⟩ :=
      reaches.mpr ⟨rfl, fun isEntry => absurd isEntry (by decide)⟩
    exact ⟨facts, lowered, layout, routine, info, computed, done, first, here, implements⟩
  · cases runs

/-- The call in the class below reaches the method that this class has under the name, which takes
other arguments than the one the call means. -/
theorem direct_call_strays_helpers :
    Source.Expr.call ⟨7, 21, 22⟩ none "help" [.int ⟨6, 20, 21⟩ 1] ∈ Source.ClassDecl.lower.nodes ∧
    ∃ facts lowered call span object values layout routine,
      (Program.ofUnits [.helpers]).facts ⟨["Upper", "Lower"]⟩ {} = .ok facts ∧
      (Program.ofUnits [.helpers]).lower facts {} = .ok lowered ∧
      Gives ((Source.Expr.call ⟨7, 21, 22⟩ none "help" [.int ⟨6, 20, 21⟩ 1]).lower
        (Program.contextAt [.helpers] facts {} 0 .helpers)
        ⟨"Lower", some ⟨"Lower", 2⟩, .instanceMethod, false⟩) call ∧
      call.result = .directCall span object "help_0" values ∧
      (facts.mangle.sites 0).get? 7 = some ⟨⟨"Upper", 0⟩, "help_0", true⟩ ∧
      ((ClassTable.ofUnits [.helpers]).method? ⟨"Upper", 0⟩).map (·.params) = some [.int] ∧
      (lowered.flatMap (·.classes)).find? (·.name == "Lower") = some layout ∧
      layout.method? "help_0" = some routine ∧ routine.owner = "Lower" ∧
      routine.params.map (·.type) = [.class "Lower", .string] := by
  obtain ⟨facts, lowered, computed, done⟩ :=
    Program.exists_lowered [.helpers] ⟨["Upper", "Lower"]⟩ {} (by decide +kernel)
  have runs : (((Program.ofUnits [.helpers]).facts ⟨["Upper", "Lower"]⟩ {}).toOption.any
      fun facts => match ((Source.Expr.call ⟨7, 21, 22⟩ none "help" [.int ⟨6, 20, 21⟩ 1]).lower
        (Program.contextAt [.helpers] facts {} 0 .helpers)
          ⟨"Lower", some ⟨"Lower", 2⟩, .instanceMethod, false⟩).run 0 with
        | .ok (.directCall _ _ "help_0" _, _) => true
        | _ => false) = true := by decide +kernel
  rw [computed, Except.toOption, Option.any_some] at runs
  split at runs
  · rename_i ran
    have finds : (((Program.ofUnits [.helpers]).facts ⟨["Upper", "Lower"]⟩ {}).toOption.any
        fun facts => ((Program.ofUnits [.helpers]).lower facts {}).toOption.any fun lowered =>
          ((lowered.flatMap (·.classes)).find? (·.name == "Lower")).any fun layout =>
            (layout.method? "help_0").any fun routine => routine.owner == "Lower" &&
              routine.params.map (·.type) == [.class "Lower", .string]) = true := by decide +kernel
    rw [computed, Except.toOption, Option.any_some, done, Except.toOption, Option.any_some,
      Option.any_eq_true] at finds
    obtain ⟨layout, first, finds⟩ := finds
    rw [Option.any_eq_true] at finds
    obtain ⟨routine, here, finds⟩ := finds
    rw [Bool.and_eq_true, beq_iff_eq, beq_iff_eq] at finds
    refine ⟨List.mem_cons_of_mem _ (List.mem_cons_of_mem _ (List.mem_cons_of_mem _
      List.mem_cons_self)), facts, lowered, _, _, _, _, layout, routine, computed, done,
      ⟨0, _, ran⟩, rfl, (Program.sites_helpers computed).2, by decide +kernel, first, here, finds⟩
  · cases runs

end ObjectLowering
