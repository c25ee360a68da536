/-
**The names given to methods.**

A method is given its source name, an underscore and a number: how many declarations of that source
name its class had named before. A number has no underscore, so the name given tells both, and no
two methods of a class are given one name.

* `append_underscore_inj`: a text is split at its last underscore in one way.
* `MangleRecord.Consistent` says that the names in a record are numbered as they were counted.
* `Program.record_eq`: the record of a program comes from giving names one by one, to the methods in
  `Program.renamed`.
* **`Program.distinguishes_record`**: the names under which a class lowers its virtual methods tell
  them apart, all but those called like the entry point.
-/

import Mathlib.Data.List.Pairwise
import ObjectLowering.Proofs.Lowering.ClassLayouts
import ObjectLowering.Proofs.Vtables.Bindings

namespace ObjectLowering

open Source (SourceUnit MethodDecl)

/-! ### Names with underscores -/

/-- The name has no underscore. -/
def Unbroken (name : Name) : Prop := '_' ∉ name.toList

instance (name : Name) : Decidable (Unbroken name) := inferInstanceAs (Decidable (_ ∉ _))

theorem unbroken_toString (number : Nat) : Unbroken (toString number) := by
  intro member
  have digits : (toString number).toList = Nat.toDigits 10 number := Nat.toList_repr
  rw [digits] at member
  have isDigit := Nat.isDigit_of_mem_toDigits (by decide) (by decide) member
  exact absurd isDigit (by decide)

theorem eq_of_toString_eq {first second : Nat} (same : toString first = toString second) :
    first = second := by
  have digits : Nat.toDigits 10 first = Nat.toDigits 10 second := by
    rw [← Nat.toList_repr, ← Nat.toList_repr]
    exact congrArg String.toList same
  calc first = Nat.ofDigitChars 10 (Nat.toDigits 10 first) 0 := Nat.ofDigitChars_ten_toDigits.symm
    _ = Nat.ofDigitChars 10 (Nat.toDigits 10 second) 0 := by rw [digits]
    _ = second := Nat.ofDigitChars_ten_toDigits

theorem toList_underscore (first behind : Name) :
    (first ++ "_" ++ behind).toList = first.toList ++ '_' :: behind.toList := by
  rw [String.toList_append, String.toList_append, List.append_assoc]
  rfl

theorem not_unbroken_underscore (first behind : Name) : ¬Unbroken (first ++ "_" ++ behind) := by
  unfold Unbroken
  rw [toList_underscore, not_not]
  exact List.mem_append_right _ List.mem_cons_self

/-- **A text is split at its last underscore in one way.** -/
theorem append_underscore_inj {first second behind other : Name} (whole : Unbroken behind)
    (wholeToo : Unbroken other) (same : first ++ "_" ++ behind = second ++ "_" ++ other) :
    first = second ∧ behind = other := by
  rw [← String.toList_inj, toList_underscore, toList_underscore] at same
  unfold Unbroken at whole wholeToo
  rw [← String.toList_inj, ← String.toList_inj]
  -- Were one part in front longer, the part behind the other would have an underscore.
  rcases List.append_eq_append_iff.mp same with ⟨more, longer, rest⟩ | ⟨more, longer, rest⟩
  · cases more with
    | nil =>
      rw [List.append_nil] at longer
      exact ⟨longer.symm, (List.cons.inj rest).2⟩
    | cons _ more =>
      rw [(List.cons.inj rest).2] at whole
      exact absurd (List.mem_append_right _ List.mem_cons_self) whole
  · cases more with
    | nil =>
      rw [List.append_nil] at longer
      exact ⟨longer, (List.cons.inj rest).2.symm⟩
    | cons _ more =>
      rw [(List.cons.inj rest).2] at wholeToo
      exact absurd (List.mem_append_right _ List.mem_cons_self) wholeToo

namespace MangleRecord

theorem numbered_inj {source other : Name} {before earlier : Nat}
    (same : numbered source before = numbered other earlier) :
    source = other ∧ before = earlier := by
  obtain ⟨sources, numbers⟩ :=
    append_underscore_inj (unbroken_toString before) (unbroken_toString earlier) same
  exact ⟨sources, eq_of_toString_eq numbers⟩

/-! ### Giving names one by one -/

variable {record : MangleRecord} {method : MethodRef} {source : Name}

/-- Each name in the record is numbered below the count of its source name, and no two methods of a
class have one name. -/
structure Consistent (record : MangleRecord) : Prop where
  counted : ∀ entry ∈ record.given,
    ∃ before < record.count entry.method.className entry.source,
      entry.mangled = numbered entry.source before
  distinct : record.given.Pairwise fun first second =>
    first.method.className = second.method.className → first.mangled ≠ second.mangled

theorem consistent_empty : Consistent .empty :=
  ⟨fun _ member => (nomatch member), .nil⟩

theorem count_give (className name : Name) :
    (record.give method source).count className name =
      record.count className name +
        if method.className == className && source == name then 1 else 0 :=
  List.countP_cons

/-- **A name that is given is a new one of its class.** -/
theorem Consistent.give (consistent : record.Consistent) :
    (record.give method source).Consistent := by
  refine ⟨fun entry member => ?_, List.pairwise_cons.mpr ⟨?_, consistent.distinct⟩⟩
  · rcases List.mem_cons.mp member with rfl | old
    · refine ⟨record.count method.className source, ?_, rfl⟩
      rw [count_give, beq_self_eq_true, beq_self_eq_true]
      exact Nat.lt_succ_self _
    · obtain ⟨before, below, named⟩ := consistent.counted entry old
      refine ⟨before, ?_, named⟩
      rw [count_give]
      exact Nat.lt_add_right _ below
  · intro entry old sameClass sameName
    obtain ⟨before, below, named⟩ := consistent.counted entry old
    obtain ⟨rfl, rfl⟩ := numbered_inj (sameName.trans named)
    dsimp only at sameClass
    rw [sameClass] at below
    exact Nat.lt_irrefl _ below

/-- Gives names to methods with their source names, one after the other. -/
def giveAll (record : MangleRecord) (methods : List (MethodRef × Name)) : MangleRecord :=
  methods.foldl (fun record named => record.give named.1 named.2) record

theorem consistent_giveAll (methods : List (MethodRef × Name)) :
    (giveAll .empty methods).Consistent :=
  List.foldlRecOn _ _ consistent_empty fun _ consistent _ _ => consistent.give

theorem given_giveAll (methods : List (MethodRef × Name)) (record : MangleRecord) :
    (record.giveAll methods).given.map (·.method) =
      (methods.map (·.1)).reverse ++ record.given.map (·.method) := by
  induction methods generalizing record with
  | nil => rfl
  | cons named rest step =>
    rw [giveAll, List.foldl_cons]
    refine (step _).trans ?_
    rw [List.map_cons, List.reverse_cons, List.append_assoc]
    rfl

/-- A method has a name if it was given one. -/
theorem mangled?_giveAll {methods : List (MethodRef × Name)} :
    ((giveAll .empty methods).mangled? method).isSome = true ↔ method ∈ methods.map (·.1) := by
  have given : method ∈ (giveAll .empty methods).given.map (·.method) ↔
      method ∈ methods.map (·.1) := by
    rw [given_giveAll, List.mem_append, List.mem_reverse]
    exact or_iff_left List.not_mem_nil
  rw [← given]
  unfold mangled?
  rw [Option.isSome_map, List.find?_isSome, List.mem_map]
  simp only [beq_iff_eq]

theorem mem_given_of_mangled? {name : Name} (named : record.mangled? method = some name) :
    ∃ entry ∈ record.given, entry.method = method ∧ entry.mangled = name := by
  obtain ⟨entry, found, rfl⟩ := Option.map_eq_some_iff.mp named
  have same := List.find?_some found
  exact ⟨entry, List.mem_of_find?_eq_some found, beq_iff_eq.mp same, rfl⟩

theorem Consistent.numbered_of_mangled? (consistent : record.Consistent) {name : Name}
    (named : record.mangled? method = some name) :
    ∃ source before, name = numbered source before := by
  obtain ⟨entry, member, _, rfl⟩ := mem_given_of_mangled? named
  obtain ⟨before, _, named⟩ := consistent.counted entry member
  exact ⟨entry.source, before, named⟩

/-- **No two methods of a class have one name.** -/
theorem Consistent.eq_of_mangled? (consistent : record.Consistent) {other : MethodRef} {name : Name}
    (sameClass : method.className = other.className) (named : record.mangled? method = some name)
    (namedToo : record.mangled? other = some name) : method = other := by
  obtain ⟨first, member, rfl, rfl⟩ := mem_given_of_mangled? named
  obtain ⟨second, memberToo, rfl, same⟩ := mem_given_of_mangled? namedToo
  have : Std.Symm fun first second : MangledName =>
      first.method.className = second.method.className → first.mangled ≠ second.mangled :=
    ⟨fun _ _ apart sameClass => (apart sameClass.symm).symm⟩
  by_contra different
  have distinct : first ≠ second := fun equal => different (congrArg MangledName.method equal)
  exact consistent.distinct.forall member memberToo distinct sameClass same.symm

/-- A name without an underscore is the source name. -/
theorem Consistent.source_of_implName (consistent : record.Consistent)
    {method : MethodRef × MethodInfo} (whole : Unbroken (record.implName method)) :
    record.implName method = method.2.name := by
  unfold implName at whole ⊢
  cases named : record.mangled? method.1 with
  | none => rfl
  | some given =>
    obtain ⟨source, before, rfl⟩ := consistent.numbered_of_mangled? named
    rw [named] at whole
    exact absurd whole (not_unbroken_underscore _ _)

end MangleRecord

/-! ### The record of a program -/

/-- Whether a method keeps its source name. -/
def MangleRecord.keepsName (entryPoint owner : Name) (method : MethodDecl) : Bool :=
  method.name == entryPoint || method.isConstructorOf owner

namespace Program

variable {units : List SourceUnit} {options : LoweringOptions}

/-- The methods of a declaration that are given names, with their source names. -/
def renamedIn (entryPoint : Name) (place : PlacedClass) : List (MethodRef × Name) :=
  (place.decl.methods.zipIdx.filter
    (!MangleRecord.keepsName entryPoint place.decl.name ·.1)).map fun method =>
      (⟨place.decl.name, method.2⟩, method.1.name)

/-- The methods that are given names, in order. -/
def renamed (units : List SourceUnit) (entryPoint : Name) : List (MethodRef × Name) :=
  (placed units).flatMap (renamedIn entryPoint)

theorem nameClass_eq (entryPoint : Name) (record : MangleRecord) (place : PlacedClass) :
    record.nameClass entryPoint place.decl = record.giveAll (renamedIn entryPoint place) := by
  unfold MangleRecord.nameClass MangleRecord.giveAll renamedIn
  rw [List.foldl_map, List.foldl_filter]
  refine congrArg (fun step => List.foldl step record _) (funext fun record =>
    funext fun method => ?_)
  unfold MangleRecord.nameMethod MangleRecord.keepsName
  cases method.1.name == entryPoint || method.1.isConstructorOf place.decl.name <;> rfl

/-- **The names of a program are given to one method after the other.** -/
theorem record_eq (units : List SourceUnit) (options : LoweringOptions) :
    ((ofUnits units).mangle options .unchanged).record =
      MangleRecord.giveAll .empty (renamed units options.entryPoint) := by
  unfold mangle MangleTable.ofProgram MangleTable.ofRecord renamed placed MangleRecord.giveAll
  dsimp only
  rw [zipIdx_parts, List.foldl_map, List.flatMap_assoc, List.foldl_flatMap]
  refine congrArg (fun step => List.foldl step MangleRecord.empty _) (funext fun record =>
    funext fun place => ?_)
  unfold placedIn MangleRecord.nameUnit
  rw [List.flatMap_map, List.foldl_flatMap]
  refine congrArg (fun step => List.foldl step record _) (funext fun record =>
    funext fun decl => ?_)
  exact nameClass_eq options.entryPoint record ⟨place.2, place.1, decl⟩

theorem consistent_record (units : List SourceUnit) (options : LoweringOptions) :
    ((ofUnits units).mangle options .unchanged).record.Consistent :=
  record_eq units options ▸ MangleRecord.consistent_giveAll _

/-- A method has a name if its class is lowered and it does not keep its source name. -/
theorem mangled?_isSome_iff {method : MethodRef} :
    (((ofUnits units).mangle options .unchanged).record.mangled? method).isSome = true ↔
      ∃ place ∈ placed units, place.decl.name = method.className ∧
        ∃ decl, place.decl.methods[method.index]? = some decl ∧
          MangleRecord.keepsName options.entryPoint place.decl.name decl = false := by
  rw [record_eq, MangleRecord.mangled?_giveAll, List.mem_map]
  constructor
  · rintro ⟨_, inside, rfl⟩
    obtain ⟨place, lowered, here⟩ := List.mem_flatMap.mp inside
    obtain ⟨⟨decl, index⟩, kept, rfl⟩ := List.mem_map.mp here
    obtain ⟨there, changes⟩ := List.mem_filter.mp kept
    exact ⟨place, lowered, rfl, decl, List.mem_zipIdx_iff_getElem?.mp there,
      (Bool.not_eq_true' _).mp changes⟩
  · rintro ⟨place, lowered, named, decl, there, changes⟩
    refine ⟨(method, decl.name), List.mem_flatMap.mpr ⟨place, lowered, ?_⟩, rfl⟩
    refine List.mem_map.mpr ⟨(decl, method.index), List.mem_filter.mpr ⟨?_, ?_⟩, ?_⟩
    · exact List.mem_zipIdx_iff_getElem?.mpr there
    · exact (Bool.not_eq_true' _).mpr changes
    · rw [named]

end Program

/-! ### Virtual methods -/

/-- The class declares the method, and the method is virtual. -/
def ClassInfo.HasVirtual (info : ClassInfo) (method : MethodRef × MethodInfo) : Prop :=
  method ∈ info.declaredMethods ∧ method.2.flags.isVirtual = true

/-- A reference tells the methods of a class apart. -/
theorem ClassInfo.eq_of_ref {info : ClassInfo} {method other : MethodRef × MethodInfo}
    (declared : method ∈ info.declaredMethods) (declaredToo : other ∈ info.declaredMethods)
    (same : method.1 = other.1) : method = other := by
  obtain ⟨_, there⟩ := mem_declaredMethods.mp declared
  obtain ⟨_, thereToo⟩ := mem_declaredMethods.mp declaredToo
  rw [same, thereToo, Option.some.injEq] at there
  exact Prod.ext same there.symm

/-- Marking overriding methods keeps what tells virtual methods apart. -/
theorem ClassInfo.hasVirtual_of_withOverrides {table : ClassTable} {info : ClassInfo}
    {method : MethodRef × MethodInfo} (marked : (info.withOverrides table).HasVirtual method) :
    ∃ plain, info.HasVirtual plain ∧ plain.1 = method.1 ∧ plain.2.name = method.2.name := by
  obtain ⟨declared, isVirtual⟩ := marked
  obtain ⟨named, there⟩ := mem_declaredMethods.mp declared
  unfold withOverrides at there
  rw [List.getElem?_map] at there
  obtain ⟨plain, here, same⟩ := Option.map_eq_some_iff.mp there
  refine ⟨(method.1, plain), ⟨mem_declaredMethods.mpr ⟨named, here⟩, ?_⟩, rfl, ?_⟩
  · rw [← same] at isVirtual
    split at isVirtual <;> exact isVirtual
  · rw [← same]
    split <;> rfl

/-- **The names of virtual methods tell them apart.** Each is a whole name or a numbered one, and
within a class only methods called like the entry point share theirs. -/
structure MangleRecord.Distinguishes (record : MangleRecord) (table : ClassTable)
    (entryPoint : Name) : Prop where
  form : ∀ {name info}, table.class? name = some info → ∀ {method}, info.HasVirtual method →
    Unbroken (record.implName method) ∨
      ∃ source before, record.implName method = numbered source before
  apart : ∀ {name info}, table.class? name = some info → ∀ {method other},
    info.HasVirtual method → info.HasVirtual other →
    record.implName method = record.implName other → record.implName method ≠ entryPoint →
      method = other

namespace Program

variable {units : List SourceUnit} {options : LoweringOptions} {name : Name} {info : ClassInfo}
  {method : MethodRef × MethodInfo}

/-- The virtual methods of a provided class keep their source names. -/
theorem implName_of_provided (found : (ClassTable.ofUnits units).class? name = some info)
    (provided : info.unit = none) (isVirtual : info.HasVirtual method) :
    ((ofUnits units).mangle options .unchanged).record.implName method = method.2.name := by
  have unnamed : ((ofUnits units).mangle options .unchanged).record.mangled? method.1 = none := by
    rw [← Option.not_isSome_iff_eq_none, mangled?_isSome_iff]
    rintro ⟨place, lowered, named, _⟩
    obtain ⟨_, _, owned⟩ := mem_placed.mp lowered
    obtain ⟨owner, ownerFound, here⟩ := ClassTable.owns_iff.mp owned
    rw [named, (ClassInfo.mem_declaredMethods.mp isVirtual.1).1, ClassTable.name_of_class? found,
      found, Option.some.injEq] at ownerFound
    rw [← ownerFound, provided] at here
    cases here
  unfold MangleRecord.implName
  rw [unnamed]
  rfl

/-- The names of a provided class's virtual methods are whole and differ. -/
theorem provided_names (found : (ClassTable.ofUnits units).class? name = some info)
    (provided : info.unit = none) (isVirtual : info.HasVirtual method) :
    Unbroken method.2.name ∧ ∀ {other}, info.HasVirtual other →
      method.2.name = other.2.name → method.1 = other.1 := by
  have listed : ∀ info ∈ ClassTable.provided,
      ∀ method ∈ info.declaredMethods, method.2.flags.isVirtual = true →
        Unbroken method.2.name ∧ ∀ other ∈ info.declaredMethods,
          other.2.flags.isVirtual = true → method.2.name = other.2.name → method.1 = other.1 := by
    decide
  have member := List.mem_of_find?_eq_some found
  rw [ClassTable.classes_ofUnits] at member
  obtain ⟨plain, inside, rfl⟩ := List.mem_map.mp member
  have isProvided : plain ∈ ClassTable.provided := by
    refine (List.mem_append.mp inside).resolve_right fun counted => ?_
    obtain ⟨_, _, _, _, _, rfl⟩ := ClassTable.declared_of_mem_counted counted
    cases provided
  obtain ⟨first, ⟨declared, firstVirtual⟩, sameRef, sameName⟩ :=
    ClassInfo.hasVirtual_of_withOverrides isVirtual
  obtain ⟨whole, apart⟩ := listed plain isProvided first declared firstVirtual
  rw [← sameName, ← sameRef]
  refine ⟨whole, fun {other} otherVirtual same => ?_⟩
  obtain ⟨second, ⟨declaredToo, secondVirtual⟩, sameRefToo, sameNameToo⟩ :=
    ClassInfo.hasVirtual_of_withOverrides otherVirtual
  rw [← sameNameToo] at same
  rw [← sameRefToo]
  exact apart second declaredToo secondVirtual same

/-- A method of a class of the program has a name, if it is no constructor and not called like the
entry point. -/
theorem mangled?_of_declared (found : (ClassTable.ofUnits units).class? name = some info)
    (user : info.isProvided = false) (declared : method ∈ info.declaredMethods)
    (isMethod : method.2.flags.isConstructor = false) :
    ((ofUnits units).mangle options .unchanged).record.mangled? method.1 =
        some (((ofUnits units).mangle options .unchanged).record.implName method) ∨
      ((ofUnits units).mangle options .unchanged).record.implName method = options.entryPoint := by
  unfold MangleRecord.implName
  cases named : ((ofUnits units).mangle options .unchanged).record.mangled? method.1 with
  | some given => exact .inl rfl
  | none =>
    right
    -- Its declaration is lowered and no constructor, so only its source name keeps it unnamed.
    obtain ⟨place, counts, decl, inClass, there, isOf⟩ := isOf_of_declared found user declared
    show method.2.name = options.entryPoint
    by_contra other
    apply Option.not_isSome_iff_eq_none.mpr named
    refine mangled?_isSome_iff.mpr ⟨place, counts, inClass, decl, there, ?_⟩
    unfold MangleRecord.keepsName
    rw [Bool.or_eq_false_iff, beq_eq_false_iff_ne, ← isOf.name, ← isOf.isConstructor]
    exact ⟨other, isMethod⟩

/-- **The methods of a class of the program are lowered under different names**, but for those
called like the entry point and for constructors. -/
theorem eq_of_implName (found : (ClassTable.ofUnits units).class? name = some info)
    (user : info.isProvided = false) {other : MethodRef × MethodInfo}
    (declared : method ∈ info.declaredMethods) (declaredToo : other ∈ info.declaredMethods)
    (isMethod : method.2.flags.isConstructor = false)
    (isMethodToo : other.2.flags.isConstructor = false)
    (same : ((ofUnits units).mangle options .unchanged).record.implName method =
      ((ofUnits units).mangle options .unchanged).record.implName other)
    (notEntry : ((ofUnits units).mangle options .unchanged).record.implName method ≠
      options.entryPoint) : method = other := by
  have named := (mangled?_of_declared found user declared isMethod).resolve_right notEntry
  have namedToo :=
    (mangled?_of_declared found user declaredToo isMethodToo).resolve_right (same ▸ notEntry)
  refine ClassInfo.eq_of_ref declared declaredToo ?_
  refine (consistent_record units options).eq_of_mangled? ?_ named (same ▸ namedToo)
  rw [(ClassInfo.mem_declaredMethods.mp declared).1,
    (ClassInfo.mem_declaredMethods.mp declaredToo).1]

/-- **The names of a program's virtual methods tell them apart.** -/
theorem distinguishes_record (units : List SourceUnit) (options : LoweringOptions)
    (entry : Unbroken options.entryPoint) :
    ((ofUnits units).mangle options .unchanged).record.Distinguishes (.ofUnits units)
      options.entryPoint := by
  have plain {name : Name} {info : ClassInfo}
      (found : (ClassTable.ofUnits units).class? name = some info)
      (user : info.isProvided = false) {method : MethodRef × MethodInfo}
      (isVirtual : info.HasVirtual method) : method.2.flags.isConstructor = false := by
    obtain ⟨_, _, _, _, _, isOf⟩ := isOf_of_declared found user isVirtual.1
    exact (isOf.plain_of_isVirtual isVirtual.2).1
  constructor
  · intro name info found method isVirtual
    cases user : info.isProvided with
    | true =>
      have unowned := Option.isNone_iff_eq_none.mp user
      rw [implName_of_provided found unowned isVirtual]
      exact .inl (provided_names found unowned isVirtual).1
    | false =>
      rcases mangled?_of_declared found user isVirtual.1 (plain found user isVirtual) with
        named | named
      · exact .inr ((consistent_record units options).numbered_of_mangled? named)
      · exact .inl (named ▸ entry)
  · intro name info found method other isVirtual isVirtualToo same notEntry
    cases user : info.isProvided with
    | true =>
      have unowned := Option.isNone_iff_eq_none.mp user
      rw [implName_of_provided found unowned isVirtual,
        implName_of_provided found unowned isVirtualToo] at same
      exact ClassInfo.eq_of_ref isVirtual.1 isVirtualToo.1
        ((provided_names found unowned isVirtual).2 isVirtualToo same)
    | false =>
      exact eq_of_implName found user isVirtual.1 isVirtualToo.1 (plain found user isVirtual)
        (plain found user isVirtualToo) same notEntry

end Program

end ObjectLowering
