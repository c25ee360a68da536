/-
**The method that a call means is the least of those it may mean.**

A call may mean each method of its name in the class and its ancestors, constructors aside, whose
parameters accept the arguments, unless one of the same parameter types is nearer: declared in a
class below, or earlier in the same class. The search collects them from the nearest on. It returns
the one whose parameters go to those of every other. Assignability is antisymmetric where no class
is above itself, so there is at most one.

* `ClassTable.IsCandidate` and `ClassTable.IsLeast` say which methods these are, without a search.
* `ClassTable.pairwise_visibleMethods`: the visible methods are listed from the nearest on.
* **`ClassTable.mem_candidates_iff`**: the search collects what a call may mean.
* `ClassTable.IsLeast.unique`: at most one method is the least.
* **`ClassTable.resolveOverload_eq_some_iff`**: it is the one that is returned.
* `ClassTable.resolveOverload_of_undeclared`: a class that has no such method asks its parent.
-/

import ObjectLowering.Proofs.Overloads.SlotSignatures

namespace ObjectLowering

/-- In a list in order, the first item that passes a test is the one that no other such item
precedes. -/
theorem find?_eq_some_iff_of_pairwise {α : Type} {before : α → α → Prop}
    (asymm : ∀ first second, before first second → ¬before second first) {items : List α}
    (ordered : items.Pairwise before) {test : α → Bool} {item : α} :
    items.find? test = some item ↔
      item ∈ items ∧ test item = true ∧
        ∀ other ∈ items, test other = true → ¬before other item := by
  have first {item : α} (found : items.find? test = some item) :
      ∃ front back, items = front ++ item :: back ∧ (∀ other ∈ front, test other = false) ∧
        ∀ other ∈ back, before item other := by
    obtain ⟨_, front, back, rfl, fails⟩ := List.find?_eq_some_iff_append.mp found
    have later := (List.pairwise_cons.mp (List.pairwise_append.mp ordered).2.1).1
    exact ⟨front, back, rfl, fun other member => (Bool.not_eq_true' _).mp (fails other member),
      later⟩
  constructor
  · intro found
    obtain ⟨front, back, split, fails, later⟩ := first found
    refine ⟨List.mem_of_find?_eq_some found, List.find?_some found, fun other member passes => ?_⟩
    rw [split] at member
    rcases List.mem_append.mp member with earlier | member
    · cases (fails other earlier).symm.trans passes
    · rcases List.mem_cons.mp member with rfl | behind
      · exact fun again => asymm _ _ again again
      · exact asymm _ _ (later other behind)
  · rintro ⟨member, passes, unpreceded⟩
    obtain ⟨other, found⟩ :=
      Option.isSome_iff_exists.mp (List.find?_isSome.mpr ⟨item, member, passes⟩)
    obtain ⟨front, back, split, fails, later⟩ := first found
    rw [split] at member
    rcases List.mem_append.mp member with earlier | member
    · cases (fails item earlier).symm.trans passes
    · rcases List.mem_cons.mp member with rfl | behind
      · exact found
      · exact absurd (later item behind)
          (unpreceded other (List.mem_of_find?_eq_some found) (List.find?_some found))

namespace ClassTable

variable {table : ClassTable} {className name : Name} {args : List (Option Ty)}
  {method other : MethodRef × MethodInfo}

/-! ### What a call may mean -/

/-- The class has the method or inherits it. -/
structure Sees (table : ClassTable) (className : Name) (method : MethodRef × MethodInfo) :
    Prop where
  entry : table.method? method.1 = some method.2
  above : Relation.ReflTransGen table.Declares className method.1.className

/-- The first method is declared in a class below that of the second, or earlier in its class. -/
def Nearer (table : ClassTable) (first second : MethodRef) : Prop :=
  first.className = second.className ∧ first.index < second.index ∨
    Relation.TransGen table.Declares first.className second.className

/-- A parameter takes an argument of its type or of an unknown one. -/
def Accepts (table : ClassTable) (param : Ty) (arg : Option Ty) : Prop :=
  ∀ type, arg = some type → table.isAssignable type param = true

/-- A method that a call may mean: it has the name, it is no constructor, each of its parameters
takes the argument at its place, and no nearer method with its parameter types hides it. -/
structure IsCandidate (table : ClassTable) (className name : Name) (args : List (Option Ty))
    (method : MethodRef × MethodInfo) : Prop where
  seen : table.Sees className method
  named : method.2.name = name
  isMethod : method.2.flags.isConstructor = false
  accepts : List.Forall₂ table.Accepts method.2.params args
  unhidden : ∀ other, table.Sees className other → other.2.name = name →
    other.2.flags.isConstructor = false → other.2.params = method.2.params →
      ¬table.Nearer other.1 method.1

/-- Each parameter of the first may be assigned to that of the second at its place. -/
def Below (table : ClassTable) (first second : MethodInfo) : Prop :=
  List.Forall₂ (fun param other => table.isAssignable param other = true) first.params
    second.params

/-- A method that a call may mean and that is below all of them. -/
structure IsLeast (table : ClassTable) (className name : Name) (args : List (Option Ty))
    (method : MethodRef × MethodInfo) : Prop where
  candidate : table.IsCandidate className name args method
  below : ∀ other, table.IsCandidate className name args other → table.Below method.2 other.2

/-! ### The order of visible methods -/

theorem Nearer.asymm (acyclic : ∀ name, ¬table.Circular name) {first second : MethodRef}
    (there : table.Nearer first second) : ¬table.Nearer second first := by
  rcases there with ⟨same, earlier⟩ | up
  · rintro (⟨_, later⟩ | down)
    · exact Nat.lt_asymm earlier later
    · exact acyclic _ (same ▸ down)
  · rintro (⟨same, _⟩ | down)
    · exact acyclic _ (same ▸ up)
    · exact acyclic _ (up.trans down)

theorem mem_visibleMethods_iff (named : className ≠ Reserved.empty) :
    method ∈ table.visibleMethods className ↔ table.Sees className method := by
  unfold visibleMethods
  rw [List.mem_flatMap]
  constructor
  · rintro ⟨info, above, declared⟩
    have found := class?_of_mem_ancestors above
    obtain ⟨owner, entry⟩ := method?_of_mem_declaredMethods found declared
    refine ⟨entry, ?_⟩
    rw [owner]
    exact (isSubclass_iff.mp (isSubclass_iff_mem_ancestors.mpr ⟨info, above, rfl⟩)).2.2
  · rintro ⟨entry, way⟩
    obtain ⟨info, found, there⟩ := Option.bind_eq_some_iff.mp entry
    obtain ⟨above, member, same⟩ := isSubclass_iff_mem_ancestors.mp
      (isSubclass_iff.mpr ⟨named, contains_of_class? found, way⟩)
    have foundToo := class?_of_mem_ancestors member
    rw [same, found, Option.some.injEq] at foundToo
    subst foundToo
    exact ⟨info, member, ClassInfo.mem_declaredMethods.mpr ⟨same.symm, there⟩⟩

theorem pairwise_climb (steps : Nat) (name : Name) :
    (table.climb steps name).Pairwise fun lower upper =>
      Relation.TransGen table.Declares lower.name upper.name := by
  induction steps generalizing name with
  | zero => exact .nil
  | succ steps step =>
    unfold climb
    split
    · exact .nil
    · rename_i info found
      split
      · exact List.pairwise_singleton _ _
      · rename_i named
        refine List.pairwise_cons.mpr ⟨fun upper member => ?_, step _⟩
        rw [name_of_class? found]
        exact .head' (declares_iff.mpr ⟨declared_of_class? found, named⟩)
          (above_of_mem_climb member)

/-- **Visible methods are listed from the nearest on.** -/
theorem pairwise_visibleMethods (table : ClassTable) (className : Name) :
    (table.visibleMethods className).Pairwise fun first second =>
      table.Nearer first.1 second.1 := by
  have ancestors : (table.ancestors className).Pairwise fun lower upper =>
      Relation.TransGen table.Declares lower.name upper.name := by
    unfold ancestors
    split
    · exact .nil
    · exact pairwise_climb _ _
  unfold visibleMethods
  refine List.pairwise_flatMap.mpr ⟨fun info _ => ?_, ancestors.imp ?_⟩
  · have positions : (info.methods.zipIdx.map Prod.snd).Pairwise (· < ·) := by
      rw [List.zipIdx_map_snd]
      exact List.pairwise_lt_range'
    unfold ClassInfo.declaredMethods
    rw [List.pairwise_map] at positions ⊢
    exact positions.imp fun earlier => .inl ⟨rfl, earlier⟩
  · intro lower upper up first declared second declaredToo
    refine .inr ?_
    rwa [(ClassInfo.mem_declaredMethods.mp declared).1,
      (ClassInfo.mem_declaredMethods.mp declaredToo).1]

/-! ### The search -/

theorem fits_iff {info : MethodInfo} : table.Fits name args info ↔
    info.name = name ∧ info.flags.isConstructor = false ∧
      List.Forall₂ table.Accepts info.params args := by
  have applies : table.isApplicable info args = true ↔
      ∀ {param arg}, (param, arg) ∈ info.params.zip args → table.Accepts param arg := by
    unfold isApplicable Accepts
    rw [List.all_eq_true]
    refine ⟨fun all param arg member type known => ?_, fun all pair member => ?_⟩
    · have here := all (param, arg) member
      rwa [known] at here
    · rw [Option.all_eq_true]
      exact all member
  rw [List.forall₂_iff_zip, ← applies]
  exact ⟨fun ⟨named, isMethod, counted, fits⟩ => ⟨named, isMethod, counted, fits⟩,
    fun ⟨named, isMethod, counted, fits⟩ => ⟨named, isMethod, counted, fits⟩⟩

/-- **The search collects what a call may mean.** -/
theorem mem_candidates_iff (acyclic : ∀ name, ¬table.Circular name)
    (named : className ≠ Reserved.empty) :
    method ∈ table.candidates className name args ↔
      table.IsCandidate className name args method := by
  have first (params : List Ty) : (table.visibleMethods className).find?
      (·.2.answers name params) = some method ↔ table.Sees className method ∧
        method.2.answers name params = true ∧ ∀ other, table.Sees className other →
          other.2.answers name params = true → ¬table.Nearer other.1 method.1 := by
    rw [find?_eq_some_iff_of_pairwise (fun _ _ => Nearer.asymm acyclic)
      (pairwise_visibleMethods table className)]
    simp only [mem_visibleMethods_iff named]
  constructor
  · intro member
    obtain ⟨fits, found⟩ := first_of_mem_candidates member
    obtain ⟨sourceName, isMethod, accepts⟩ := fits_iff.mp fits
    obtain ⟨seen, _, unhidden⟩ := (first _).mp found
    exact ⟨seen, sourceName, isMethod, accepts, fun other seenToo namedToo isMethodToo same =>
      unhidden other seenToo (MethodInfo.answers_iff.mpr ⟨namedToo, isMethodToo, same⟩)⟩
  · rintro ⟨seen, sourceName, isMethod, accepts, unhidden⟩
    have fits := fits_iff.mpr ⟨sourceName, isMethod, accepts⟩
    obtain ⟨other, member, same⟩ := exists_candidate ((mem_visibleMethods_iff named).mpr seen) fits
    have found := (first_of_mem_candidates member).2
    have foundToo := (first other.2.params).mpr
      ⟨seen, MethodInfo.answers_iff.mpr ⟨sourceName, isMethod, same.symm⟩,
        fun nearer seenToo answers => by
          obtain ⟨namedToo, isMethodToo, sameToo⟩ := MethodInfo.answers_iff.mp answers
          exact unhidden nearer seenToo namedToo isMethodToo (sameToo.trans same)⟩
    rw [found, Option.some.injEq] at foundToo
    rwa [foundToo] at member

/-! ### The choice -/

theorem below_iff {first second : MethodInfo}
    (counted : first.params.length = second.params.length) :
    table.Below first second ↔ table.isMoreSpecific first second = true := by
  unfold Below isMoreSpecific
  rw [List.forall₂_iff_zip, List.all_eq_true]
  exact ⟨fun all pair member => all.2 member, fun all => ⟨counted, fun member => all _ member⟩⟩

/-- What a call may mean has a parameter for each argument. -/
theorem IsCandidate.length_eq (candidate : table.IsCandidate className name args method) :
    method.2.params.length = args.length := candidate.accepts.length_eq

theorem isLeast_iff (acyclic : ∀ name, ¬table.Circular name) (named : className ≠ Reserved.empty) :
    table.IsLeast className name args method ↔
      method ∈ table.candidates className name args ∧
        ∀ other ∈ table.candidates className name args,
          table.isMoreSpecific method.2 other.2 = true := by
  have below {first second : MethodRef × MethodInfo}
      (one : table.IsCandidate className name args first)
      (another : table.IsCandidate className name args second) :
      table.Below first.2 second.2 ↔ table.isMoreSpecific first.2 second.2 = true :=
    below_iff (one.length_eq.trans another.length_eq.symm)
  constructor
  · rintro ⟨candidate, least⟩
    refine ⟨(mem_candidates_iff acyclic named).mpr candidate, fun other member => ?_⟩
    have another := (mem_candidates_iff acyclic named).mp member
    exact (below candidate another).mp (least other another)
  · rintro ⟨member, least⟩
    have candidate := (mem_candidates_iff acyclic named).mp member
    refine ⟨candidate, fun other another => (below candidate another).mpr ?_⟩
    exact least other ((mem_candidates_iff acyclic named).mpr another)

/-- **At most one method is below all that a call may mean.** -/
theorem IsLeast.unique (acyclic : ∀ name, ¬table.Circular name)
    (named : className ≠ Reserved.empty) (least : table.IsLeast className name args method)
    (leastToo : table.IsLeast className name args other) : method = other := by
  have counted := least.candidate.length_eq.trans leastToo.candidate.length_eq.symm
  obtain ⟨member, specific⟩ := (isLeast_iff acyclic named).mp least
  obtain ⟨memberToo, specificToo⟩ := (isLeast_iff acyclic named).mp leastToo
  have same := isMoreSpecific_antisymm (fun name _ => eq_of_isSubclass (acyclic name)) counted
    (specific other memberToo) (specificToo method member)
  exact List.inj_on_of_nodup_map nodup_candidates member memberToo same

/-- **A call means the least method that it may mean**, and nothing if there is none. -/
theorem resolveOverload_eq_some_iff (acyclic : ∀ name, ¬table.Circular name)
    (named : className ≠ Reserved.empty) {ref : MethodRef} :
    table.resolveOverload className name args = some ref ↔
      ∃ info, table.IsLeast className name args (ref, info) := by
  constructor
  · intro resolved
    unfold resolveOverload at resolved
    dsimp only at resolved
    split at resolved
    · rename_i method only
      cases resolved
      obtain ⟨member, specific⟩ := List.mem_filter.mp (only ▸ List.mem_singleton_self method)
      exact ⟨method.2, (isLeast_iff acyclic named).mpr ⟨member, List.all_eq_true.mp specific⟩⟩
    · cases resolved
  · rintro ⟨info, least⟩
    obtain ⟨member, specific⟩ := (isLeast_iff acyclic named).mp least
    refine resolveOverload_of_best member specific fun other memberToo specificToo => ?_
    -- What is below the least method is below all others, too.
    have counted := ((mem_candidates_iff acyclic named).mp memberToo).length_eq.trans
      least.candidate.length_eq.symm
    have same := isMoreSpecific_antisymm (fun name _ => eq_of_isSubclass (acyclic name)) counted
      specificToo (specific other memberToo)
    exact List.inj_on_of_nodup_map nodup_candidates memberToo member same

/-- A call means nothing exactly if no method is below all that it may mean. -/
theorem resolveOverload_eq_none_iff (acyclic : ∀ name, ¬table.Circular name)
    (named : className ≠ Reserved.empty) :
    table.resolveOverload className name args = none ↔
      ∀ method, table.IsCandidate className name args method →
        ∃ other, table.IsCandidate className name args other ∧ ¬table.Below method.2 other.2 := by
  rw [Option.eq_none_iff_forall_ne_some]
  constructor
  · intro unresolved method candidate
    by_contra below
    push Not at below
    exact unresolved method.1
      ((resolveOverload_eq_some_iff acyclic named).mpr ⟨method.2, candidate, below⟩)
  · intro above ref resolved
    obtain ⟨info, least⟩ := (resolveOverload_eq_some_iff acyclic named).mp resolved
    obtain ⟨other, candidate, notBelow⟩ := above _ least.candidate
    exact notBelow (least.below other candidate)

/-- **A class without a method of the name leaves a call to its parent.** -/
theorem resolveOverload_of_undeclared (acyclic : ∀ name, ¬table.Circular name)
    (named : className ≠ Reserved.empty) {info : ClassInfo}
    (found : table.class? className = some info)
    (undeclared : ∀ method ∈ info.methods, method.name = name →
      method.flags.isConstructor = true) :
    table.resolveOverload className name args = table.resolveOverload info.parent name args := by
  have skips (methods : List (MethodRef × MethodInfo))
      (none : ∀ method ∈ methods, ¬table.Fits name args method.2) :
      methods.foldl (table.addCandidate name args) [] = [] := by
    induction methods with
    | nil => rfl
    | cons method rest step =>
      obtain ⟨fits, _⟩ | ⟨_, left⟩ := addCandidate_eq [] method
      · exact absurd fits (none method List.mem_cons_self)
      · rw [List.foldl_cons, left]
        exact step fun later member => none later (List.mem_cons_of_mem _ member)
  have own : info.declaredMethods.foldl (table.addCandidate name args) [] = [] := by
    refine skips _ fun method declared fits => ?_
    have member := List.mem_of_getElem? (ClassInfo.mem_declaredMethods.mp declared).2
    cases fits.isMethod.symm.trans (undeclared method.2 member fits.named)
  have same : table.candidates className name args = table.candidates info.parent name args := by
    unfold candidates visibleMethods
    rw [ancestors_eq_cons acyclic found named, List.flatMap_cons, List.foldl_append, own]
  unfold resolveOverload
  rw [same]

end ClassTable

end ObjectLowering
