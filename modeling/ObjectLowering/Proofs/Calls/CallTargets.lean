/-
**What the target of a call is, and how a lowered call names it.**

Among the methods that a call may mean, a method hides later ones of its parameter types. So the
target is the first of its name and parameter types that is visible from the class that was
searched, constructors aside. A call by class carries the class of its target; a direct call carries
the name of the target alone.

* `ClassTable.find?_of_target?`: the target is the first visible method of its signature.
* `ClassTable.first_of_target?`: if it stands in the class that was searched, it is the first there.
* `CallSites.founded_ofUnit`: every target that is stored for a unit was found by a search.
* **`Source.Expr.refers_of_gives`**: what a lowered call says of its target.
-/

import ObjectLowering.Proofs.Lowering.ArrayOperands
import ObjectLowering.Proofs.Lowering.Total

namespace ObjectLowering

open Source (SourceUnit)

/-! ### The target among the visible methods -/

/-- Whether a method may be meant by a call of a name with arguments for these parameters: it has
both and is no constructor. -/
def MethodInfo.answers (method : MethodInfo) (name : Name) (params : List Ty) : Bool :=
  method.name == name && !method.flags.isConstructor && method.params == params

theorem MethodInfo.answers_iff {method : MethodInfo} {name : Name} {params : List Ty} :
    method.answers name params = true ↔
      method.name = name ∧ method.flags.isConstructor = false ∧ method.params = params := by
  unfold answers
  rw [Bool.and_eq_true, Bool.and_eq_true, beq_iff_eq, beq_iff_eq, Bool.not_eq_true', and_assoc]

namespace ClassTable

variable {table : ClassTable} {className name : Name} {args : List (Option Ty)}

/-- What a call of a name with these arguments asks of a method. -/
structure Fits (table : ClassTable) (name : Name) (args : List (Option Ty)) (method : MethodInfo) :
    Prop where
  named : method.name = name
  isMethod : method.flags.isConstructor = false
  counted : method.params.length = args.length
  applicable : table.isApplicable method args = true

/-- A method becomes a candidate if it fits and no candidate has its parameter types. -/
theorem addCandidate_eq (found : List (MethodRef × MethodInfo)) (method : MethodRef × MethodInfo) :
    (table.Fits name args method.2 ∧ (∀ other ∈ found, other.2.params ≠ method.2.params) ∧
        table.addCandidate name args found method = found ++ [method]) ∨
      ((table.Fits name args method.2 → ∃ other ∈ found, other.2.params = method.2.params) ∧
        table.addCandidate name args found method = found) := by
  unfold addCandidate
  split
  · rename_i added
    simp only [Bool.and_eq_true, beq_iff_eq, Bool.not_eq_true', List.any_eq_false] at added
    obtain ⟨⟨⟨⟨named, isMethod⟩, counted⟩, new⟩, applicable⟩ := added
    exact .inl ⟨⟨named, isMethod, counted, applicable⟩, new, rfl⟩
  · rename_i left
    refine .inr ⟨fun fits => ?_, rfl⟩
    by_contra new
    push Not at new
    apply left
    simp only [Bool.and_eq_true, beq_iff_eq, Bool.not_eq_true', List.any_eq_false]
    exact ⟨⟨⟨⟨fits.named, fits.isMethod⟩, fits.counted⟩, new⟩, fits.applicable⟩

/-- A method that fits makes every method fit that answers for it. -/
theorem Fits.of_answers {method other : MethodInfo} (fits : table.Fits name args method)
    (answers : other.answers name method.params = true) : table.Fits name args other := by
  obtain ⟨named, isMethod, same⟩ := MethodInfo.answers_iff.mp answers
  refine ⟨named, isMethod, same ▸ fits.counted, ?_⟩
  unfold isApplicable
  rw [same]
  exact fits.applicable

/-- **A candidate fits and is the first visible method of its signature.** -/
theorem first_of_mem_candidates {method : MethodRef × MethodInfo}
    (member : method ∈ table.candidates className name args) :
    table.Fits name args method.2 ∧
      (table.visibleMethods className).find? (·.2.answers name method.2.params) = some method := by
  unfold candidates at member
  generalize table.visibleMethods className = visible at member ⊢
  -- A method that is added late has parameter types that no earlier candidate has.
  suffices all : ∀ found : List (MethodRef × MethodInfo),
      method ∈ visible.foldl (table.addCandidate name args) found → method ∈ found ∨
        (table.Fits name args method.2 ∧ (∀ other ∈ found, other.2.params ≠ method.2.params) ∧
          visible.find? (·.2.answers name method.2.params) = some method) from
    ((all [] member).resolve_left List.not_mem_nil).imp_right And.right
  clear member
  induction visible with
  | nil => exact fun found member => .inl member
  | cons first rest step =>
    intro found member
    rw [List.foldl_cons] at member
    rcases addCandidate_eq found first with ⟨fits, new, added⟩ | ⟨covered, left⟩
    · rw [added] at member
      rcases step _ member with inside | ⟨fitsToo, others, behind⟩
      · rcases List.mem_append.mp inside with before | here
        · exact .inl before
        · cases List.mem_singleton.mp here
          refine .inr ⟨fits, new, List.find?_cons_of_pos (MethodInfo.answers_iff.mpr ?_)⟩
          exact ⟨fits.named, fits.isMethod, rfl⟩
      · rw [List.forall_mem_append, List.forall_mem_singleton] at others
        refine .inr ⟨fitsToo, others.1, ?_⟩
        rw [List.find?_cons_of_neg, behind]
        exact fun answers => others.2 (MethodInfo.answers_iff.mp answers).2.2
    · rw [left] at member
      refine (step _ member).imp_right fun ⟨fits, others, behind⟩ => ⟨fits, others, ?_⟩
      rw [List.find?_cons_of_neg, behind]
      intro answers
      obtain ⟨other, inside, same⟩ := covered (fits.of_answers answers)
      exact others other inside (same.trans (MethodInfo.answers_iff.mp answers).2.2)

variable {target : MethodRef} {info : MethodInfo}

/-- **The target of a call is the first visible method of its signature.** -/
theorem find?_of_target? (found : table.target? (some className) name args = some (target, info)) :
    table.Fits name args info ∧
      (table.visibleMethods className).find? (·.2.answers name info.params) =
        some (target, info) := by
  obtain ⟨_, above, _, declared, entry⟩ := declared_of_target? found
  unfold target? at found
  rw [Option.bind_some, Option.bind_eq_some_iff] at found
  obtain ⟨_, overload, found⟩ := found
  obtain ⟨_, _, same⟩ := Option.map_eq_some_iff.mp found
  cases same
  unfold resolveOverload at overload
  dsimp only at overload
  split at overload
  · rename_i method only
    cases overload
    have member : method ∈ table.candidates className name args :=
      List.mem_of_mem_filter (only ▸ List.mem_singleton_self method)
    have seen := mem_visibleMethods_of_mem_candidates member
    obtain ⟨_, aboveToo, declaredToo⟩ := List.mem_flatMap.mp seen
    have entered := method?_of_mem_declaredMethods (class?_of_mem_ancestors aboveToo) declaredToo
    rw [entry, Option.some.injEq] at entered
    rw [entered.2]
    exact first_of_mem_candidates member
  · cases overload

/-- If the class that was searched declares the target, it declares none of its signature before. -/
theorem first_of_target? (found : table.target? (some className) name args = some (target, info))
    {owner : ClassInfo} (known : table.class? className = some owner)
    (here : target.className = className) :
    owner.declaredMethods.find? (·.2.answers name info.params) = some (target, info) := by
  obtain ⟨decl, above, named, declared, _⟩ := declared_of_target? found
  have same := class?_of_mem_ancestors above
  rw [named, here, known, Option.some.injEq] at same
  subst same
  obtain ⟨fits, first⟩ := find?_of_target? found
  obtain ⟨older, lineage⟩ : ∃ older, table.ancestors className = owner :: older := by
    unfold ancestors at above ⊢
    split at above
    · cases above
    · cases steps : table.size with
      | zero =>
        rw [steps] at above
        cases above
      | succ steps =>
        unfold climb
        rw [known, if_neg ‹_›]
        exact ⟨_, rfl⟩
  unfold visibleMethods at first
  rw [lineage, List.flatMap_cons, List.find?_append] at first
  cases own : owner.declaredMethods.find? (·.2.answers name info.params) with
  | some method =>
    rw [own] at first
    exact first
  | none =>
    have answers := MethodInfo.answers_iff.mpr ⟨fits.named, fits.isMethod, rfl⟩
    exact absurd answers (List.find?_eq_none.mp own _ declared)

end ClassTable

/-! ### The targets of a unit -/

/-- The target of a call was found by a search of a class, and its name is the one on record. -/
def CallSite.FoundIn (site : CallSite) (table : ClassTable) (record : MangleRecord)
    (className : Name) (info : MethodInfo) : Prop :=
  ∃ method args, table.target? (some className) method args = some (site.target, info) ∧
    site.mangled = record.implName (site.target, info)

namespace CallSites

variable {table : ClassTable} {notes : Annotations} {record : MangleRecord}

theorem foundIn_of_resolveCall {owner method : Name} {receiver : Option Source.Expr}
    {args : List Source.Expr} {site : CallSite}
    (resolved : resolveCall (.ofUnit table notes) record owner receiver method args = some site) :
    ∃ className info, lookupClass (.ofUnit table notes) owner receiver = some className ∧
      site.FoundIn table record className info := by
  obtain ⟨className, searched, resolved⟩ := Option.bind_eq_some_iff.mp resolved
  obtain ⟨target, overload, resolved⟩ := Option.bind_eq_some_iff.mp resolved
  obtain ⟨info, entry, resolved⟩ := Option.bind_eq_some_iff.mp resolved
  cases resolved
  refine ⟨className, info, searched, method, args.map (notes.type? ·.id), ?_, rfl⟩
  refine Option.bind_eq_some_iff.mpr ⟨target, overload, ?_⟩
  exact Option.map_eq_some_iff.mpr ⟨info, entry, rfl⟩

/-- **Every target that is stored for a unit was found by a search.** -/
theorem founded_ofUnit {index : Nat} {unit : SourceUnit} {id : NodeId} {site : CallSite}
    (stored : (ofUnit (.ofUnit table notes) record index unit).get? id = some site) :
    ∃ className info, site.FoundIn table record className info := by
  rw [ofUnit_eq] at stored
  refine List.foldlRecOn (motive := fun sites : CallSites => ∀ site, sites.get? id = some site →
    ∃ className info, site.FoundIn table record className info) _ _ ?_ ?_ site stored
  · intro _ absent
    cases (NodeMap.get?_empty _ _).symm.trans absent
  · intro sites founded located _ site stored
    unfold addLocated add at stored
    split at stored
    · split at stored
      · rename_i resolved
        rcases NodeMap.eq_or_of_get?_insert stored with rfl | before
        · obtain ⟨className, info, _, found⟩ := foundIn_of_resolveCall resolved
          exact ⟨className, info, found⟩
        · exact founded site before
      · exact founded site stored
    · exact founded site stored

end CallSites

/-! ### Lowered calls -/

/-- What is evaluated last, after the statements in front of it. -/
def Lowered.Expr.result : Lowered.Expr → Lowered.Expr
  | .block _ _ result => result
  | expr => expr

namespace Lowering

open Lowered (Expr)

theorem result_behind (span : Span) (stmts : List Lowered.Stmt) (expr : Expr) :
    (behind span stmts expr).result = if stmts.isEmpty then expr.result else expr := by
  unfold behind
  split <;> rfl

/-- What a lowered call says of its target. -/
inductive Refers (context : Context) (id : NodeId) (viaSuper : Bool) : Expr → Prop
  | byClass {span : Span} {args : List Expr} {site : CallSite}
    (resolved : context.sites.get? id = some site)
    (way : context.facade.dispatch id = some .static ∨
      context.facade.dispatch id = some .direct ∧ viaSuper = true) :
    Refers context id viaSuper (.qualifiedCall span site.target.className site.mangled args)
  | byName {span : Span} {receiver : Expr} {args : List Expr} {site : CallSite}
    (resolved : context.sites.get? id = some site)
    (way : context.facade.dispatch id = some .direct ∧ viaSuper = false) :
    Refers context id viaSuper (.directCall span receiver site.mangled args)
  | bySlot {span : Span} {receiver : Expr} {slot : Name} {args : List Expr} {site : CallSite}
    (resolved : context.sites.get? id = some site)
    (way : context.facade.dispatch id = some .virtual) :
    Refers context id viaSuper (.virtualCall span receiver slot args)
  | bySource {span : Span} {receiver : Expr} {method : Name} {args : List Expr}
    (absent : context.sites.get? id = none) :
    Refers context id viaSuper (.unresolvedCall span receiver method args)
  | output {span : Span} {newline : Bool} {args : List Expr} :
    Refers context id viaSuper (.print span newline args)

variable {context : Context} {routine : Routine} {parts : CallParts} {site : CallSite}

/-- Statements in front of a call leave what it says. -/
theorem ensures_result (span : Span) (stmts : List Lowered.Stmt) {expr : Expr}
    {property : Expr → Prop} (alone : expr.result = expr) (known : property expr) :
    Ensures (blockExpr span stmts expr) fun lowered => property lowered.result := by
  refine (ensures_blockExpr span stmts expr).mono fun lowered shape => ?_
  rw [shape, result_behind, alone, ite_self]
  exact known

/-- **A lowered call says what its way calls for.** -/
theorem ensures_lowerCall : Ensures (lowerCall context routine parts) fun lowered =>
    Refers context parts.tag.id (parts.receiver.any (·.expr.isSuper)) lowered.result := by
  unfold lowerCall
  split
  · exact .after fun _ => .pure .output
  split
  · rename_i absent
    unfold unresolvedCall
    dsimp only
    split
    · exact Ensures.bind .fail fun _ (never : False) => never.elim
    · split <;> exact .after fun _ => .after fun _ => .pure (.bySource absent)
  rename_i site resolved
  split
  · exact .fail
  · rename_i static
    exact .after fun _ => .after fun _ => ensures_result _ _ rfl (.byClass resolved (.inl static))
  · rename_i direct
    unfold directCall
    dsimp only
    split
    · rename_i viaSuper
      exact .after fun _ => .pure (.byClass resolved (.inr ⟨direct, viaSuper⟩))
    · rename_i other
      refine .after fun _ => .after fun _ => .after fun _ => ensures_result _ _ rfl ?_
      exact .byName resolved ⟨direct, Bool.eq_false_iff.mpr other⟩
  · rename_i virtual
    refine .after fun _ => .after fun _ => .after fun _ => .after fun _ => .after fun _ => ?_
    exact ensures_result _ _ rfl (.bySlot resolved virtual)

end Lowering

open Lowering (Context Gives Refers)

/-- **What a lowered call says of its target.** -/
theorem Source.Expr.refers_of_gives {context : Context} {routine : Routine} {tag : Tag}
    {receiver : Option Expr} {method : Name} {args : List Expr} {lowered : Lowered.Expr}
    (given : Gives ((Expr.call tag receiver method args).lower context routine) lowered) :
    Refers context tag.id (receiver.any (·.isSuper)) lowered.result := by
  obtain ⟨start, stop, done⟩ := given
  cases receiver with
  | none => exact Lowering.ensures_lowerCall start lowered stop done
  | some receiver => exact Lowering.ensures_lowerCall start lowered stop done

end ObjectLowering
