/-
**What a form declares and reads.**

A form of lowering takes temporaries one after the other and declares each of them, once, in front
of where it is read. Besides its temporaries a form reads only what its parts read and the receiver.
So the names in scope where a local is read are those around the form, behind temporaries of the
form.

* `Lowering.Takes` speaks of a step's results and of the names of the temporaries that it took;
  `Takes.bind` puts them one behind the other.
* `Binds` says which locals a part of a tree declares, and that it reads no others than these and
  those that are allowed. `Closes` says so of an expression, `Opens` of statements that stand in
  front of a value.
* `Furnishes`: what is declared for an operand, and what its uses read.
-/

import ObjectLowering.Lowering.Class
import ObjectLowering.Proofs.Lowering.PureOperands
import ObjectLowering.Proofs.Temporaries.Declarations

namespace ObjectLowering

open Lowered (Expr Stmt)

namespace Lowering

/-! ### Temporaries that a step takes -/

/-- The names of the temporaries from a number on up to another one. -/
def temps (start stop : Nat) : List Name := (List.range' start (stop - start)).map tempName

theorem temps_self (start : Nat) : temps start start = [] := by
  unfold temps
  rw [Nat.sub_self]
  rfl

theorem temps_succ (start : Nat) : temps start (start + 1) = [tempName start] := by
  unfold temps
  rw [Nat.add_sub_cancel_left]
  rfl

theorem temps_append {start middle stop : Nat} (first : start ≤ middle) (second : middle ≤ stop) :
    temps start middle ++ temps middle stop = temps start stop := by
  unfold temps
  rw [← List.map_append]
  refine congrArg (List.map tempName) ?_
  have joined : List.range' start (middle - start) ++
      List.range' (start + 1 * (middle - start)) (stop - middle) =
        List.range' start (middle - start + (stop - middle)) := List.range'_append
  have middleEq : start + 1 * (middle - start) = middle := by omega
  have lengthEq : middle - start + (stop - middle) = stop - start := by omega
  rwa [middleEq, lengthEq] at joined

/-- The step takes temporaries one after the other, and what it comes to has the property, which
speaks of their names. -/
def Takes {α : Type} (step : LowerM α) (property : List Name → α → Prop) : Prop :=
  ∀ start value stop, step.run start = .ok (value, stop) →
    start ≤ stop ∧ property (temps start stop) value

namespace Takes

variable {α β : Type} {step : LowerM α} {next : α → LowerM β}
  {property other : List Name → α → Prop} {result : List Name → β → Prop}

theorem mono (takes : Takes step property)
    (weaker : ∀ added value, property added value → other added value) : Takes step other :=
  fun start value stop done => (takes start value stop done).imp_right (weaker _ value)

theorem pure {value : α} (known : property [] value) : Takes (pure value) property := by
  intro start found stop done
  cases done
  exact ⟨Nat.le_refl _, temps_self _ ▸ known⟩

theorem fail {error : LoweringError} : Takes (fail error) property := by
  intro start found stop done
  cases done

/-- The temporaries of two steps are those of the first, then those of the second. -/
theorem bind (first : Takes step property)
    (second : ∀ added value, property added value →
      Takes (next value) fun more value => result (added ++ more) value) :
    Takes (step >>= next) result := by
  intro start value stop done
  obtain ⟨middle, count, here, there⟩ := run_of_bind done
  obtain ⟨grown, known⟩ := first start middle count here
  obtain ⟨more, reached⟩ := second _ middle known count value stop there
  exact ⟨Nat.le_trans grown more, temps_append grown more ▸ reached⟩

/-- A step that takes none. -/
theorem bind_none {known : α → Prop}
    (first : Takes step fun added value => added = [] ∧ known value)
    (second : ∀ value, known value → Takes (next value) result) : Takes (step >>= next) result :=
  first.bind fun added value ⟨untaken, here⟩ => by
    subst untaken
    exact second value here

/-- A last step that turns the result into another one. -/
theorem bind_pure {change : α → β} (first : Takes step property)
    (second : ∀ added value, property added value → result added (change value)) :
    Takes (step >>= fun value => Pure.pure (change value)) result :=
  first.bind fun added value known => pure (by
    rw [List.append_nil]
    exact second added value known)

theorem checkLength {ι : Type} (kind : NodeKind) (items : List ι) :
    Takes (checkLength kind items) fun added _ => added = [] ∧ True := by
  unfold Lowering.checkLength
  split
  · exact pure ⟨rfl, trivial⟩
  · intro start found stop done
    cases done

/-- A routine counts its temporaries from zero. -/
theorem of_inRoutine (takes : Takes step property) {value : α} (done : inRoutine step = .ok value) :
    ∃ count, property (temps 0 count) value := by
  obtain ⟨⟨_, stop⟩, ran, rfl⟩ := ok_of_map done
  exact ⟨stop, (takes 0 _ stop ran).2⟩

end Takes

theorem takes_bindTemp (type : Ty) (value : Expr) : Takes (bindTemp type value) fun added bound =>
    added = [bound.2] ∧ bound.1 = .localVar type bound.2 value := by
  intro start bound stop done
  cases done
  exact ⟨Nat.le_succ _, temps_succ start, rfl⟩

/-! ### Parts of a tree -/

/-- The name is declared in front or allowed otherwise. -/
def Behind (tops : List Name) (allowed : Name → Prop) (name : Name) : Prop :=
  name ∈ tops ∨ allowed name

/-- The part declares what was added and reads nothing else, but for what is allowed; where it reads
a local, only what was added is in scope in front of what is in scope around the part. -/
structure Binds (allowed : Name → Prop) (added declared : List Name)
    (uses : List Name → List Use) : Prop where
  declares : declared = added
  reads : ∀ scope, ∀ use ∈ uses scope, ∃ front, use.1 = front ++ scope ∧ front ⊆ added ∧
    Behind front allowed use.2

variable {allowed other : Name → Prop} {added more tops topsToo : List Name}

namespace Binds

variable {declared declaredToo : List Name} {uses usesToo : List Name → List Use}

theorem mono (binds : Binds allowed added declared uses)
    (weaker : ∀ name, allowed name → other name) : Binds other added declared uses := by
  refine ⟨binds.declares, fun scope use member => ?_⟩
  obtain ⟨front, inScope, inside, known⟩ := binds.reads scope use member
  exact ⟨front, inScope, inside, known.imp_right (weaker use.2)⟩

theorem none : Binds allowed [] [] fun _ => [] :=
  ⟨rfl, fun _ _ member => absurd member List.not_mem_nil⟩

theorem append (first : Binds allowed added declared uses)
    (second : Binds allowed more declaredToo usesToo) :
    Binds allowed (added ++ more) (declared ++ declaredToo)
      fun scope => uses scope ++ usesToo scope := by
  refine ⟨congrArg₂ _ first.declares second.declares, fun scope use member => ?_⟩
  rcases List.mem_append.mp member with here | there
  · obtain ⟨front, inScope, inside, known⟩ := first.reads scope use here
    exact ⟨front, inScope, List.subset_append_of_subset_left _ inside, known⟩
  · obtain ⟨front, inScope, inside, known⟩ := second.reads scope use there
    exact ⟨front, inScope, List.subset_append_of_subset_right _ inside, known⟩

/-- A part behind what was declared in front of it. -/
theorem behind (binds : Binds (Behind tops allowed) more declared uses) (inside : tops ⊆ added) :
    ∀ scope, ∀ use ∈ uses (tops ++ scope), ∃ front, use.1 = front ++ scope ∧
      front ⊆ added ++ more ∧ Behind front allowed use.2 := by
  intro scope use member
  obtain ⟨front, inScope, new, known⟩ := binds.reads _ use member
  refine ⟨front ++ tops, inScope.trans (List.append_assoc ..).symm, ?_, ?_⟩
  · rw [List.append_subset]
    exact ⟨List.subset_append_of_subset_right _ new, List.subset_append_of_subset_left _ inside⟩
  · rcases known with here | there | allowed
    · exact .inl (List.mem_append_left _ here)
    · exact .inl (List.mem_append_right _ there)
    · exact .inr allowed

end Binds

/-- The expression declares what was added and reads nothing else, but for what is allowed. -/
abbrev Closes (allowed : Name → Prop) (added : List Name) (expr : Expr) : Prop :=
  Binds allowed added expr.declared fun scope => expr.uses scope

/-- So does the statement. -/
abbrev Within (allowed : Name → Prop) (added : List Name) (stmt : Stmt) : Prop :=
  Binds allowed added stmt.declared fun scope => stmt.uses scope

/-- So do the expressions together. -/
abbrev AllClose (allowed : Name → Prop) (added : List Name) (exprs : List Expr) : Prop :=
  Binds allowed added (Expr.declaredOfList exprs) fun scope => Expr.usesOfList scope exprs

/-- The statements declare what was added, some of it for what stands behind them, and read nothing
else, but for what is allowed. -/
structure Opens (allowed : Name → Prop) (added tops : List Name) (stmts : List Stmt) : Prop where
  binds : Binds allowed added (Stmt.declaredOfList stmts) fun scope => Stmt.usesOfList scope stmts
  after : ∀ scope, Stmt.scopeAfter scope stmts = tops ++ scope
  inside : tops ⊆ added

theorem closes_localVar (span : Span) {name : Name} (known : allowed name) :
    Closes allowed [] (.localVar span name) := by
  refine ⟨rfl, fun scope use member => ?_⟩
  cases List.mem_singleton.mp member
  exact ⟨[], rfl, List.nil_subset _, .inr known⟩

theorem closes_index {array position : Expr} (first : Closes allowed added array)
    (second : Closes allowed more position) (span : Span) :
    Closes allowed (added ++ more) (.index span array position) := first.append second

theorem closes_assign {target value : Expr} (first : Closes allowed added target)
    (second : Closes allowed more value) (span : Span) :
    Closes allowed (added ++ more) (.assign span target value) := first.append second

theorem allClose_of_closes {exprs : List Expr} (each : ∀ expr ∈ exprs, Closes allowed [] expr) :
    AllClose allowed [] exprs := by
  induction exprs with
  | nil => exact .none
  | cons expr rest step =>
    rw [List.forall_mem_cons] at each
    exact each.1.append (step each.2)

namespace Opens

variable {stmts stmtsToo : List Stmt}

theorem mono (opens : Opens allowed added tops stmts) (weaker : ∀ name, allowed name → other name) :
    Opens other added tops stmts := ⟨opens.binds.mono weaker, opens.after, opens.inside⟩

theorem nil : Opens allowed [] [] [] := ⟨.none, fun _ => rfl, List.Subset.refl _⟩

theorem append (first : Opens allowed added tops stmts)
    (second : Opens (Behind tops allowed) more topsToo stmtsToo) :
    Opens allowed (added ++ more) (topsToo ++ tops) (stmts ++ stmtsToo) := by
  refine ⟨⟨?_, fun scope use member => ?_⟩, fun scope => ?_, ?_⟩
  · rw [Stmt.declaredOfList_append, first.binds.declares, second.binds.declares]
  · rw [Stmt.usesOfList_append, first.after] at member
    rcases List.mem_append.mp member with here | there
    · obtain ⟨front, inScope, inside, known⟩ := first.binds.reads scope use here
      exact ⟨front, inScope, List.subset_append_of_subset_left _ inside, known⟩
    · exact second.binds.behind first.inside scope use there
  · rw [Stmt.scopeAfter_append, first.after, second.after, List.append_assoc]
  · rw [List.append_subset]
    exact ⟨List.subset_append_of_subset_right _ second.inside,
      List.subset_append_of_subset_left _ first.inside⟩

/-- Statements that declare nothing behind others. -/
theorem append_none (first : Opens allowed added tops stmts)
    (second : Opens (Behind tops allowed) [] [] stmtsToo) :
    Opens allowed added tops (stmts ++ stmtsToo) := by
  have both := first.append second
  rwa [List.append_nil, List.nil_append] at both

/-- A local and the value it is given. -/
theorem declaration {value : Expr} (closes : Closes allowed added value) (type : Ty) (name : Name) :
    Opens allowed (added ++ [name]) [name] [.localVar type name value] := by
  refine ⟨⟨?_, fun scope use member => ?_⟩, fun _ => rfl, List.subset_append_right _ _⟩
  · exact (List.append_nil _).trans (congrArg (· ++ [name]) closes.declares)
  · have here : use ∈ value.uses (name :: scope) ++ [] := member
    rw [List.append_nil] at here
    obtain ⟨front, inScope, inside, known⟩ := closes.reads (name :: scope) use here
    refine ⟨front ++ [name], inScope.trans (List.append_cons ..), ?_,
      known.imp_left (List.mem_append_left _)⟩
    rw [List.append_subset]
    exact ⟨List.subset_append_of_subset_left _ inside, List.subset_append_right _ _⟩

/-- A statement that declares nothing for what stands behind it. -/
theorem single {stmt : Stmt} (none : stmt.declares = []) (binds : Within allowed added stmt) :
    Opens allowed added [] [stmt] := by
  refine ⟨⟨?_, fun scope use member => ?_⟩, fun scope => congrArg (· ++ scope) none,
    List.nil_subset _⟩
  · exact (List.append_nil _).trans binds.declares
  · have here : use ∈ stmt.uses scope ++ [] := member
    rw [List.append_nil] at here
    exact binds.reads scope use here

theorem eval {expr : Expr} (closes : Closes allowed added expr) :
    Opens allowed added [] [.eval expr] := single rfl closes

theorem check (span : Span) (kind : Lowered.CheckKind) {args : List Expr}
    (each : ∀ arg ∈ args, Closes allowed [] arg) :
    Opens allowed [] [] [checkStmt span kind args] := single rfl (allClose_of_closes each)

theorem forLoop {init : List Stmt} {cond : Expr} {update : List Expr} {body : Stmt}
    {ofCond ofUpdate ofBody : List Name} (opens : Opens allowed added tops init)
    (condition : Closes (Behind tops allowed) ofCond cond)
    (updates : AllClose (Behind tops allowed) ofUpdate update)
    (within : Within (Behind tops allowed) ofBody body) :
    Opens allowed (added ++ (ofCond ++ (ofUpdate ++ ofBody))) []
      [.forLoop init cond update body] := by
  have rest := condition.append (updates.append within)
  refine single rfl ⟨congrArg₂ _ opens.binds.declares rest.declares, fun scope use member => ?_⟩
  rcases List.mem_append.mp member with here | there
  · obtain ⟨front, inScope, inside, known⟩ := opens.binds.reads scope use here
    exact ⟨front, inScope, List.subset_append_of_subset_left _ inside, known⟩
  · rw [opens.after] at there
    exact rest.behind opens.inside scope use there

/-- A value behind the statements. -/
theorem block {result : Expr} (opens : Opens allowed added tops stmts)
    (closes : Closes (Behind tops allowed) more result) (span : Span) :
    Closes allowed (added ++ more) (.block span stmts result) := by
  refine ⟨congrArg₂ _ opens.binds.declares closes.declares, fun scope use member => ?_⟩
  rcases List.mem_append.mp member with here | there
  · obtain ⟨front, inScope, inside, known⟩ := opens.binds.reads scope use here
    exact ⟨front, inScope, List.subset_append_of_subset_left _ inside, known⟩
  · rw [opens.after] at there
    exact closes.behind opens.inside scope use there

end Opens

/-! ### Lists and blocks -/

theorem takes_runEach {steps : List (LowerM Expr)}
    (each : ∀ step ∈ steps, Takes step (Closes allowed)) :
    Takes (runEach steps) (AllClose allowed) := by
  induction steps with
  | nil => exact .pure .none
  | cons step rest induct =>
    rw [List.forall_mem_cons] at each
    refine each.1.bind fun added first closes => ?_
    exact (induct each.2).bind_pure fun more others allClose => closes.append allClose

theorem takes_argList {steps : List (LowerM Expr)}
    (each : ∀ step ∈ steps, Takes step (Closes allowed)) :
    Takes (argList steps) (AllClose allowed) := by
  refine (takes_runEach each).bind fun added args allClose => ?_
  refine (Takes.checkLength _ _).bind_none fun _ _ => .pure ?_
  rwa [List.append_nil]

/-- A value and the statements in front of it. -/
def Delivers (allowed : Name → Prop) (added : List Name) (value : List Stmt × Expr) : Prop :=
  ∃ front tops behind, added = front ++ behind ∧ Opens allowed front tops value.1 ∧
    Closes (Behind tops allowed) behind value.2

/-- A value behind statements that declare all that was added. -/
theorem Opens.delivers {stmts : List Stmt} {result : Expr} (opens : Opens allowed added tops stmts)
    (closes : Closes (Behind tops allowed) [] result) : Delivers allowed added (stmts, result) :=
  ⟨added, tops, [], (List.append_nil _).symm, opens, closes⟩

/-- Statements in front of statements in front of a value. -/
theorem Opens.appendDelivers {stmts : List Stmt} (opens : Opens allowed added tops stmts)
    {value : List Stmt × Expr} (delivers : Delivers (Behind tops allowed) more value) :
    Delivers allowed (added ++ more) (stmts ++ value.1, value.2) := by
  obtain ⟨front, topsToo, behind, rfl, opensToo, closes⟩ := delivers
  refine ⟨added ++ front, topsToo ++ tops, behind, (List.append_assoc ..).symm,
    opens.append opensToo, closes.mono fun name known => ?_⟩
  rcases known with here | there | allowed
  · exact .inl (List.mem_append_left _ here)
  · exact .inl (List.mem_append_right _ there)
  · exact .inr allowed

theorem takes_blockExpr (span : Span) {value : List Stmt × Expr}
    (delivers : Delivers allowed added value) :
    Takes (blockExpr span value.1 value.2)
      fun more expr => Closes allowed (added ++ more) expr := by
  obtain ⟨front, tops, behind, rfl, opens, closes⟩ := delivers
  unfold blockExpr
  split
  · rename_i empty
    rw [List.isEmpty_iff.mp empty] at opens
    have untaken : front = [] := opens.binds.declares.symm
    have noTops : tops = [] := List.subset_nil.mp (untaken ▸ opens.inside)
    refine .pure ?_
    rw [untaken, List.nil_append, List.append_nil]
    refine closes.mono fun name known => known.resolve_left ?_
    rw [noTops]
    exact List.not_mem_nil
  · refine (Takes.checkLength _ _).bind_none fun _ _ => .pure ?_
    rw [List.append_nil]
    exact opens.block closes span

/-- The block expression after two steps of its own. -/
theorem takes_blockExpr_append (span : Span) {value : List Stmt × Expr}
    (delivers : Delivers allowed (added ++ more) value) :
    Takes (blockExpr span value.1 value.2)
      fun last expr => Closes allowed (added ++ (more ++ last)) expr := by
  refine (takes_blockExpr span delivers).mono fun last expr closes => ?_
  rwa [← List.append_assoc]

/-! ### Operands -/

/-- Lowering the part closes, and takes no temporary if the part is pure. -/
structure Part.Closes (allowed : Name → Prop) (part : Part) : Prop where
  lower : Takes part.lower (Lowering.Closes allowed)
  again : part.expr.isPure = true → Steady part.lower

/-- Each use of the operand takes no temporary and reads only what is allowed. -/
def Reads (context : Context) (allowed : Name → Prop) (value : Operand) : Prop :=
  ∀ span, Takes (value.use context span) fun added tree => added = [] ∧ Closes allowed [] tree

/-- Statements in front of an operand, and what its uses read. -/
def Furnishes (context : Context) (allowed : Name → Prop) (added : List Name)
    (prepared : List Stmt × Operand) : Prop :=
  ∃ tops, Opens allowed added tops prepared.1 ∧ Reads context (Behind tops allowed) prepared.2

variable {context : Context} {part array position value : Part}

theorem Reads.mono {operand : Operand} (reads : Reads context allowed operand)
    (weaker : ∀ name, allowed name → other name) : Reads context other operand :=
  fun span => (reads span).mono fun _ _ known => known.imp_right (·.mono weaker)

theorem reads_reread (closes : part.Closes allowed) (isPure : part.expr.isPure = true) :
    Reads context allowed (.reread part.lower) := by
  intro span start tree stop done
  obtain ⟨outcome, runs⟩ := closes.again isPure
  obtain ⟨grown, known⟩ := closes.lower start tree stop done
  have same : stop = start := by
    have ran := (runs start).symm.trans done
    cases outcome with
    | error failure => cases ran
    | ok tree =>
      cases ran
      rfl
  rw [same, temps_self] at known ⊢
  exact ⟨Nat.le_refl _, rfl, known⟩

theorem reads_self (own : allowed context.options.selfParam) : Reads context allowed .self :=
  fun span => .pure ⟨rfl, closes_localVar span own⟩

theorem behind_nil (name : Name) (known : allowed name) : Behind [] allowed name := .inr known

theorem takes_readOnce (own : allowed context.options.selfParam) (fallback : Ty)
    (closes : part.Closes allowed) :
    Takes (readOnce context part fallback) (Furnishes context allowed) := by
  unfold readOnce
  split
  · exact .pure ⟨[], .nil, (reads_self own).mono behind_nil⟩
  · refine closes.lower.bind fun added value closes => ?_
    refine (takes_bindTemp _ value).bind_pure ?_
    rintro more ⟨decl, name⟩ ⟨rfl, declared⟩
    dsimp only at declared ⊢
    subst declared
    refine ⟨[name], .declaration closes _ name, fun span => .pure ⟨rfl, ?_⟩⟩
    exact closes_localVar span (.inl List.mem_cons_self)

theorem takes_operand (own : allowed context.options.selfParam) (fallback : Ty)
    (closes : part.Closes allowed) :
    Takes (operand context part fallback) (Furnishes context allowed) := by
  unfold operand
  split
  · rename_i again
    have isPure := (Bool.and_eq_true_iff.mp again).1
    exact .pure ⟨[], .nil, (reads_reread closes isPure).mono behind_nil⟩
  · exact takes_readOnce own fallback closes

theorem takes_operandBefore (own : allowed context.options.selfParam) (fallback : Ty)
    (later : Source.Expr) (closes : part.Closes allowed) :
    Takes (operandBefore context part fallback later) (Furnishes context allowed) := by
  unfold operandBefore
  split
  · exact takes_operand own fallback closes
  · exact takes_readOnce own fallback closes

/-- Two operands, one prepared behind the other. -/
theorem furnishes_both {first second : List Stmt × Operand}
    (furnishes : Furnishes context allowed added first)
    (furnishToo : Furnishes context allowed more second) :
    ∃ tops, Opens allowed (added ++ more) tops (first.1 ++ second.1) ∧
      Reads context (Behind tops allowed) first.2 ∧
      Reads context (Behind tops allowed) second.2 := by
  obtain ⟨tops, opens, reads⟩ := furnishes
  obtain ⟨topsToo, opensToo, readsToo⟩ := furnishToo
  refine ⟨topsToo ++ tops, opens.append (opensToo.mono fun _ => .inr), reads.mono ?_,
    readsToo.mono ?_⟩
  · exact fun name known => known.imp_left (List.mem_append_right _)
  · exact fun name known => known.imp_left (List.mem_append_left _)

theorem takes_nullCheck (span : Span) {operand : Operand} (reads : Reads context allowed operand) :
    Takes (nullCheck context span operand) fun added stmts =>
      added = [] ∧ Opens allowed [] [] stmts := by
  unfold nullCheck
  split
  · exact .pure ⟨rfl, .nil⟩
  · refine (reads span).bind_none fun tree closes => .pure ⟨rfl, .check span _ ?_⟩
    exact List.forall_mem_singleton.mpr closes

end Lowering

end ObjectLowering
