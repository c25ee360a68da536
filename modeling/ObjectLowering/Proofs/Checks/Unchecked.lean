/-
**Lowered trees without their null checks.**

A null check is a statement of a block with a value. Erasing takes these statements out of such
blocks, and a block that is left without statements is replaced by its value. Lists only get
shorter.

* `Lowered.Expr.unchecked`, `Lowered.Stmt.unchecked`: the tree without its null checks.
* `Lowered.CodeUnit.unchecked`: a unit with the trees of its static fields and routines erased.
* `Lowered.Expr.Short`, `Lowered.Stmt.Short`: every list of the tree is within the limit.
* `Lowered.Expr.short_unchecked`, `Lowered.Stmt.short_unchecked`: erasing keeps lists short.
* `Lowered.ClassLayout.Short.unchecked`: the same of a class.
-/

import ObjectLowering.Proofs.Lowering.Ensures

namespace ObjectLowering.Lowered

/-! ### Erasing null checks -/

/-- Whether an expression is a check against `null`. -/
def Expr.isNullCheck : Expr → Bool
  | .check _ .notNull _ => true
  | _ => false

/-- Whether a statement is a check against `null`. -/
def Stmt.isNullCheck : Stmt → Bool
  | .eval value => value.isNullCheck
  | _ => false

mutual

/-- The expression with the null checks taken out of its blocks. -/
def Expr.unchecked : Expr → Expr
  | .absent => .absent
  | .dangling => .dangling
  | .int span value => .int span value
  | .float span bits => .float span bits
  | .bool span value => .bool span value
  | .char span value => .char span value
  | .str span text => .str span text
  | .null span => .null span
  | .localVar span name => .localVar span name
  | .field span object name => .field span object.unchecked name
  | .staticField span className name => .staticField span className name
  | .length span array => .length span array.unchecked
  | .index span array position => .index span array.unchecked position.unchecked
  | .assign span target value => .assign span target.unchecked value.unchecked
  | .binary span op left right => .binary span op left.unchecked right.unchecked
  | .unary span op operand => .unary span op operand.unchecked
  | .cast span type operand => .cast span type operand.unchecked
  | .instanceOf span operand className => .instanceOf span operand.unchecked className
  | .alloc span className => .alloc span className
  | .initCall span className args => .initCall span className (Expr.uncheckedEach args)
  | .virtualCall span receiver slot args =>
    .virtualCall span receiver.unchecked slot (Expr.uncheckedEach args)
  | .qualifiedCall span className method args =>
    .qualifiedCall span className method (Expr.uncheckedEach args)
  | .directCall span receiver method args =>
    .directCall span receiver.unchecked method (Expr.uncheckedEach args)
  | .unresolvedCall span receiver method args =>
    .unresolvedCall span receiver.unchecked method (Expr.uncheckedEach args)
  | .check span kind args => .check span kind (Expr.uncheckedEach args)
  | .arrayAlloc span element size => .arrayAlloc span element size.unchecked
  | .identity span className => .identity span className
  | .print span newline args => .print span newline (Expr.uncheckedEach args)
  | .block span body result =>
    Lowering.behind span (Stmt.withoutNullChecks body) result.unchecked

/-- The expressions with the null checks taken out of their blocks. -/
def Expr.uncheckedEach : List Expr → List Expr
  | [] => []
  | expr :: rest => expr.unchecked :: Expr.uncheckedEach rest

/-- The statement with the null checks taken out of the blocks of its expressions. -/
def Stmt.unchecked : Stmt → Stmt
  | .absent => .absent
  | .dangling => .dangling
  | .eval value => .eval value.unchecked
  | .localVar type name value => .localVar type name value.unchecked
  | .block body => .block (Stmt.uncheckedEach body)
  | .branch cond yes no => .branch cond.unchecked yes.unchecked no.unchecked
  | .whileLoop cond body => .whileLoop cond.unchecked body.unchecked
  | .forLoop init cond update body =>
    .forLoop (Stmt.uncheckedEach init) cond.unchecked (Expr.uncheckedEach update) body.unchecked
  | .ret value => .ret value.unchecked

/-- The statements with the null checks taken out of the blocks of their expressions. -/
def Stmt.uncheckedEach : List Stmt → List Stmt
  | [] => []
  | stmt :: rest => stmt.unchecked :: Stmt.uncheckedEach rest

/-- The statements of a block with a value, without the null checks among them and in them. -/
def Stmt.withoutNullChecks : List Stmt → List Stmt
  | [] => []
  | stmt :: rest =>
    if stmt.isNullCheck then Stmt.withoutNullChecks rest
    else stmt.unchecked :: Stmt.withoutNullChecks rest

end

/-- The class with the null checks taken out of its static fields and routines. -/
def ClassLayout.unchecked (layout : ClassLayout Expr Stmt) : ClassLayout Expr Stmt :=
  { layout with
    statics := layout.statics.map fun storage => { storage with init := storage.init.unchecked }
    inits := layout.inits.map (·.map Stmt.unchecked)
    methods := layout.methods.map (·.map Stmt.unchecked) }

/-- The unit with the null checks taken out of its classes. -/
def CodeUnit.unchecked (unit : TreeUnit) : TreeUnit :=
  { unit with classes := unit.classes.map (·.unchecked) }

theorem Expr.uncheckedEach_eq_map (exprs : List Expr) :
    Expr.uncheckedEach exprs = exprs.map (·.unchecked) := by
  induction exprs with
  | nil => rfl
  | cons expr rest step => rw [uncheckedEach, step, List.map_cons]

theorem Stmt.uncheckedEach_eq_map (stmts : List Stmt) :
    Stmt.uncheckedEach stmts = stmts.map (·.unchecked) := by
  induction stmts with
  | nil => rfl
  | cons stmt rest step => rw [uncheckedEach, step, List.map_cons]

theorem Stmt.withoutNullChecks_eq_map (stmts : List Stmt) :
    Stmt.withoutNullChecks stmts = (stmts.filter (!·.isNullCheck)).map (·.unchecked) := by
  induction stmts with
  | nil => rfl
  | cons stmt rest step =>
    rw [withoutNullChecks, List.filter_cons, step]
    cases stmt.isNullCheck <;> rfl

/-! ### Short lists -/

mutual

/-- Whether every list of an expression is within the limit. -/
def Expr.Short : Expr → Prop
  | .absent | .dangling => True
  | .int .. | .float .. | .bool .. | .char .. | .str .. | .null _ | .localVar .. => True
  | .staticField .. | .alloc .. | .identity .. => True
  | .field _ only _ | .length _ only | .unary _ _ only | .cast _ _ only => only.Short
  | .instanceOf _ only _ | .arrayAlloc _ _ only => only.Short
  | .index _ first second | .assign _ first second | .binary _ _ first second =>
    first.Short ∧ second.Short
  | .initCall _ _ args | .qualifiedCall _ _ _ args | .check _ _ args | .print _ _ args =>
    args.length ≤ maxListLength ∧ Expr.AllShort args
  | .virtualCall _ receiver _ args | .directCall _ receiver _ args
  | .unresolvedCall _ receiver _ args =>
    receiver.Short ∧ args.length ≤ maxListLength ∧ Expr.AllShort args
  | .block _ body result => body.length ≤ maxListLength ∧ Stmt.AllShort body ∧ result.Short

/-- Whether every list of the expressions is within the limit. -/
def Expr.AllShort : List Expr → Prop
  | [] => True
  | expr :: rest => expr.Short ∧ Expr.AllShort rest

/-- Whether every list of a statement is within the limit. -/
def Stmt.Short : Stmt → Prop
  | .absent | .dangling => True
  | .eval value | .localVar _ _ value | .ret value => value.Short
  | .block body => body.length ≤ maxListLength ∧ Stmt.AllShort body
  | .branch cond yes no => cond.Short ∧ yes.Short ∧ no.Short
  | .whileLoop cond body => cond.Short ∧ body.Short
  | .forLoop init cond update body =>
    (init.length ≤ maxListLength ∧ Stmt.AllShort init) ∧ cond.Short ∧
      (update.length ≤ maxListLength ∧ Expr.AllShort update) ∧ body.Short

/-- Whether every list of the statements is within the limit. -/
def Stmt.AllShort : List Stmt → Prop
  | [] => True
  | stmt :: rest => stmt.Short ∧ Stmt.AllShort rest

end

theorem Expr.allShort_iff {exprs : List Expr} :
    Expr.AllShort exprs ↔ ∀ expr ∈ exprs, expr.Short := by
  induction exprs with
  | nil => exact iff_of_true trivial fun _ member => nomatch member
  | cons expr rest step => rw [AllShort, List.forall_mem_cons, step]

theorem Stmt.allShort_iff {stmts : List Stmt} :
    Stmt.AllShort stmts ↔ ∀ stmt ∈ stmts, stmt.Short := by
  induction stmts with
  | nil => exact iff_of_true trivial fun _ member => nomatch member
  | cons stmt rest step => rw [AllShort, List.forall_mem_cons, step]

theorem Expr.length_uncheckedEach (exprs : List Expr) :
    (Expr.uncheckedEach exprs).length = exprs.length := by
  rw [uncheckedEach_eq_map, List.length_map]

theorem Stmt.length_uncheckedEach (stmts : List Stmt) :
    (Stmt.uncheckedEach stmts).length = stmts.length := by
  rw [uncheckedEach_eq_map, List.length_map]

theorem Stmt.length_withoutNullChecks_le (stmts : List Stmt) :
    (Stmt.withoutNullChecks stmts).length ≤ stmts.length := by
  rw [withoutNullChecks_eq_map, List.length_map]
  exact List.length_filter_le _ _

theorem short_behind {span : Span} {stmts : List Stmt} {result : Expr}
    (few : stmts.length ≤ maxListLength) (before : Stmt.AllShort stmts) (short : result.Short) :
    (Lowering.behind span stmts result).Short := by
  unfold Lowering.behind
  split
  · exact short
  · exact ⟨few, before, short⟩

mutual

/-- **Erasing null checks keeps the lists of an expression short.** -/
theorem Expr.short_unchecked : ∀ expr : Expr, expr.Short → expr.unchecked.Short
  | .absent, _ | .dangling, _ => trivial
  | .int .., _ | .float .., _ | .bool .., _ | .char .., _ | .str .., _ | .null _, _ => trivial
  | .localVar .., _ | .staticField .., _ | .alloc .., _ | .identity .., _ => trivial
  | .field _ only _, short | .length _ only, short | .unary _ _ only, short
  | .cast _ _ only, short | .instanceOf _ only _, short | .arrayAlloc _ _ only, short =>
    Expr.short_unchecked only short
  | .index _ first second, short | .assign _ first second, short
  | .binary _ _ first second, short =>
    ⟨Expr.short_unchecked first short.1, Expr.short_unchecked second short.2⟩
  | .initCall _ _ args, short | .qualifiedCall _ _ _ args, short | .check _ _ args, short
  | .print _ _ args, short => Expr.short_uncheckedEach args short
  | .virtualCall _ receiver _ args, short | .directCall _ receiver _ args, short
  | .unresolvedCall _ receiver _ args, short =>
    ⟨Expr.short_unchecked receiver short.1, Expr.short_uncheckedEach args short.2⟩
  | .block _ body result, ⟨few, before, short⟩ =>
    short_behind (Nat.le_trans (Stmt.length_withoutNullChecks_le body) few)
      (Stmt.short_withoutNullChecks body before) (Expr.short_unchecked result short)

theorem Expr.short_uncheckedEach : ∀ exprs : List Expr,
    exprs.length ≤ maxListLength ∧ Expr.AllShort exprs →
      (Expr.uncheckedEach exprs).length ≤ maxListLength ∧
        Expr.AllShort (Expr.uncheckedEach exprs)
  | [], short => short
  | expr :: rest, ⟨few, first, others⟩ => by
    have below := Nat.le_of_succ_le few
    refine ⟨?_, Expr.short_unchecked expr first, (Expr.short_uncheckedEach rest ⟨below, others⟩).2⟩
    rwa [Expr.length_uncheckedEach]

/-- **Erasing null checks keeps the lists of a statement short.** -/
theorem Stmt.short_unchecked : ∀ stmt : Stmt, stmt.Short → stmt.unchecked.Short
  | .absent, _ | .dangling, _ => trivial
  | .eval value, short | .localVar _ _ value, short | .ret value, short =>
    Expr.short_unchecked value short
  | .block body, short => Stmt.short_uncheckedEach body short
  | .branch cond yes no, ⟨first, second, third⟩ =>
    ⟨Expr.short_unchecked cond first, Stmt.short_unchecked yes second,
      Stmt.short_unchecked no third⟩
  | .whileLoop cond body, ⟨first, second⟩ =>
    ⟨Expr.short_unchecked cond first, Stmt.short_unchecked body second⟩
  | .forLoop init cond update body, ⟨first, second, third, fourth⟩ =>
    ⟨Stmt.short_uncheckedEach init first, Expr.short_unchecked cond second,
      Expr.short_uncheckedEach update third, Stmt.short_unchecked body fourth⟩

theorem Stmt.short_uncheckedEach : ∀ stmts : List Stmt,
    stmts.length ≤ maxListLength ∧ Stmt.AllShort stmts →
      (Stmt.uncheckedEach stmts).length ≤ maxListLength ∧
        Stmt.AllShort (Stmt.uncheckedEach stmts)
  | [], short => short
  | stmt :: rest, ⟨few, first, others⟩ => by
    have below := Nat.le_of_succ_le few
    refine ⟨?_, Stmt.short_unchecked stmt first, (Stmt.short_uncheckedEach rest ⟨below, others⟩).2⟩
    rwa [Stmt.length_uncheckedEach]

theorem Stmt.short_withoutNullChecks : ∀ stmts : List Stmt,
    Stmt.AllShort stmts → Stmt.AllShort (Stmt.withoutNullChecks stmts)
  | [], _ => trivial
  | stmt :: rest, ⟨first, others⟩ => by
    rw [Stmt.withoutNullChecks]
    split
    · exact Stmt.short_withoutNullChecks rest others
    · exact ⟨Stmt.short_unchecked stmt first, Stmt.short_withoutNullChecks rest others⟩

end

/-! ### Classes -/

/-- Whether every list in the values and bodies of a class is within the limit. -/
structure ClassLayout.Short (layout : ClassLayout Expr Stmt) : Prop where
  ctor : ∀ member ∈ layout.ctor, ∀ value, member.value? = some value → value.Short
  statics : ∀ storage ∈ layout.statics, storage.init.Short
  inits : ∀ routine ∈ layout.inits, routine.body.Short
  methods : ∀ routine ∈ layout.methods, routine.body.Short

theorem ClassLayout.Short.unchecked {layout : ClassLayout Expr Stmt} (short : layout.Short) :
    layout.unchecked.Short where
  ctor := short.ctor
  statics := List.forall_mem_map.mpr fun storage inside =>
    storage.init.short_unchecked (short.statics storage inside)
  inits := List.forall_mem_map.mpr fun routine inside =>
    routine.body.short_unchecked (short.inits routine inside)
  methods := List.forall_mem_map.mpr fun routine inside =>
    routine.body.short_unchecked (short.methods routine inside)

end ObjectLowering.Lowered
