/-
**Lowering declares a temporary before it reads it.**

A form declares its temporaries in front of the value or the check that reads them, within one list
of statements. What its parts read, they declare themselves; so a part may stand behind any
temporaries, and what a form lowers to needs none around it.

* `Scopes` says so of a step whose value is an expression.
* `Provides`: what is declared for an operand is in scope at its uses.
* `delivered_fillLevels`: the loops that fill an array read the lengths and the arrays around them.
* **`Source.Expr.scopes_lower`**, **`Source.Stmt.scopes_lower`**: every expression and statement is
  lowered so, if the receiver and the names in it are free.
-/

import ObjectLowering.Proofs.Lowering.Ensures
import ObjectLowering.Proofs.Temporaries.Scoped
import ObjectLowering.Proofs.Temporaries.TempNames

namespace ObjectLowering

open Lowered (Expr Stmt)

namespace Lowering

variable {context : Context} {free : Name → Prop} {scope : List Name}
  {part array position value : Part}

/-- The step lowers to an expression that needs no locals around it, but for those that are free. -/
abbrev Scopes (free : Name → Prop) (step : LowerM Expr) : Prop := Ensures step (Expr.Scoped free [])

theorem scoped_localVar (span : Span) {name : Name} (known : name ∈ scope) :
    (Expr.localVar span name).Scoped free scope := .inl known

theorem scoped_selfExpr (own : free context.options.selfParam) (span : Span) :
    (selfExpr context span).Scoped free scope := .inr own

/-- A value behind statements that declare what it reads. -/
theorem scopes_blockExpr (span : Span) {stmts : List Stmt} {result : Expr}
    (before : Stmt.AllScoped free [] stmts)
    (known : result.Scoped free (Stmt.scopeAfter [] stmts)) :
    Scopes free (blockExpr span stmts result) := by
  unfold blockExpr
  split
  · rename_i empty
    rw [List.isEmpty_iff.mp empty] at known
    exact .pure known
  · exact .ignoreLength (.pure ⟨before, known⟩)

theorem ensures_allScoped {steps : List (LowerM Expr)}
    (each : ∀ step ∈ steps, Ensures step (Expr.Scoped free scope)) :
    Ensures (argList steps) (Expr.AllScoped free scope) :=
  (Ensures.runAll each).bind fun _ known => .ignoreLength (.pure (Expr.allScoped_iff.mpr known))

/-- What needs no locals around it needs none of those in scope. -/
theorem Scopes.within {step : LowerM Expr} (scopes : Scopes free step) (scope : List Name) :
    Ensures step (Expr.Scoped free scope) :=
  scopes.mono fun _ known => known.mono (List.nil_subset scope)

/-! ### Operands -/

/-- The uses of an operand read what is in scope. -/
def Reaches (free : Name → Prop) (context : Context) (scope : List Name) (operand : Operand) :
    Prop := ∀ span, Ensures (operand.use context span) (Expr.Scoped free scope)

theorem Reaches.mono {operand : Operand} {more : List Name}
    (reaches : Reaches free context scope operand) (inside : scope ⊆ more) :
    Reaches free context more operand :=
  fun span => (reaches span).mono fun _ known => known.mono inside

theorem reaches_self (own : free context.options.selfParam) : Reaches free context scope .self :=
  fun span => .pure (scoped_selfExpr own span)

/-- What is declared for an operand is in scope at its uses. -/
structure Provides (free : Name → Prop) (context : Context) (prepared : List Stmt × Operand) :
    Prop where
  before : Stmt.AllScoped free [] prepared.1
  reaches : Reaches free context (Stmt.scopeAfter [] prepared.1) prepared.2

theorem provides_self (own : free context.options.selfParam) :
    Provides free context ([], .self) := ⟨trivial, reaches_self own⟩

theorem provides_readOnce (own : free context.options.selfParam) (fallback : Ty)
    (scopes : Scopes free part.lower) :
    Ensures (readOnce context part fallback) (Provides free context) := by
  unfold readOnce
  split
  · exact .pure (provides_self own)
  · refine scopes.bind fun value known => ?_
    refine (ensures_bindTemp _ value).bind ?_
    rintro ⟨decl, name⟩ declared
    dsimp only at declared ⊢
    subst declared
    exact .pure ⟨⟨.inr known, trivial⟩, fun span => .pure (.inl List.mem_cons_self)⟩

theorem provides_operand (own : free context.options.selfParam) (fallback : Ty)
    (scopes : Scopes free part.lower) :
    Ensures (operand context part fallback) (Provides free context) := by
  unfold operand
  split
  · exact .pure ⟨trivial, fun _ => scopes⟩
  · exact provides_readOnce own fallback scopes

theorem provides_operandBefore (own : free context.options.selfParam) (fallback : Ty)
    (later : Source.Expr) (scopes : Scopes free part.lower) :
    Ensures (operandBefore context part fallback later) (Provides free context) := by
  unfold operandBefore
  split
  · exact provides_operand own fallback scopes
  · exact provides_readOnce own fallback scopes

/-- Two operands, one prepared behind the other: both are in scope behind. -/
theorem provides_both {first second : List Stmt × Operand}
    (provides : Provides free context first) (providesToo : Provides free context second) :
    Stmt.AllScoped free [] (first.1 ++ second.1) ∧
      Reaches free context (Stmt.scopeAfter [] (first.1 ++ second.1)) first.2 ∧
      Reaches free context (Stmt.scopeAfter [] (first.1 ++ second.1)) second.2 := by
  rw [Stmt.allScoped_append, Stmt.scopeAfter_append]
  have empty := List.nil_subset (Stmt.scopeAfter [] first.1)
  exact ⟨⟨provides.before, Stmt.allScoped_mono empty providesToo.before⟩,
    provides.reaches.mono (Stmt.subset_scopeAfter _ _),
    providesToo.reaches.mono (Stmt.scopeAfter_mono empty _)⟩

/-- A check declares nothing. -/
theorem ensures_scoped_nullCheck (span : Span) {prepared : List Stmt × Operand}
    (provides : Provides free context prepared) :
    Ensures (nullCheck context span prepared.2) fun stmts =>
      Stmt.AllScoped free [] (prepared.1 ++ stmts) ∧
        Stmt.scopeAfter [] (prepared.1 ++ stmts) = Stmt.scopeAfter [] prepared.1 := by
  simp only [Stmt.allScoped_append, Stmt.scopeAfter_append]
  unfold nullCheck
  split
  · exact .pure ⟨⟨provides.before, trivial⟩, rfl⟩
  · refine (provides.reaches span).bind fun value known => .pure ?_
    exact ⟨⟨provides.before, ⟨known, trivial⟩, trivial⟩, rfl⟩

/-! ### Arrays -/

/-- A value that reads what the statements in front of it declare. -/
def Delivered (free : Name → Prop) (scope : List Name) (value : List Stmt × Expr) : Prop :=
  Stmt.AllScoped free scope value.1 ∧ value.2.Scoped free (Stmt.scopeAfter scope value.1)

/-- A check between a value and the statements in front of it declares nothing. -/
theorem delivered_checkStmt (span : Span) (kind : Lowered.CheckKind) {stmts : List Stmt}
    {args : List Expr} {result : Expr} (before : Stmt.AllScoped free scope stmts)
    (each : ∀ arg ∈ args, arg.Scoped free (Stmt.scopeAfter scope stmts))
    (known : result.Scoped free (Stmt.scopeAfter scope stmts)) :
    Delivered free scope (stmts ++ [checkStmt span kind args], result) := by
  unfold Delivered
  rw [Stmt.allScoped_append, Stmt.scopeAfter_append]
  exact ⟨⟨before, Expr.allScoped_iff.mpr each, trivial⟩, known⟩

theorem delivered_slot (own : free context.options.selfParam) (span : Span)
    (first : Scopes free array.lower) (second : Scopes free position.lower) :
    Ensures (slot context span array position) (Delivered free []) := by
  unfold slot
  refine (provides_operandBefore own .object position.expr first).bind ?_
  rintro ⟨arrayDecl, arrayUse⟩ provides
  dsimp only
  split
  · refine (provides.reaches span).bind fun arrayExpr arrayKnown => ?_
    refine (second.within (Stmt.scopeAfter [] arrayDecl)).bind fun positionExpr known => .pure ?_
    exact ⟨provides.before, arrayKnown, known⟩
  · refine (provides_operand own .int second).bind ?_
    rintro ⟨positionDecl, positionUse⟩ providesToo
    obtain ⟨before, ofArray, ofPosition⟩ := provides_both provides providesToo
    refine (ofArray span).bind fun checkedArray checkedArrayKnown => ?_
    refine (ofPosition span).bind fun checkedPosition checkedPositionKnown => ?_
    refine (ofArray span).bind fun arrayExpr arrayKnown => ?_
    refine (ofPosition span).bind fun positionExpr positionKnown => .pure ?_
    refine delivered_checkStmt span .arrayAccess before ?_ ⟨arrayKnown, positionKnown⟩
    rw [List.forall_mem_cons, List.forall_mem_singleton]
    exact ⟨checkedArrayKnown, checkedPositionKnown⟩

theorem scopes_readElement (own : free context.options.selfParam) (span : Span)
    (first : Scopes free array.lower) (second : Scopes free position.lower) :
    Scopes free (readElement context span array position) :=
  (delivered_slot own span first second).bind fun _ known => scopes_blockExpr span known.1 known.2

theorem scopes_updateElement (own : free context.options.selfParam) (span : Span) (op : UnaryOp)
    (first : Scopes free array.lower) (second : Scopes free position.lower) :
    Scopes free (updateElement context span op array position) :=
  (delivered_slot own span first second).bind fun _ known => scopes_blockExpr span known.1 known.2

theorem scopes_store (own : free context.options.selfParam) (span : Span)
    (first : Scopes free array.lower) (second : Scopes free position.lower)
    (third : Scopes free value.lower) :
    Scopes free (store context span array position value) := by
  unfold store
  refine (provides_operandBefore own _ value.expr first).bind ?_
  rintro ⟨arrayDecl, arrayUse⟩ provides
  refine (provides_operandBefore own .int value.expr second).bind ?_
  rintro ⟨positionDecl, positionUse⟩ providesToo
  obtain ⟨before, ofArray, ofPosition⟩ := provides_both provides providesToo
  dsimp only at before ofArray ofPosition ⊢
  have third := third.within (Stmt.scopeAfter [] (arrayDecl ++ positionDecl))
  split
  · refine (ofArray span).bind fun arrayExpr arrayKnown => ?_
    refine (ofPosition span).bind fun positionExpr positionKnown => ?_
    refine third.bind fun stored storedKnown => ?_
    exact scopes_blockExpr span before ⟨⟨arrayKnown, positionKnown⟩, storedKnown⟩
  · refine third.bind fun stored storedKnown => ?_
    refine (ensures_bindTemp _ stored).bind ?_
    rintro ⟨decl, temp⟩ declared
    dsimp only at declared ⊢
    obtain ⟨before, fixed, grown⟩ := Stmt.allScoped_declared before storedKnown declared
    have ofArray := ofArray.mono grown
    have ofPosition := ofPosition.mono grown
    refine (ofArray span).bind fun checkedArray checkedArrayKnown => ?_
    refine (ofPosition span).bind fun checkedPosition checkedPositionKnown => ?_
    refine (ofArray span).bind fun arrayExpr arrayKnown => ?_
    refine (ofPosition span).bind fun positionExpr positionKnown => ?_
    have stored : (Expr.assign span (.index span arrayExpr positionExpr)
        (.localVar span temp)).Scoped free
          (Stmt.scopeAfter [] (arrayDecl ++ positionDecl ++ [decl])) :=
      ⟨⟨arrayKnown, positionKnown⟩, .inl fixed⟩
    have checked : ∀ arg ∈ [checkedArray, checkedPosition, .localVar span temp],
        arg.Scoped free (Stmt.scopeAfter [] (arrayDecl ++ positionDecl ++ [decl])) := by
      rw [List.forall_mem_cons, List.forall_mem_cons, List.forall_mem_singleton]
      exact ⟨checkedArrayKnown, checkedPositionKnown, .inl fixed⟩
    rw [List.append_cons]
    have delivered := delivered_checkStmt span .arrayStore before checked stored
    exact scopes_blockExpr span delivered.1 delivered.2

theorem scopes_arrayLength (own : free context.options.selfParam) (span : Span)
    (scopes : Scopes free array.lower) : Scopes free (arrayLength context span array) := by
  unfold arrayLength
  refine (provides_operand own .object scopes).bind fun prepared provides => ?_
  refine (ensures_scoped_nullCheck span provides).bind ?_
  rintro check ⟨before, after⟩
  refine (provides.reaches span).bind fun arrayExpr known => ?_
  exact scopes_blockExpr span before (after ▸ known)

/-- **The loops that fill an array** read the lengths that are in scope around them, and arrays and
positions that they declare. -/
theorem delivered_fillLevels (span : Span) (leaf : Ty) {size : Name} {names : List Name}
    (sized : size ∈ scope) (inside : names ⊆ scope) :
    Ensures (fillLevels span leaf size names) (Delivered free scope) := by
  induction names generalizing scope size with
  | nil => exact .pure ⟨trivial, scoped_localVar span sized⟩
  | cons next rest step =>
    rw [List.cons_subset] at inside
    unfold fillLevels
    refine (ensures_bindTemp _ _).bind ?_
    rintro ⟨arrayDecl, array⟩ arrayDeclared
    refine (ensures_bindTemp _ _).bind ?_
    rintro ⟨counterDecl, counter⟩ counterDeclared
    dsimp only at arrayDeclared counterDeclared ⊢
    subst arrayDeclared counterDeclared
    have grown : scope ⊆ counter :: array :: scope :=
      List.subset_cons_of_subset _ (List.subset_cons_self _ _)
    refine (step (grown inside.1) (List.Subset.trans inside.2 grown)).bind ?_
    rintro ⟨stmts, value⟩ ⟨front, known⟩
    have behind := Stmt.subset_scopeAfter (counter :: array :: scope) stmts
    have counted : counter ∈ counter :: array :: scope := List.mem_cons_self
    have made : array ∈ counter :: array :: scope := List.mem_cons_of_mem _ List.mem_cons_self
    have fill : Stmt.AllScoped free (counter :: array :: scope) (stmts ++ [.eval (.assign span
        (.index span (.localVar span array) (.localVar span counter)) value)]) :=
      Stmt.allScoped_append.mpr ⟨front, ⟨⟨.inl (behind made), .inl (behind counted)⟩, known⟩,
        trivial⟩
    have loop : (fillLoop span array counter size (.localVar .int counter (.int span 0)) stmts
        value).Scoped free (array :: scope) :=
      ⟨⟨.inr trivial, trivial⟩, .inr ⟨.inl counted, .inl (grown sized)⟩, ⟨.inl counted, trivial⟩,
        fill⟩
    exact .pure ⟨⟨.inr (scoped_localVar span sized), loop, trivial⟩, .inl List.mem_cons_self⟩

theorem scoped_checkedLength (span : Span) {size : Expr} (known : size.Scoped free scope) :
    (checkedLength context span size).Scoped free scope := by
  unfold checkedLength
  split
  · exact ⟨known, trivial⟩
  · exact known

theorem ensures_scoped_bindDimension (span : Span) {dim : LowerM Expr} (scopes : Scopes free dim) :
    Ensures (bindDimension context span dim) fun bound =>
      bound.1.Scoped free [] ∧ bound.1.declares = [bound.2] := by
  refine scopes.bind fun size known => (ensures_bindTemp _ _).mono ?_
  rintro ⟨decl, name⟩ declared
  dsimp only at declared ⊢
  subst declared
  exact ⟨.inr (scoped_checkedLength span known), rfl⟩

/-- The lengths are in scope behind their declarations. -/
theorem names_subset_scopeAfter {bounds : List (Stmt × Name)}
    (each : ∀ bound ∈ bounds, bound.1.declares = [bound.2]) :
    bounds.map (·.2) ⊆ Stmt.scopeAfter scope (bounds.map (·.1)) := by
  induction bounds generalizing scope with
  | nil => exact List.nil_subset _
  | cons bound rest step =>
    rw [List.forall_mem_cons] at each
    rw [List.map_cons, List.map_cons, Stmt.scopeAfter, each.1, List.cons_subset]
    exact ⟨Stmt.subset_scopeAfter _ _ List.mem_cons_self, step each.2⟩

theorem scopes_lowerNewArray (span : Span) (element : Ty) (extra : Nat) {dims : List (LowerM Expr)}
    (each : ∀ dim ∈ dims, Scopes free dim) :
    Scopes free (lowerNewArray context span element dims extra) := by
  unfold lowerNewArray
  match dims with
  | [] => exact .fail
  | [dim] =>
    refine (each dim List.mem_cons_self).bind fun size known => .pure ?_
    exact (scoped_checkedLength span known : (checkedLength context span size).Scoped free [])
  | dim :: next :: rest =>
    rw [List.forall_mem_cons] at each
    refine (ensures_scoped_bindDimension span each.1).bind ?_
    rintro ⟨decl, size⟩ first
    have bindings : ∀ step ∈ (next :: rest).map (bindDimension context span),
        Ensures step fun bound => bound.1.Scoped free [] ∧ bound.1.declares = [bound.2] :=
      List.forall_mem_map.mpr fun dim member =>
        ensures_scoped_bindDimension span (each.2 dim member)
    refine (Ensures.runAll bindings).bind fun bounds known => ?_
    have all : ∀ bound ∈ (decl, size) :: bounds,
        bound.1.Scoped free [] ∧ bound.1.declares = [bound.2] :=
      List.forall_mem_cons.mpr ⟨first, known⟩
    have before : Stmt.AllScoped free [] (decl :: bounds.map (·.1)) :=
      Stmt.allScoped_of_forall (List.forall_mem_map.mpr fun bound member => (all bound member).1)
    have inside : ((decl, size) :: bounds).map (·.2) ⊆
        Stmt.scopeAfter [] (((decl, size) :: bounds).map (·.1)) :=
      names_subset_scopeAfter fun bound member => (all bound member).2
    rw [List.map_cons, List.map_cons, List.cons_subset] at inside
    have levels : Ensures (fillLevels span (element.arrayOf extra) size (bounds.map (·.2)))
        (Delivered free (Stmt.scopeAfter [] (decl :: bounds.map (·.1)))) :=
      delivered_fillLevels span _ inside.1 inside.2
    refine levels.bind ?_
    rintro ⟨stmts, array⟩ ⟨levels, made⟩
    refine scopes_blockExpr span (Stmt.allScoped_append.mpr ⟨before, levels⟩) ?_
    rw [Stmt.scopeAfter_append]
    exact made

/-! ### Names and members -/

theorem scoped_fieldRef (own : free context.options.selfParam) (span : Span) (field : FieldRef)
    (name : Name) : (fieldRef context span field name).Scoped free scope := by
  unfold fieldRef
  split
  · exact trivial
  · exact scoped_selfExpr own span

theorem scoped_identifier (own : free context.options.selfParam) (tag : Source.Tag) {name : Name}
    (known : free name) : (identifier context tag name).Scoped free scope := by
  unfold identifier
  split
  · exact scoped_fieldRef own tag.span _ name
  · exact .inr known

theorem scopes_memberAccess (own : free context.options.selfParam) (tag : Source.Tag)
    (scopes : Scopes free part.lower) (name : Name) :
    Scopes free (memberAccess context tag part name) := by
  unfold memberAccess
  split
  · exact .pure trivial
  · split
    · exact scopes_arrayLength own tag.span scopes
    · exact scopes.bind fun object known => .pure known

/-! ### Calls -/

/-- The receiver of a call, if it has one, and its arguments need no locals around them. -/
structure CallParts.Scopes (free : Name → Prop) (call : CallParts) : Prop where
  receives : ∀ part, call.receiver = some part → Lowering.Scopes free part.lower
  passes : ∀ step ∈ call.args, Lowering.Scopes free step

variable {routine : Routine} {call : CallParts} {site : CallSite} {args : List (LowerM Expr)}

/-- Arguments in any scope. -/
theorem CallParts.Scopes.argsWithin (scopes : call.Scopes free) :
    ∀ step ∈ call.args, Ensures step (Expr.Scoped free scope) :=
  fun step member => (scopes.passes step member).within scope

theorem ensures_scoped_receiverArgs (span : Span) {operand : Operand}
    (reaches : Reaches free context scope operand) (each : ∀ step ∈ args, Scopes free step) :
    Ensures (receiverArgs context span operand args) (Expr.AllScoped free scope) :=
  ensures_allScoped (List.forall_mem_cons.mpr
    ⟨reaches span, fun step member => (each step member).within scope⟩)

theorem provides_receiverOperand (own : free context.options.selfParam)
    (scopes : call.Scopes free) :
    Ensures (receiverOperand context routine call site) (Provides free context) := by
  unfold receiverOperand
  split
  · rename_i part written
    exact provides_operand own _ (scopes.receives part written)
  · split
    · exact .pure (provides_self own)
    · exact .fail

theorem scopes_printCall (scopes : call.Scopes free) : Scopes free (printCall call) :=
  (ensures_allScoped scopes.argsWithin).bind fun _ known => .pure known

theorem scopes_unresolvedCall (scopes : call.Scopes free) :
    Scopes free (unresolvedCall context call) := by
  have onward (receiver : Expr) (before : receiver = .absent ∨ receiver.Scoped free []) :
      Scopes free (do
        let args ← argList call.args
        return .unresolvedCall call.tag.span receiver call.method args) :=
    (ensures_allScoped scopes.argsWithin).bind fun _ known => .pure ⟨before, known⟩
  unfold unresolvedCall
  dsimp only
  split
  · exact Ensures.bind .fail fun _ (never : False) => never.elim
  · split
    · rename_i part written
      exact (scopes.receives part written).bind fun receiver known => onward receiver (.inr known)
    · exact onward .absent (.inl rfl)

/-- A receiver that is evaluated for its effects declares nothing. -/
theorem ensures_scoped_receiverEffect {receiver : Option Part}
    (receives : ∀ part, receiver = some part → Scopes free part.lower) :
    Ensures (receiverEffect receiver) (Stmt.AllScoped free []) := by
  unfold receiverEffect
  split
  · exact .pure trivial
  · split
    · exact .pure trivial
    · exact (receives _ rfl).bind fun _ known => .pure ⟨known, trivial⟩

theorem scopes_staticCall (scopes : call.Scopes free) : Scopes free (staticCall call site) :=
  (ensures_scoped_receiverEffect scopes.receives).bind fun _ before =>
    (ensures_allScoped scopes.argsWithin).bind fun _ known => scopes_blockExpr _ before known

theorem scopes_directCall (own : free context.options.selfParam) (scopes : call.Scopes free) :
    Scopes free (directCall context routine call site) := by
  unfold directCall
  dsimp only
  split
  · exact (ensures_scoped_receiverArgs _ (reaches_self own) scopes.passes).bind
      fun _ known => .pure known
  · refine (provides_receiverOperand own scopes).bind fun prepared provides => ?_
    refine (provides.reaches _).bind fun receiver receiverKnown => ?_
    refine (ensures_scoped_receiverArgs _ provides.reaches scopes.passes).bind fun args known => ?_
    exact scopes_blockExpr _ provides.before ⟨receiverKnown, known⟩

theorem scopes_virtualCall (own : free context.options.selfParam) (scopes : call.Scopes free) :
    Scopes free (virtualCall context routine call site) := by
  refine .after fun slot => ?_
  refine (provides_receiverOperand own scopes).bind fun prepared provides => ?_
  refine (ensures_scoped_nullCheck _ provides).bind ?_
  rintro check ⟨before, after⟩
  refine (provides.reaches _).bind fun receiver receiverKnown => ?_
  refine (ensures_scoped_receiverArgs _ provides.reaches scopes.passes).bind fun args known => ?_
  exact scopes_blockExpr _ before (after ▸ ⟨receiverKnown, known⟩)

/-- A call, by the way to its target. -/
theorem scopes_lowerCall (own : free context.options.selfParam) (scopes : call.Scopes free) :
    Scopes free (lowerCall context routine call) := by
  unfold lowerCall
  split
  · exact scopes_printCall scopes
  · split
    · exact scopes_unresolvedCall scopes
    · split
      · exact .fail
      · exact scopes_staticCall scopes
      · exact scopes_directCall own scopes
      · exact scopes_virtualCall own scopes

theorem scopes_chainCall (own : free context.options.selfParam) (span : Span)
    (target : ChainTarget) (each : ∀ step ∈ args, Scopes free step) :
    Scopes free (chainCall context routine span target args) :=
  (ensures_scoped_receiverArgs span (reaches_self own) each).bind fun _ known => .pure known

theorem scopes_lowerNewObject (span : Span) (className : Name)
    (each : ∀ step ∈ args, Scopes free step) :
    Scopes free (lowerNewObject span className args) := by
  have new : Scopes free (pure (.alloc span className)) := .pure trivial
  exact (ensures_allScoped (List.forall_mem_cons.mpr ⟨new, each⟩)).bind fun _ known => .pure known

theorem ensures_scoped_blockStmt {stmts : List Stmt} (known : Stmt.AllScoped free scope stmts) :
    Ensures (blockStmt stmts) (Stmt.Scoped free scope) := .ignoreLength (.pure known)

/-- What a bare return hands back. -/
theorem scoped_implicitResult (own : free context.options.selfParam) (span : Span) (mode : Mode) :
    implicitResult context span mode = .absent ∨
      (implicitResult context span mode).Scoped free scope := by
  cases mode with
  | instanceMethod | static => exact .inl rfl
  | entry => exact .inr trivial
  | constructor => exact .inr (scoped_selfExpr own span)

end Lowering

/-! ### Source trees -/

namespace Source

open Lowering

variable {context : Context} {routine : Routine} {free : Name → Prop}

mutual

/-- **An expression declares its temporaries before it reads them.** -/
theorem Expr.scopes_lower (own : free context.options.selfParam) : ∀ expr : Expr,
    (∀ node ∈ expr.nodes, node.Names free) → Scopes free (expr.lower context routine)
  | .int .., _ | .float .., _ | .bool .., _ | .char .., _ | .str .., _ | .null _, _ =>
    .pure trivial
  | .this tag, _ | .super tag, _ => .pure (scoped_selfExpr own tag.span)
  | .ident tag name, names =>
    .pure (scoped_identifier own tag (names _ List.mem_cons_self name rfl))
  | .field tag receiver name, names => by
    rw [nodes, List.forall_mem_cons] at names
    exact scopes_memberAccess own tag (receiver.scopes_lower own names.2) name
  | .call tag none method args, names => by
    rw [nodes, List.forall_mem_cons] at names
    refine scopes_lowerCall own ⟨?_, Expr.scopes_lowerEach own args names.2⟩
    rintro _ ⟨⟩
  | .call tag (some receiver) method args, names => by
    rw [nodes, List.forall_mem_cons, List.forall_mem_append] at names
    refine scopes_lowerCall own ⟨?_, Expr.scopes_lowerEach own args names.2.2⟩
    rintro _ ⟨⟩
    exact receiver.scopes_lower own names.2.1
  | .chain tag target args, names => by
    rw [nodes, List.forall_mem_cons] at names
    exact scopes_chainCall own tag.span target (Expr.scopes_lowerEach own args names.2)
  | .newObject tag className args, names => by
    rw [nodes, List.forall_mem_cons] at names
    exact scopes_lowerNewObject tag.span className (Expr.scopes_lowerEach own args names.2)
  | .newArray tag element dims extra, names => by
    rw [nodes, List.forall_mem_cons] at names
    exact scopes_lowerNewArray tag.span element extra (Expr.scopes_lowerEach own dims names.2)
  | .index tag array position, names => by
    rw [nodes, List.forall_mem_cons, List.forall_mem_append] at names
    exact scopes_readElement own tag.span (array.scopes_lower own names.2.1)
      (position.scopes_lower own names.2.2)
  | .assign tag target value, names => by
    rw [nodes, List.forall_mem_cons, List.forall_mem_append] at names
    obtain ⟨first, second⟩ := names.2
    rw [lower.eq_def]
    dsimp only
    split
    · rename_i array position
      rw [nodes, List.forall_mem_cons, List.forall_mem_append] at first
      exact scopes_store own tag.span (array.scopes_lower own first.2.1)
        (position.scopes_lower own first.2.2) (value.scopes_lower own second)
    · exact (target.scopes_lower own first).bind fun _ here =>
        (value.scopes_lower own second).bind fun _ there => .pure ⟨here, there⟩
  | .binary tag op left right, names => by
    rw [nodes, List.forall_mem_cons, List.forall_mem_append] at names
    exact (left.scopes_lower own names.2.1).bind fun _ here =>
      (right.scopes_lower own names.2.2).bind fun _ there => .pure ⟨here, there⟩
  | .unary tag op operand, names => by
    rw [nodes, List.forall_mem_cons] at names
    have below := names.2
    rw [lower.eq_def]
    dsimp only
    split
    · rename_i array position _
      rw [nodes, List.forall_mem_cons, List.forall_mem_append] at below
      exact scopes_updateElement own tag.span op (array.scopes_lower own below.2.1)
        (position.scopes_lower own below.2.2)
    · rename_i inner _ _ _
      exact (inner.scopes_lower own below).bind fun _ known => .pure known
  | .cast _ _ operand, names | .instanceOf _ operand _, names => by
    rw [nodes, List.forall_mem_cons] at names
    exact (operand.scopes_lower own names.2).bind fun _ known => .pure known

theorem Expr.scopes_lowerEach (own : free context.options.selfParam) : ∀ exprs : List Expr,
    (∀ node ∈ Expr.nodesOfList exprs, node.Names free) →
      ∀ step ∈ Expr.lowerEach context routine exprs, Scopes free step
  | [], _ => List.forall_mem_nil _
  | expr :: rest, names => by
    rw [nodesOfList, List.forall_mem_append] at names
    rw [lowerEach, List.forall_mem_cons]
    exact ⟨expr.scopes_lower own names.1, Expr.scopes_lowerEach own rest names.2⟩

end

/-- A value that may be missing. -/
theorem Expr.scopes_lowerOption (own : free context.options.selfParam) (expr : Option Expr)
    (names : ∀ node ∈ Expr.nodesOfOption expr, node.Names free) :
    Ensures (Expr.lowerOption context routine expr) fun lowered =>
      lowered = .absent ∨ lowered.Scoped free [] := by
  cases expr with
  | none => exact .pure (.inl rfl)
  | some expr => exact (expr.scopes_lower own names).mono fun _ known => .inr known

mutual

/-- **A statement declares its temporaries before it reads them.** -/
theorem Stmt.scopes_lower (own : free context.options.selfParam) : ∀ stmt : Stmt,
    (∀ node ∈ stmt.nodes, node.Names free) → (∀ name ∈ stmt.declared, free name) →
      Ensures (stmt.lower context routine) (Lowered.Stmt.Scoped free [])
  | .eval _ expr, names, _ => (expr.scopes_lower own names).bind fun _ known => .pure known
  | .localVar _ _ name init, names, locals =>
    (Expr.scopes_lowerOption own init names).bind fun _ known =>
      .pure (known.imp_left fun missing => ⟨missing, locals name List.mem_cons_self⟩)
  | .block _ body, names, locals =>
    (Ensures.runAll (Stmt.scopes_lowerEach own body names locals)).bind fun _ known =>
      ensures_scoped_blockStmt (Lowered.Stmt.allScoped_of_forall known)
  | .branch _ cond yes none, names, locals => by
    rw [nodes, List.forall_mem_append] at names
    exact (cond.scopes_lower own names.1).bind fun _ first =>
      (yes.scopes_lower own names.2 locals).bind fun _ second => .pure ⟨first, second, .inl rfl⟩
  | .branch _ cond yes (some no), names, locals => by
    rw [nodes, List.forall_mem_append, List.forall_mem_append] at names
    rw [declared, List.forall_mem_append] at locals
    exact (cond.scopes_lower own names.1.1).bind fun _ first =>
      (yes.scopes_lower own names.1.2 locals.1).bind fun _ second =>
        (no.scopes_lower own names.2 locals.2).bind fun _ third =>
          .pure ⟨first, second, .inr third⟩
  | .whileLoop _ cond body, names, locals => by
    rw [nodes, List.forall_mem_append] at names
    exact (cond.scopes_lower own names.1).bind fun _ first =>
      (body.scopes_lower own names.2 locals).bind fun _ second => .pure ⟨first, second⟩
  | .forLoop _ init cond update body, names, locals => by
    rw [nodes, List.forall_mem_append, List.forall_mem_append, List.forall_mem_append] at names
    rw [declared, List.forall_mem_append] at locals
    obtain ⟨⟨⟨inits, condition⟩, updates⟩, inBody⟩ := names
    refine (Ensures.runAll (Stmt.scopes_lowerEach own init inits locals.1)).bind ?_
    refine fun heads first => .ignoreLength ?_
    refine (Expr.scopes_lowerOption own cond condition).bind fun _ second => ?_
    have clauses : ∀ step ∈ Expr.lowerEach context routine update,
        Ensures step (Lowered.Expr.Scoped free (Lowered.Stmt.scopeAfter [] heads)) :=
      fun step member => (Expr.scopes_lowerEach own update updates step member).within _
    refine (ensures_allScoped clauses).bind fun _ third => ?_
    refine (body.scopes_lower own inBody locals.2).bind fun _ fourth => .pure ?_
    have grown := List.nil_subset (Lowered.Stmt.scopeAfter [] heads)
    exact ⟨Lowered.Stmt.allScoped_of_forall first, second.imp_right fun known => known.mono grown,
      third, fourth.mono grown⟩
  | .ret span none, _, _ => .pure (scoped_implicitResult own span routine.mode)
  | .ret _ (some value), names, _ =>
    (value.scopes_lower own names).bind fun _ known => .pure (.inr known)

theorem Stmt.scopes_lowerEach (own : free context.options.selfParam) : ∀ stmts : List Stmt,
    (∀ node ∈ Stmt.nodesOfList stmts, node.Names free) →
      (∀ name ∈ Stmt.declaredOfList stmts, free name) →
        ∀ step ∈ Stmt.lowerEach context routine stmts,
          Ensures step (Lowered.Stmt.Scoped free [])
  | [], _, _ => List.forall_mem_nil _
  | stmt :: rest, names, locals => by
    rw [nodesOfList, List.forall_mem_append] at names
    rw [declaredOfList, List.forall_mem_append] at locals
    rw [lowerEach, List.forall_mem_cons]
    exact ⟨stmt.scopes_lower own names.1 locals.1,
      Stmt.scopes_lowerEach own rest names.2 locals.2⟩

end

end Source

end ObjectLowering
