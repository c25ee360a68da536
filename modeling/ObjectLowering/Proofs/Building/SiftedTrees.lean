/-
**Strict building gives what lenient building gives without an open call.**

Only a call without a target asks whether it may be kept. The strict run stops exactly there, and
what the lenient run adds for it is a call without a target, which stays in the arena.

* `sifts_unresolvedCall`: the one place where the two runs part.
* `sifts_slot`, `sifts_store`, `sifts_newArray`, `sifts_arrayLength`: arrays.
* `sifts_buildCall`, `sifts_chainCall`, `sifts_buildNewObject`, `sifts_memberAccess`: the other
  forms.
* **`Source.Expr.sifts_build`**, **`Source.Stmt.sifts_build`**: the two runs on whole trees.
-/

import ObjectLowering.Proofs.Building.Sifted

namespace ObjectLowering

namespace Building

open Lowering

variable {context : Context} {span : Span}

/-! ### Arrays -/

theorem keeps_checkedLength (size : NodeId) :
    Keeps (checkedLength context span size) := by
  unfold checkedLength
  split
  · exact keeps_check .negativeLength [size]
  · exact .pure size

theorem keeps_level (element : Ty) (size : Name) : Keeps (level span element size) :=
  (keeps_addExpr span rfl).bind fun _ => keeps_addExpr span rfl

theorem keeps_levelTest (counter size : Name) : Keeps (levelTest span counter size) :=
  (keeps_addExpr span rfl).bind fun _ => (keeps_addExpr span rfl).bind fun _ =>
    keeps_addExpr span rfl

theorem keeps_levelStep (counter : Name) : Keeps (levelStep span counter) :=
  (keeps_addExpr span rfl).bind fun _ => keeps_addExpr span rfl

theorem keeps_fillLoop (array counter : Name) (counterDecl test step : NodeId)
    (stmts : List NodeId) (value : NodeId) :
    Keeps (fillLoop span array counter counterDecl test step stmts value) := by
  have body : Keeps (fillBody span array counter stmts value) :=
    (keeps_addExpr span rfl).bind fun _ => (keeps_addExpr span rfl).bind fun _ =>
      (keeps_addExpr span rfl).bind fun _ => (keeps_addExpr span rfl).bind fun _ =>
        (keeps_addStmt _).bind fun _ => keeps_blockStmt _
  exact body.bind fun _ => (keeps_addStmts _).bind fun _ => (keeps_addExprs _).bind fun _ =>
    keeps_addStmt _

theorem sifts_fillLevels (leaf : Ty) (size : Name) (sizes : List Name) :
    Sifts Eq (fillLevels span leaf size sizes) (fillLevels span leaf size sizes) := by
  induction sizes generalizing size with
  | nil => exact (Sifts.add (keeps_level leaf size)).seq fun _ => .pure rfl
  | cons next rest step =>
    unfold fillLevels
    refine (Sifts.add (keeps_level _ size)).seq fun made => ?_
    refine (sifts_bindTemp _ made).seq fun array => ?_
    refine (Sifts.add (keeps_addExpr span rfl)).seq fun start => ?_
    refine (sifts_bindTemp .int start).seq fun counter => ?_
    refine (Sifts.add (keeps_levelTest counter.2 size)).seq fun test => ?_
    refine (Sifts.add (keeps_levelStep counter.2)).seq fun increment => ?_
    refine (step next).seq fun filled => ?_
    refine (Sifts.add (keeps_fillLoop _ _ _ _ _ _ _)).seq fun loop => ?_
    exact (Sifts.add (keeps_addExpr span rfl)).seq fun _ => .pure rfl

/-- Steps that come out alike in both runs, one by one. -/
abbrev EachSifts (strict lenient : List (BuildM NodeId)) : Prop :=
  List.Forall₂ (Sifts Eq) strict lenient

theorem sifts_bindDimension {strict lenient : BuildM NodeId} (dim : Sifts Eq strict lenient) :
    Sifts Eq (bindDimension (strictly context true) span strict)
      (bindDimension (strictly context false) span lenient) :=
  dim.seq fun size =>
    (Sifts.add (@keeps_checkedLength context span size)).seq fun size =>
      sifts_bindTemp .int size

theorem sifts_bindDimensions {strict lenient : List (BuildM NodeId)}
    (dims : EachSifts strict lenient) :
    Sifts Eq (Lowering.runEach (strict.map (bindDimension (strictly context true) span)))
      (Lowering.runEach (lenient.map (bindDimension (strictly context false) span))) := by
  refine .runEach ?_
  rw [List.forall₂_map_left_iff, List.forall₂_map_right_iff]
  exact dims.imp fun _ _ => sifts_bindDimension

theorem sifts_newArray (element : Ty) (extra : Nat) {strict lenient : List (BuildM NodeId)}
    (dims : EachSifts strict lenient) :
    Sifts Eq (buildNewArray (strictly context true) span element strict extra)
      (buildNewArray (strictly context false) span element lenient extra) := by
  unfold buildNewArray
  cases dims with
  | nil => exact .fail
  | cons first rest =>
    cases rest with
    | nil =>
      exact first.seq fun size => (Sifts.add (@keeps_checkedLength context span size)).seq
        fun size => .add (keeps_addExpr span rfl)
    | cons second others =>
      refine (sifts_bindDimension first).seq fun bound => ?_
      refine (sifts_bindDimensions (.cons second others)).seq fun inner => ?_
      refine (sifts_fillLevels _ _ _).seq fun filled => ?_
      exact .add (keeps_blockExpr _ _)

section Elements

variable {array position value arrays positions values : Part}

theorem sifts_element {array position arrays positions : Operand} (first : array.Sifts arrays)
    (second : position.Sifts positions) :
    Sifts Eq (element (strictly context true) span array position)
      (element (strictly context false) span arrays positions) :=
  (sifts_use first span).seq fun _ => (sifts_use second span).seq fun _ =>
    .add (keeps_addExpr span rfl)

theorem sifts_slot (first : array.Sifts arrays) (second : position.Sifts positions) :
    Sifts Eq (slot (strictly context true) span array position)
      (slot (strictly context false) span arrays positions) := by
  unfold slot
  rw [second.expr]
  refine (sifts_operandBefore first .object _).bind ?_
  rintro ⟨decl, use⟩ ⟨_, used⟩ ⟨rfl, same⟩
  dsimp only
  rw [arrayChecks_strictly, arrayChecks_strictly]
  split
  · exact (sifts_use same span).seq fun _ => second.sifts.seq fun _ =>
      (Sifts.add (keeps_addExpr span rfl)).seq fun _ => .pure rfl
  · refine (sifts_operand second .int).bind ?_
    rintro ⟨more, place⟩ ⟨_, placed⟩ ⟨rfl, alike⟩
    exact (sifts_use same span).seq fun _ => (sifts_use alike span).seq fun _ =>
      (Sifts.add (keeps_checkStmt _ _)).seq fun _ =>
        (sifts_element same alike).seq fun _ => .pure rfl

theorem sifts_readElement (first : array.Sifts arrays) (second : position.Sifts positions) :
    Sifts Eq (readElement (strictly context true) span array position)
      (readElement (strictly context false) span arrays positions) :=
  (sifts_slot first second).seq fun _ => .add (keeps_blockExpr _ _)

theorem sifts_updateElement (op : UnaryOp) (first : array.Sifts arrays)
    (second : position.Sifts positions) :
    Sifts Eq (updateElement (strictly context true) span op array position)
      (updateElement (strictly context false) span op arrays positions) :=
  (sifts_slot first second).seq fun _ => (Sifts.add (keeps_addExpr span rfl)).seq fun _ =>
    .add (keeps_blockExpr _ _)

theorem sifts_store (first : array.Sifts arrays) (second : position.Sifts positions)
    (third : value.Sifts values) :
    Sifts Eq (store (strictly context true) span array position value)
      (store (strictly context false) span arrays positions values) := by
  unfold store
  rw [first.expr, third.expr]
  refine (sifts_operandBefore first _ _).bind ?_
  rintro ⟨decl, use⟩ ⟨_, used⟩ ⟨rfl, same⟩
  refine (sifts_operandBefore second _ _).bind ?_
  rintro ⟨more, place⟩ ⟨_, placed⟩ ⟨rfl, alike⟩
  dsimp only
  rw [arrayChecks_strictly, arrayChecks_strictly]
  split
  · exact (sifts_element same alike).seq fun _ => third.sifts.seq fun _ =>
      (Sifts.add (keeps_addExpr span rfl)).seq fun _ => .add (keeps_blockExpr _ _)
  · refine third.sifts.seq fun stored => (sifts_bindTemp _ stored).seq fun bound => ?_
    refine (sifts_use same span).seq fun _ => (sifts_use alike span).seq fun _ => ?_
    refine (Sifts.add (keeps_addExpr span rfl)).seq fun _ => ?_
    refine (Sifts.add (keeps_checkStmt _ _)).seq fun _ => ?_
    refine (sifts_element same alike).seq fun _ => ?_
    exact (Sifts.add (keeps_addExpr span rfl)).seq fun _ =>
      (Sifts.add (keeps_addExpr span rfl)).seq fun _ => .add (keeps_blockExpr _ _)

theorem sifts_arrayLength (first : array.Sifts arrays) :
    Sifts Eq (arrayLength (strictly context true) span array)
      (arrayLength (strictly context false) span arrays) := by
  refine (sifts_operand first .object).bind ?_
  rintro ⟨decl, use⟩ ⟨_, used⟩ ⟨rfl, same⟩
  exact (sifts_nullCheck same span).seq fun _ => (sifts_use same span).seq fun _ =>
    (Sifts.add (keeps_addExpr span rfl)).seq fun _ => .add (keeps_blockExpr _ _)

end Elements

/-! ### Calls -/

section Calls

variable {tag : Source.Tag} {method : Name} {receiver receivers : Option Part}
  {args others : List (BuildM NodeId)} {site : CallSite}

theorem sifts_argList (passed : EachSifts args others) : Sifts Eq (argList args) (argList others) :=
  (Sifts.runEach passed).seq fun ids => .add (keeps_addExprs ids)

theorem sifts_receiverArgs {operand used : Operand} (same : operand.Sifts used)
    (passed : EachSifts args others) :
    Sifts Eq (receiverArgs (strictly context true) span operand args)
      (receiverArgs (strictly context false) span used others) :=
  sifts_argList (.cons (sifts_use same span) passed)

/-- The receivers are written alike, if they are. -/
theorem map_expr_of_sifts (written : Option.Rel Part.Sifts receiver receivers) :
    receiver.map (·.expr) = receivers.map (·.expr) := by
  cases written with
  | none => rfl
  | some part => exact congrArg some part.expr

theorem sifts_printCall (passed : EachSifts args others) :
    Sifts Eq (printCall ⟨tag, receiver, method, args⟩)
      (printCall ⟨tag, receivers, method, others⟩) :=
  (sifts_argList passed).seq fun _ => .add (keeps_addExpr _ rfl)

/-- **The strict run refuses what the lenient run keeps as a call without a target.** -/
theorem sifts_unresolvedCall (written : Option.Rel Part.Sifts receiver receivers)
    (passed : EachSifts args others) :
    Sifts Eq (unresolvedCall (strictly context true) ⟨tag, receiver, method, args⟩)
      (unresolvedCall (strictly context false) ⟨tag, receivers, method, others⟩) := by
  have refused : unresolvedCall (strictly context true) ⟨tag, receiver, method, args⟩ =
      fail (.unresolvedCall method tag.span) := rfl
  have kept (object : NodeId) : Sifts Eq (fail (.unresolvedCall method tag.span)) (do
      let args ← argList others
      addExpr tag.span (.unresolvedCall object method args)) :=
    (sifts_argList passed).refuse fun _ => .openCall rfl
  rw [refused]
  cases written with
  | none => exact kept NodeId.invalid
  | some part => exact part.sifts.refuse kept

theorem sifts_receiverEffect (written : Option.Rel Part.Sifts receiver receivers) :
    Sifts Eq (receiverEffect receiver) (receiverEffect receivers) := by
  cases written with
  | none => exact .pure rfl
  | some part =>
    unfold receiverEffect
    dsimp only
    rw [part.expr]
    split
    · exact .pure rfl
    · exact part.sifts.seq fun _ => (Sifts.add (keeps_addStmt _)).seq fun _ => .pure rfl

theorem sifts_staticCall (written : Option.Rel Part.Sifts receiver receivers)
    (passed : EachSifts args others) :
    Sifts Eq (staticCall ⟨tag, receiver, method, args⟩ site)
      (staticCall ⟨tag, receivers, method, others⟩ site) :=
  (sifts_receiverEffect written).seq fun _ => (sifts_argList passed).seq fun _ =>
    (Sifts.add (keeps_addExpr _ rfl)).seq fun _ => .add (keeps_blockExpr _ _)

theorem sifts_receiverOperand (routine : Routine)
    (written : Option.Rel Part.Sifts receiver receivers) :
    SiftsOperand
      (receiverOperand (strictly context true) routine ⟨tag, receiver, method, args⟩ site)
      (receiverOperand (strictly context false) routine ⟨tag, receivers, method, others⟩ site) := by
  unfold receiverOperand
  cases written with
  | none =>
    dsimp only
    split
    · exact .pure ⟨rfl, .self⟩
    · exact .fail
  | some part => exact sifts_operand part (.class routine.className)

theorem sifts_directCall (routine : Routine) (written : Option.Rel Part.Sifts receiver receivers)
    (passed : EachSifts args others) :
    Sifts Eq (directCall (strictly context true) routine ⟨tag, receiver, method, args⟩ site)
      (directCall (strictly context false) routine ⟨tag, receivers, method, others⟩ site) := by
  have isSuper := congrArg (Option.any (·.isSuper)) (map_expr_of_sifts written)
  rw [Option.any_map, Option.any_map] at isSuper
  unfold directCall
  dsimp only
  rw [isSuper]
  split
  · exact (sifts_receiverArgs .self passed).seq fun _ => .add (keeps_addExpr _ rfl)
  · refine (sifts_receiverOperand routine written).bind ?_
    rintro ⟨decl, use⟩ ⟨_, used⟩ ⟨rfl, same⟩
    exact (sifts_use same tag.span).seq fun _ => (sifts_receiverArgs same passed).seq fun _ =>
      (Sifts.add (keeps_addExpr _ rfl)).seq fun _ => .add (keeps_blockExpr _ _)

theorem sifts_virtualSlot : Sifts Eq (virtualSlot (strictly context true) span site)
    (virtualSlot (strictly context false) span site) := by
  show Sifts Eq (virtualSlot context span site) (virtualSlot context span site)
  unfold virtualSlot
  split
  · exact .fail
  · split
    · exact .fail
    · exact .pure rfl

theorem sifts_virtualCall (routine : Routine) (written : Option.Rel Part.Sifts receiver receivers)
    (passed : EachSifts args others) :
    Sifts Eq (virtualCall (strictly context true) routine ⟨tag, receiver, method, args⟩ site)
      (virtualCall (strictly context false) routine ⟨tag, receivers, method, others⟩ site) := by
  refine sifts_virtualSlot.seq fun slot => (sifts_receiverOperand routine written).bind ?_
  rintro ⟨decl, use⟩ ⟨_, used⟩ ⟨rfl, same⟩
  exact (sifts_nullCheck same tag.span).seq fun _ => (sifts_use same tag.span).seq fun _ =>
    (sifts_receiverArgs same passed).seq fun _ => (Sifts.add (keeps_addExpr _ rfl)).seq fun _ =>
      .add (keeps_blockExpr _ _)

/-- **A call is built alike in both runs**, unless it has no target. -/
theorem sifts_buildCall (routine : Routine) (written : Option.Rel Part.Sifts receiver receivers)
    (passed : EachSifts args others) :
    Sifts Eq (buildCall (strictly context true) routine ⟨tag, receiver, method, args⟩)
      (buildCall (strictly context false) routine ⟨tag, receivers, method, others⟩) := by
  unfold buildCall
  dsimp only
  rw [map_expr_of_sifts written, isConsoleOutput_withOptions, isConsoleOutput_withOptions,
    sites_withOptions, sites_withOptions, facade_withOptions, facade_withOptions]
  split
  · exact sifts_printCall passed
  · split
    · exact sifts_unresolvedCall written passed
    · split
      · exact .fail
      · exact sifts_staticCall written passed
      · exact sifts_directCall routine written passed
      · exact sifts_virtualCall routine written passed

theorem sifts_chainCall (routine : Routine) (target : ChainTarget)
    (passed : EachSifts args others) :
    Sifts Eq (chainCall (strictly context true) routine span target args)
      (chainCall (strictly context false) routine span target others) :=
  (sifts_receiverArgs .self passed).seq fun _ => .add (keeps_addExpr _ rfl)

theorem sifts_buildNewObject (className : Name) (passed : EachSifts args others) :
    Sifts Eq (buildNewObject span className args) (buildNewObject span className others) :=
  (sifts_argList (.cons (.add (keeps_addExpr span rfl)) passed)).seq fun _ =>
    .add (keeps_addExpr _ rfl)

end Calls

theorem keeps_identifier (tag : Source.Tag) (name : Name) :
    Keeps (identifier context tag name) := by
  unfold identifier fieldRef
  split
  · split
    · exact keeps_addExpr _ rfl
    · exact (keeps_selfExpr context tag.span).bind fun _ => keeps_addExpr _ rfl
  · exact keeps_addExpr _ rfl

theorem sifts_memberAccess (tag : Source.Tag) (name : Name) {receiver receivers : Part}
    (same : receiver.Sifts receivers) :
    Sifts Eq (memberAccess (strictly context true) tag receiver name)
      (memberAccess (strictly context false) tag receivers name) := by
  unfold memberAccess
  rw [same.expr, staticOwner?_withOptions, staticOwner?_withOptions, facade_withOptions,
    facade_withOptions]
  split
  · exact .add (keeps_addExpr _ rfl)
  · split
    · exact sifts_arrayLength same
    · exact same.sifts.seq fun _ => .add (keeps_addExpr _ rfl)

end Building

open Building
open Lowering (Context)

variable {context : Context} {routine : Routine}

mutual

/-- **An expression is built alike in both runs**, unless it leaves a call open. -/
theorem Source.Expr.sifts_build : ∀ expr : Source.Expr,
    Sifts Eq (expr.build (strictly context true) routine)
      (expr.build (strictly context false) routine)
  | .int .. | .float .. | .bool .. | .char .. | .str .. | .null _ => .add (keeps_addExpr _ rfl)
  | .this tag | .super tag => .add (keeps_selfExpr context tag.span)
  | .ident tag name => .add (@keeps_identifier context tag name)
  | .field tag receiver name => sifts_memberAccess tag name ⟨rfl, receiver.sifts_build⟩
  | .call _ none _ args => sifts_buildCall routine .none (Source.Expr.sifts_buildEach args)
  | .call _ (some receiver) _ args =>
    sifts_buildCall routine (.some ⟨rfl, receiver.sifts_build⟩)
      (Source.Expr.sifts_buildEach args)
  | .chain _ target args => sifts_chainCall routine target (Source.Expr.sifts_buildEach args)
  | .newObject _ className args => sifts_buildNewObject className (Source.Expr.sifts_buildEach args)
  | .newArray _ element dims extra =>
    sifts_newArray element extra (Source.Expr.sifts_buildEach dims)
  | .index _ array position =>
    sifts_readElement ⟨rfl, array.sifts_build⟩ ⟨rfl, position.sifts_build⟩
  | .assign _ target value => by
    rw [build.eq_def, build.eq_def]
    dsimp only
    split
    · rename_i array position
      exact sifts_store ⟨rfl, array.sifts_build⟩ ⟨rfl, position.sifts_build⟩
        ⟨rfl, value.sifts_build⟩
    · exact target.sifts_build.seq fun _ => value.sifts_build.seq fun _ =>
        .add (keeps_addExpr _ rfl)
  | .binary _ _ left right =>
    left.sifts_build.seq fun _ => right.sifts_build.seq fun _ => .add (keeps_addExpr _ rfl)
  | .unary _ op operand => by
    rw [build.eq_def, build.eq_def]
    dsimp only
    split
    · rename_i array position _
      exact sifts_updateElement op ⟨rfl, array.sifts_build⟩ ⟨rfl, position.sifts_build⟩
    · rename_i inner _ _ _
      exact inner.sifts_build.seq fun _ => .add (keeps_addExpr _ rfl)
  | .cast _ _ operand | .instanceOf _ operand _ =>
    operand.sifts_build.seq fun _ => .add (keeps_addExpr _ rfl)

theorem Source.Expr.sifts_buildEach : ∀ exprs : List Source.Expr,
    EachSifts (Source.Expr.buildEach (strictly context true) routine exprs)
      (Source.Expr.buildEach (strictly context false) routine exprs)
  | [] => .nil
  | expr :: rest => .cons expr.sifts_build (Source.Expr.sifts_buildEach rest)

end

theorem Source.Expr.sifts_buildOption (expr : Option Source.Expr) :
    Sifts Eq (Source.Expr.buildOption (strictly context true) routine expr)
      (Source.Expr.buildOption (strictly context false) routine expr) := by
  cases expr with
  | none => exact .pure rfl
  | some expr => exact expr.sifts_build

theorem Building.keeps_implicitResult (span : Span) (mode : Mode) :
    Keeps (implicitResult context span mode) := by
  cases mode with
  | constructor => exact keeps_selfExpr context span
  | entry => exact keeps_addExpr span rfl
  | instanceMethod | static => exact .pure _

mutual

/-- **A statement is built alike in both runs**, unless it leaves a call open. -/
theorem Source.Stmt.sifts_build : ∀ stmt : Source.Stmt,
    Sifts Eq (stmt.build (strictly context true) routine)
      (stmt.build (strictly context false) routine)
  | .eval _ expr => expr.sifts_build.seq fun _ => .add (keeps_addStmt _)
  | .localVar _ _ _ init =>
    (Source.Expr.sifts_buildOption init).seq fun _ => .add (keeps_addStmt _)
  | .block _ body => (Sifts.runEach (Source.Stmt.sifts_buildEach body)).seq fun stmts =>
    .add (keeps_blockStmt stmts)
  | .branch _ cond yes none =>
    cond.sifts_build.seq fun _ => yes.sifts_build.seq fun _ => .add (keeps_addStmt _)
  | .branch _ cond yes (some no) =>
    cond.sifts_build.seq fun _ => yes.sifts_build.seq fun _ => no.sifts_build.seq fun _ =>
      .add (keeps_addStmt _)
  | .whileLoop _ cond body =>
    cond.sifts_build.seq fun _ => body.sifts_build.seq fun _ => .add (keeps_addStmt _)
  | .forLoop _ init cond update body =>
    (Sifts.runEach (Source.Stmt.sifts_buildEach init)).seq fun stmts =>
      (Sifts.add (keeps_addStmts stmts)).seq fun _ =>
        (Source.Expr.sifts_buildOption cond).seq fun _ =>
          (sifts_argList (Source.Expr.sifts_buildEach update)).seq fun _ =>
            body.sifts_build.seq fun _ => .add (keeps_addStmt _)
  | .ret span none =>
    (Sifts.add (@keeps_implicitResult context span routine.mode)).seq fun _ =>
      .add (keeps_addStmt _)
  | .ret _ (some value) => value.sifts_build.seq fun _ => .add (keeps_addStmt _)

theorem Source.Stmt.sifts_buildEach : ∀ stmts : List Source.Stmt,
    EachSifts (Source.Stmt.buildEach (strictly context true) routine stmts)
      (Source.Stmt.buildEach (strictly context false) routine stmts)
  | [] => .nil
  | stmt :: rest => .cons stmt.sifts_build (Source.Stmt.sifts_buildEach rest)

end

namespace Building

theorem keeps_finalReturn (span : Span) (stmts : List NodeId) :
    Keeps (finalReturn context routine span stmts) := by
  refine Keeps.bind (fun _ _ _ done => ?_) fun ends => ?_
  · cases done
    exact ⟨.refl _, id⟩
  · split
    · exact (keeps_implicitResult span routine.mode).bind fun _ => (keeps_addStmt _).bind fun _ =>
        .pure _
    · exact .pure _

/-- **A body is built alike in both runs**, unless it leaves a call open. -/
theorem sifts_buildBody (span : Span) (start : List NodeId) (body : Option Source.Stmt) :
    Sifts Eq (buildBody (strictly context true) routine span start body)
      (buildBody (strictly context false) routine span start body) := by
  have each : EachSifts
      ((Lowering.bodyStmts body).map (·.build (strictly context true) routine))
      ((Lowering.bodyStmts body).map (·.build (strictly context false) routine)) := by
    unfold EachSifts
    rw [List.forall₂_map_left_iff, List.forall₂_map_right_iff, List.forall₂_same]
    exact fun stmt _ => stmt.sifts_build
  exact (Sifts.runEach each).seq fun stmts =>
    (Sifts.add (@keeps_finalReturn context routine span _)).seq fun final =>
      .add (keeps_blockStmt _)

end Building

end ObjectLowering
