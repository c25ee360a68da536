/-
**Every expression declares the temporaries that it takes.**

The forms are taken one by one. What a form reads besides its temporaries are the receiver and what
its parts read, so an expression reads the receiver and its identifiers.

* `takes_readElement`, `takes_store`, `takes_arrayLength`, `takes_lowerNewArray`: arrays.
* `takes_lowerCall`: calls, by the way to the target.
* **`Source.Expr.takes_lower`**: expressions.
-/

import ObjectLowering.Proofs.Temporaries.Forms

namespace ObjectLowering

open Lowered (Expr Stmt)

namespace Lowering

variable {context : Context} {allowed : Name → Prop} {part array position value : Part}

/-! ### Arrays -/

theorem behind_weaken {tops more : List Name} (inside : tops ⊆ more) (name : Name)
    (known : Behind tops allowed name) : Behind more allowed name :=
  known.imp_left fun member => inside member

theorem takes_slot (own : allowed context.options.selfParam) (span : Span)
    (first : array.Closes allowed) (second : position.Closes allowed) :
    Takes (slot context span array position) (Delivers allowed) := by
  unfold slot
  refine (takes_operandBefore own .object position.expr first).bind ?_
  rintro added ⟨arrayDecl, arrayUse⟩ furnishes
  dsimp only
  split
  · obtain ⟨tops, opens, reads⟩ := furnishes
    refine (reads span).bind_none fun arrayTree arrayCloses => ?_
    refine second.lower.bind_pure fun more positionTree positionCloses => ?_
    exact ⟨added, tops, more, rfl, opens, arrayCloses.append (positionCloses.mono fun _ => .inr)⟩
  · refine (takes_operand own .int second).bind ?_
    rintro more ⟨positionDecl, positionUse⟩ furnishToo
    obtain ⟨tops, opens, readsArray, readsPosition⟩ := furnishes_both furnishes furnishToo
    refine (readsArray span).bind_none fun checkedArray arrayCloses => ?_
    refine (readsPosition span).bind_none fun checkedPosition positionCloses => ?_
    refine (readsArray span).bind_none fun arrayTree arrayTreeCloses => ?_
    refine (readsPosition span).bind_none fun positionTree positionTreeCloses => .pure ?_
    have check : Opens (Behind tops allowed) [] []
        [checkStmt span .arrayAccess [checkedArray, checkedPosition]] := by
      refine .check span _ ?_
      rw [List.forall_mem_cons, List.forall_mem_singleton]
      exact ⟨arrayCloses, positionCloses⟩
    rw [List.append_nil]
    exact (opens.append_none check).delivers (closes_index arrayTreeCloses positionTreeCloses span)

theorem takes_readElement (own : allowed context.options.selfParam) (span : Span)
    (first : array.Closes allowed) (second : position.Closes allowed) :
    Takes (readElement context span array position) (Closes allowed) :=
  (takes_slot own span first second).bind fun _ _ delivers => takes_blockExpr span delivers

theorem takes_updateElement (own : allowed context.options.selfParam) (span : Span) (op : UnaryOp)
    (first : array.Closes allowed) (second : position.Closes allowed) :
    Takes (updateElement context span op array position) (Closes allowed) := by
  refine (takes_slot own span first second).bind fun added element delivers => ?_
  obtain ⟨front, tops, behind, same, opens, closes⟩ := delivers
  have updated : Delivers allowed added (element.1, .unary span op element.2) :=
    ⟨front, tops, behind, same, opens, closes⟩
  exact takes_blockExpr span updated

theorem takes_store (own : allowed context.options.selfParam) (span : Span)
    (first : array.Closes allowed) (second : position.Closes allowed)
    (third : value.Closes allowed) :
    Takes (store context span array position value) (Closes allowed) := by
  unfold store
  refine (takes_operandBefore own _ value.expr first).bind ?_
  rintro added ⟨arrayDecl, arrayUse⟩ furnishes
  refine (takes_operandBefore own .int value.expr second).bind ?_
  rintro more ⟨positionDecl, positionUse⟩ furnishToo
  obtain ⟨tops, opens, readsArray, readsPosition⟩ := furnishes_both furnishes furnishToo
  dsimp only at opens readsArray readsPosition ⊢
  split
  · refine (readsArray span).bind_none fun arrayTree arrayCloses => ?_
    refine (readsPosition span).bind_none fun positionTree positionCloses => ?_
    refine third.lower.bind fun ofStored stored storedCloses => ?_
    have delivers : Delivers allowed (added ++ more ++ ofStored) (arrayDecl ++ positionDecl,
        .assign span (.index span arrayTree positionTree) stored) :=
      ⟨_, tops, ofStored, rfl, opens, closes_assign
        (closes_index arrayCloses positionCloses span) (storedCloses.mono fun _ => .inr) span⟩
    refine (takes_blockExpr span delivers).mono fun last expr closes => ?_
    simpa only [List.append_assoc] using closes
  · refine third.lower.bind fun ofStored stored storedCloses => ?_
    refine (takes_bindTemp _ stored).bind ?_
    rintro ofTemp ⟨decl, temp⟩ ⟨rfl, declared⟩
    dsimp only at declared ⊢
    subst declared
    have decl := opens.append (.declaration (storedCloses.mono fun _ => .inr)
      (storedType context (typeOr context array.expr .object) value.expr) temp)
    have fixed : Closes (Behind ([temp] ++ tops) allowed) [] (.localVar span temp) :=
      closes_localVar span (.inl List.mem_cons_self)
    have readsArray := readsArray.mono (behind_weaken (List.subset_append_right [temp] tops))
    have readsPosition := readsPosition.mono (behind_weaken (List.subset_append_right [temp] tops))
    refine (readsArray span).bind_none fun checkedArray arrayCloses => ?_
    refine (readsPosition span).bind_none fun checkedPosition positionCloses => ?_
    refine (readsArray span).bind_none fun arrayTree arrayTreeCloses => ?_
    refine (readsPosition span).bind_none fun positionTree positionTreeCloses => ?_
    have check : Opens (Behind ([temp] ++ tops) allowed) [] []
        [checkStmt span .arrayStore [checkedArray, checkedPosition, .localVar span temp]] := by
      refine .check span _ ?_
      rw [List.forall_mem_cons, List.forall_mem_cons, List.forall_mem_singleton]
      exact ⟨arrayCloses, positionCloses, fixed⟩
    have front := decl.append_none check
    rw [List.append_assoc (arrayDecl ++ positionDecl)] at front
    have stored := closes_assign (closes_index arrayTreeCloses positionTreeCloses span) fixed span
    refine (takes_blockExpr span (front.delivers stored)).mono fun last expr closes => ?_
    simpa only [List.append_assoc] using closes

/-- The length of an array. -/
theorem takes_arrayLength (own : allowed context.options.selfParam) (span : Span)
    (closes : array.Closes allowed) :
    Takes (arrayLength context span array) (Closes allowed) := by
  refine (takes_operand own .object closes).bind ?_
  rintro added ⟨decl, arrayUse⟩ ⟨tops, opens, reads⟩
  refine (takes_nullCheck span reads).bind_none fun check checkOpens => ?_
  refine (reads span).bind_none fun tree treeCloses => ?_
  have delivers : Delivers allowed added (decl ++ check, .length span tree) :=
    (opens.append_none checkOpens).delivers treeCloses
  exact takes_blockExpr span delivers

/-- A level of a new array. -/
theorem takes_fillLevels (span : Span) (leaf : Ty) {size : Name} {names : List Name}
    (sized : allowed size) (each : ∀ name ∈ names, allowed name) :
    Takes (fillLevels span leaf size names) (Delivers allowed) := by
  induction names generalizing allowed size with
  | nil => exact .pure (Opens.nil.delivers (closes_localVar span (.inr sized)))
  | cons next rest step =>
    rw [List.forall_mem_cons] at each
    refine (takes_bindTemp _ _).bind ?_
    rintro added ⟨arrayDecl, array⟩ ⟨rfl, declared⟩
    dsimp only at declared ⊢
    subst declared
    refine (takes_bindTemp _ _).bind ?_
    rintro more ⟨counterDecl, counter⟩ ⟨rfl, declared⟩
    dsimp only at declared ⊢
    subst declared
    have inner : Takes (fillLevels span leaf next rest)
        (Delivers (Behind [counter] (Behind [array] allowed))) :=
      step (.inr (.inr each.1)) fun name member => .inr (.inr (each.2 name member))
    refine inner.bind_pure ?_
    rintro last ⟨stmts, value⟩ ⟨front, tops, behind, rfl, opens, closes⟩
    dsimp only at opens closes ⊢
    have new : Closes allowed [] (.arrayAlloc span (leaf.arrayOf (rest.length + 1))
        (.localVar span size)) := closes_localVar span sized
    have zero : Closes (Behind [array] allowed) [] (.int span 0) := .none
    have made := Opens.declaration new (.array (leaf.arrayOf (rest.length + 1))) array
    have counted := Opens.declaration zero .int counter
    have known {name : Name} (inside : name = counter ∨ name = array ∨ allowed name) :
        Closes (Behind [counter] (Behind [array] allowed)) [] (.localVar span name) :=
      closes_localVar span (inside.imp List.mem_singleton.mpr (.imp_left List.mem_singleton.mpr))
    have element := closes_index (known (.inr (.inl rfl))) (known (.inl rfl)) span
    have stored := closes_assign (element.mono fun _ => .inr) closes span
    have filled : Within _ _ (.block (stmts ++ [.eval (.assign span
        (.index span (.localVar span array) (.localVar span counter)) value)])) :=
      (opens.append (.eval stored)).binds
    have more : Closes _ _ (.binary span .less (.localVar span counter) (.localVar span size)) :=
      (known (.inl rfl)).append (known (.inr (.inr sized)))
    have next : Closes _ _ (.unary span .postIncrement (.localVar span counter)) := known (.inl rfl)
    have nexts := allClose_of_closes (List.forall_mem_singleton.mpr next)
    have loop := counted.forLoop more nexts filled
    exact (made.append loop).delivers (closes_localVar span (.inl List.mem_cons_self))

theorem closes_checkedLength (span : Span) {added : List Name} {size : Expr}
    (closes : Closes allowed added size) :
    Closes allowed added (checkedLength context span size) := by
  unfold checkedLength
  split
  · have checked := closes.append .none
    rwa [List.append_nil] at checked
  · exact closes

/-- A dimension that is read once. -/
theorem takes_bindDimension (span : Span) {dim : LowerM Expr}
    (closes : Takes dim (Closes allowed)) :
    Takes (bindDimension context span dim) fun added bound =>
      Opens allowed added [bound.2] [bound.1] := by
  refine closes.bind fun added size sizeCloses => ?_
  refine (takes_bindTemp .int _).mono ?_
  rintro more ⟨decl, name⟩ ⟨rfl, declared⟩
  dsimp only at declared ⊢
  subst declared
  exact .declaration (closes_checkedLength span sizeCloses) .int name

theorem takes_bindDimensions (span : Span) {dims : List (LowerM Expr)}
    (each : ∀ dim ∈ dims, Takes dim (Closes allowed)) :
    Takes (runEach (dims.map (bindDimension context span))) fun added bounds =>
      ∃ tops, Opens allowed added tops (bounds.map (·.1)) ∧ ∀ bound ∈ bounds, bound.2 ∈ tops := by
  induction dims with
  | nil => exact .pure ⟨[], .nil, fun _ member => absurd member List.not_mem_nil⟩
  | cons dim rest step =>
    rw [List.forall_mem_cons] at each
    refine (takes_bindDimension span each.1).bind fun added bound opens => ?_
    refine (step each.2).bind_pure ?_
    rintro more others ⟨tops, opensToo, inside⟩
    refine ⟨_, opens.append (opensToo.mono fun _ => .inr), ?_⟩
    rw [List.forall_mem_cons]
    exact ⟨List.mem_append_right _ List.mem_cons_self,
      fun other member => List.mem_append_left _ (inside other member)⟩

theorem takes_lowerNewArray (span : Span) (element : Ty) (extra : Nat) {dims : List (LowerM Expr)}
    (each : ∀ dim ∈ dims, Takes dim (Closes allowed)) :
    Takes (lowerNewArray context span element dims extra) (Closes allowed) := by
  unfold lowerNewArray
  match dims with
  | [] => exact .fail
  | [dim] =>
    refine (each dim List.mem_cons_self).bind_pure fun added size closes => ?_
    exact closes_checkedLength span closes
  | dim :: next :: rest =>
    rw [List.forall_mem_cons] at each
    refine (takes_bindDimension span each.1).bind fun added bound opens => ?_
    refine (takes_bindDimensions span each.2).bind ?_
    rintro more bounds ⟨tops, opensToo, inside⟩
    have bounds := opens.append (opensToo.mono fun _ => .inr)
    have size : Behind (tops ++ [bound.2]) allowed bound.2 :=
      .inl (List.mem_append_right _ List.mem_cons_self)
    refine (takes_fillLevels span (element.arrayOf extra) size ?_).bind ?_
    · rw [List.forall_mem_map]
      exact fun other member => .inl (List.mem_append_left _ (inside other member))
    · intro last level delivers
      refine (takes_blockExpr span (bounds.appendDelivers delivers)).mono fun _ expr closes => ?_
      simpa only [List.append_assoc] using closes

/-! ### Names and members -/

theorem closes_selfExpr (span : Span) (own : allowed context.options.selfParam) :
    Closes allowed [] (selfExpr context span) := closes_localVar span own

theorem closes_fieldRef (own : allowed context.options.selfParam) (span : Span) (field : FieldRef)
    (name : Name) : Closes allowed [] (fieldRef context span field name) := by
  unfold fieldRef
  split
  · exact .none
  · exact closes_selfExpr span own

theorem closes_identifier (own : allowed context.options.selfParam) (tag : Source.Tag) {name : Name}
    (known : allowed name) : Closes allowed [] (identifier context tag name) := by
  unfold identifier
  split
  · exact closes_fieldRef own tag.span _ name
  · exact closes_localVar tag.span known

theorem takes_memberAccess (own : allowed context.options.selfParam) (tag : Source.Tag)
    (closes : part.Closes allowed) (name : Name) :
    Takes (memberAccess context tag part name) (Closes allowed) := by
  unfold memberAccess
  split
  · exact .pure .none
  · split
    · exact takes_arrayLength own tag.span closes
    · exact closes.lower.bind_pure fun added object objectCloses => objectCloses

/-! ### Calls -/

/-- The parts of a call close. -/
structure CallParts.Closes (allowed : Name → Prop) (call : CallParts) : Prop where
  receiver : ∀ part, call.receiver = some part → part.Closes allowed
  args : ∀ step ∈ call.args, Takes step (Lowering.Closes allowed)

/-- Behind temporaries the arguments still close. -/
theorem CallParts.Closes.argsBehind {call : CallParts} (closes : call.Closes allowed)
    (tops : List Name) : ∀ step ∈ call.args, Takes step (Lowering.Closes (Behind tops allowed)) :=
  fun step member => (closes.args step member).mono fun _ _ known => known.mono fun _ => .inr

variable {routine : Routine} {call : CallParts} {site : CallSite} {args : List (LowerM Expr)}

/-- A list of arguments behind the receiver. -/
theorem takes_receiverArgs (span : Span) {operand : Operand} (reads : Reads context allowed operand)
    (each : ∀ step ∈ args, Takes step (Closes allowed)) :
    Takes (receiverArgs context span operand args) (AllClose allowed) := by
  refine takes_argList (List.forall_mem_cons.mpr ⟨?_, each⟩)
  exact (reads span).mono fun added tree ⟨untaken, closes⟩ => untaken ▸ closes

theorem takes_receiverOperand (own : allowed context.options.selfParam)
    (closes : call.Closes allowed) :
    Takes (receiverOperand context routine call site) (Furnishes context allowed) := by
  unfold receiverOperand
  split
  · rename_i part written
    exact takes_operand own _ (closes.receiver part written)
  · split
    · exact .pure ⟨[], .nil, (reads_self own).mono behind_nil⟩
    · exact .fail

theorem takes_printCall (closes : call.Closes allowed) : Takes (printCall call) (Closes allowed) :=
  (takes_argList closes.args).bind_pure fun _ _ allClose => allClose

theorem takes_unresolvedCall (closes : call.Closes allowed) :
    Takes (unresolvedCall context call) (Closes allowed) := by
  have onward (added : List Name) (receiver : Expr)
      (receiverCloses : Closes allowed added receiver) : Takes (do
        let args ← argList call.args
        return .unresolvedCall call.tag.span receiver call.method args) fun more expr =>
          Closes allowed (added ++ more) expr :=
    (takes_argList closes.args).bind_pure fun more args allClose => receiverCloses.append allClose
  unfold unresolvedCall
  dsimp only
  split
  · exact Takes.bind .fail fun _ _ (never : False) => never.elim
  · split
    · rename_i part written
      exact (closes.receiver part written).lower.bind onward
    · exact onward [] .absent .none

/-- A receiver that is evaluated for its effects. -/
theorem takes_receiverEffect {receiver : Option Part}
    (closes : ∀ part, receiver = some part → part.Closes allowed) :
    Takes (receiverEffect receiver) fun added stmts => Opens allowed added [] stmts := by
  unfold receiverEffect
  split
  · exact .pure .nil
  · split
    · exact .pure .nil
    · exact (closes _ rfl).lower.bind_pure fun added value valueCloses => .eval valueCloses

theorem takes_staticCall (closes : call.Closes allowed) :
    Takes (staticCall call site) (Closes allowed) := by
  refine (takes_receiverEffect closes.receiver).bind fun added stmts opens => ?_
  refine (takes_argList closes.args).bind fun more args allClose => ?_
  have delivers : Delivers allowed (added ++ more) (stmts,
      .qualifiedCall call.tag.span site.target.className site.mangled args) :=
    ⟨added, [], more, rfl, opens, allClose.mono fun _ => .inr⟩
  exact takes_blockExpr_append _ delivers

theorem takes_directCall (own : allowed context.options.selfParam) (closes : call.Closes allowed) :
    Takes (directCall context routine call site) (Closes allowed) := by
  unfold directCall
  dsimp only
  split
  · exact (takes_receiverArgs _ (reads_self own) closes.args).bind_pure fun _ _ allClose => allClose
  · refine (takes_receiverOperand own closes).bind ?_
    rintro added ⟨decl, receiver⟩ ⟨tops, opens, reads⟩
    refine (reads call.tag.span).bind_none fun receiverTree receiverCloses => ?_
    refine (takes_receiverArgs _ reads (closes.argsBehind tops)).bind fun more args allClose => ?_
    have delivers : Delivers allowed (added ++ more) (decl,
        .directCall call.tag.span receiverTree site.mangled args) :=
      ⟨added, tops, more, rfl, opens, receiverCloses.append allClose⟩
    exact takes_blockExpr_append _ delivers

theorem takes_virtualSlot (span : Span) :
    Takes (virtualSlot context span site) fun added _ => added = [] ∧ True := by
  unfold virtualSlot
  split
  · exact .fail
  · split
    · exact .fail
    · exact .pure ⟨rfl, trivial⟩

theorem takes_virtualCall (own : allowed context.options.selfParam) (closes : call.Closes allowed) :
    Takes (virtualCall context routine call site) (Closes allowed) := by
  refine (takes_virtualSlot call.tag.span).bind_none fun slot _ => ?_
  refine (takes_receiverOperand own closes).bind ?_
  rintro added ⟨decl, receiver⟩ ⟨tops, opens, reads⟩
  refine (takes_nullCheck _ reads).bind_none fun check checkOpens => ?_
  refine (reads call.tag.span).bind_none fun receiverTree receiverCloses => ?_
  refine (takes_receiverArgs _ reads (closes.argsBehind tops)).bind fun more args allClose => ?_
  have delivers : Delivers allowed (added ++ more) (decl ++ check,
      .virtualCall call.tag.span receiverTree slot args) :=
    ⟨added, tops, more, rfl, opens.append_none checkOpens, receiverCloses.append allClose⟩
  exact takes_blockExpr_append _ delivers

/-- A call, by the way to its target. -/
theorem takes_lowerCall (own : allowed context.options.selfParam) (closes : call.Closes allowed) :
    Takes (lowerCall context routine call) (Closes allowed) := by
  unfold lowerCall
  split
  · exact takes_printCall closes
  · split
    · exact takes_unresolvedCall closes
    · split
      · exact .fail
      · exact takes_staticCall closes
      · exact takes_directCall own closes
      · exact takes_virtualCall own closes

theorem takes_chainCall (own : allowed context.options.selfParam) (span : Span)
    (target : ChainTarget) (each : ∀ step ∈ args, Takes step (Closes allowed)) :
    Takes (chainCall context routine span target args) (Closes allowed) :=
  (takes_receiverArgs span (reads_self own) each).bind_pure fun _ _ allClose => allClose

theorem takes_lowerNewObject (span : Span) (className : Name)
    (each : ∀ step ∈ args, Takes step (Closes allowed)) :
    Takes (lowerNewObject span className args) (Closes allowed) :=
  (takes_argList (List.forall_mem_cons.mpr ⟨.pure .none, each⟩)).bind_pure
    fun _ _ allClose => allClose

end Lowering

/-! ### Expressions -/

namespace Source

open Lowering

variable {context : Context} {routine : Routine} {allowed : Name → Prop}

/-- The identifier that an expression is, if it is one, is allowed. -/
def Expr.Names (allowed : Name → Prop) (node : Expr) : Prop :=
  ∀ name, node.identifier? = some name → allowed name

theorem Expr.closes_part {expr : Expr}
    (closes : Takes (expr.lower context routine) (Closes allowed)) :
    Part.Closes allowed ⟨expr, expr.lower context routine⟩ :=
  ⟨closes, expr.steady_lower context routine⟩

mutual

theorem Expr.takes_lower_of_names (own : allowed context.options.selfParam) : ∀ expr : Expr,
    (∀ node ∈ expr.nodes, node.Names allowed) →
      Takes (expr.lower context routine) (Closes allowed)
  | .int .., _ | .float .., _ | .bool .., _ | .char .., _ | .str .., _ | .null _, _ => .pure .none
  | .this tag, _ | .super tag, _ => .pure (closes_selfExpr tag.span own)
  | .ident tag name, names =>
    .pure (closes_identifier own tag (names _ List.mem_cons_self name rfl))
  | .field tag receiver name, names => by
    rw [nodes, List.forall_mem_cons] at names
    exact takes_memberAccess own tag (closes_part (receiver.takes_lower_of_names own names.2)) name
  | .call tag none method args, names => by
    rw [nodes, List.forall_mem_cons] at names
    refine takes_lowerCall own ⟨?_, Expr.takes_lowerEach own args names.2⟩
    rintro _ ⟨⟩
  | .call tag (some receiver) method args, names => by
    rw [nodes, List.forall_mem_cons, List.forall_mem_append] at names
    refine takes_lowerCall own ⟨?_, Expr.takes_lowerEach own args names.2.2⟩
    rintro _ ⟨⟩
    exact closes_part (receiver.takes_lower_of_names own names.2.1)
  | .chain tag target args, names => by
    rw [nodes, List.forall_mem_cons] at names
    exact takes_chainCall own tag.span target (Expr.takes_lowerEach own args names.2)
  | .newObject tag className args, names => by
    rw [nodes, List.forall_mem_cons] at names
    exact takes_lowerNewObject tag.span className (Expr.takes_lowerEach own args names.2)
  | .newArray tag element dims extra, names => by
    rw [nodes, List.forall_mem_cons] at names
    exact takes_lowerNewArray tag.span element extra (Expr.takes_lowerEach own dims names.2)
  | .index tag array position, names => by
    rw [nodes, List.forall_mem_cons, List.forall_mem_append] at names
    exact takes_readElement own tag.span (closes_part (array.takes_lower_of_names own names.2.1))
      (closes_part (position.takes_lower_of_names own names.2.2))
  | .assign tag target value, names => by
    rw [nodes, List.forall_mem_cons, List.forall_mem_append] at names
    obtain ⟨first, second⟩ := names.2
    rw [lower.eq_def]
    dsimp only
    split
    · rename_i array position
      rw [nodes, List.forall_mem_cons, List.forall_mem_append] at first
      exact takes_store own tag.span (closes_part (array.takes_lower_of_names own first.2.1))
        (closes_part (position.takes_lower_of_names own first.2.2))
        (closes_part (value.takes_lower_of_names own second))
    · refine (target.takes_lower_of_names own first).bind fun added _ here => ?_
      exact (value.takes_lower_of_names own second).bind_pure fun more _ there => here.append there
  | .binary tag op left right, names => by
    rw [nodes, List.forall_mem_cons, List.forall_mem_append] at names
    refine (left.takes_lower_of_names own names.2.1).bind fun added _ here => ?_
    exact (right.takes_lower_of_names own names.2.2).bind_pure fun more _ there => here.append there
  | .unary tag op operand, names => by
    rw [nodes, List.forall_mem_cons] at names
    have below := names.2
    rw [lower.eq_def]
    dsimp only
    split
    · rename_i array position _
      rw [nodes, List.forall_mem_cons, List.forall_mem_append] at below
      exact takes_updateElement own tag.span op
        (closes_part (array.takes_lower_of_names own below.2.1))
        (closes_part (position.takes_lower_of_names own below.2.2))
    · rename_i inner _ _ _
      exact (inner.takes_lower_of_names own below).bind_pure fun _ _ closes => closes
  | .cast _ _ operand, names | .instanceOf _ operand _, names => by
    rw [nodes, List.forall_mem_cons] at names
    exact (operand.takes_lower_of_names own names.2).bind_pure fun _ _ closes => closes

theorem Expr.takes_lowerEach (own : allowed context.options.selfParam) : ∀ exprs : List Expr,
    (∀ node ∈ Expr.nodesOfList exprs, node.Names allowed) →
      ∀ step ∈ Expr.lowerEach context routine exprs, Takes step (Closes allowed)
  | [], _ => List.forall_mem_nil _
  | expr :: rest, names => by
    rw [nodesOfList, List.forall_mem_append] at names
    rw [lowerEach, List.forall_mem_cons]
    exact ⟨expr.takes_lower_of_names own names.1, Expr.takes_lowerEach own rest names.2⟩

end

/-- The receiver or one of the names. -/
def Means (context : Context) (names : List Name) (name : Name) : Prop :=
  name = context.options.selfParam ∨ name ∈ names

theorem names_of_nodes {nodes : List Expr} {node : Expr} (inside : node ∈ nodes) :
    node.Names (Means context (nodes.filterMap Expr.identifier?)) :=
  fun _ named => .inr (List.mem_filterMap.mpr ⟨node, inside, named⟩)

/-- **An expression declares the temporaries that it takes, and reads only these, the receiver and
its identifiers.** -/
theorem Expr.takes_lower (expr : Expr) :
    Takes (expr.lower context routine) (Closes (Means context expr.names)) :=
  expr.takes_lower_of_names (.inl rfl) fun _ => names_of_nodes

theorem Expr.takes_lowerOption (expr : Option Expr) :
    Takes (Expr.lowerOption context routine expr)
      (Closes (Means context (Expr.namesOfOption expr))) := by
  cases expr with
  | none => exact .pure .none
  | some expr => exact expr.takes_lower

theorem Expr.takes_lowerArgs (exprs : List Expr) :
    Takes (argList (Expr.lowerEach context routine exprs))
      (AllClose (Means context (Expr.namesOfList exprs))) :=
  takes_argList (Expr.takes_lowerEach (.inl rfl) exprs fun _ => names_of_nodes)

end Source

end ObjectLowering
