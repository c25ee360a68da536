/-
**Which lists of the source lowering makes longer.**

The list of an expression is lowered to one of the same length, or to one that begins with a new
object or the receiver; and several dimensions of a new array stand in front of the two statements
that fill it. The lists of a statement keep their lengths. So the limit for lists, which the source
keeps, is met by all others.

* `Source.Expr.listLength` is the length of an expression's list, `Lowering.addedItems` what
  lowering adds to it; `Lowering.HasRoom` says that both are within the limit.
* `Source.Expr.reached`, `Source.Stmt.reached` are the expressions that lowering reaches: all but
  those in front of a static field.
* **`Source.Expr.limits_lower`**, **`Source.Stmt.limits_lower`**: for trees with short lists,
  lowering finds a list too long only where an expression that it reaches has no room, and succeeds
  only where all have.
-/

import ObjectLowering.Proofs.Limits.TooLong

namespace ObjectLowering

open Lowering

/-! ### Lists of the source -/

namespace Source

/-- The length of the list of an expression, if it has one. -/
def Expr.listLength : Expr → Nat
  | .call _ _ _ items | .chain _ _ items | .newObject _ _ items | .newArray _ _ items _ =>
    items.length
  | _ => 0

mutual

/-- The lengths of the lists of a statement: the bodies of blocks and the heads of loops. -/
def Stmt.listLengths : Stmt → List Nat
  | .eval .. | .localVar .. | .ret .. => []
  | .block _ body => body.length :: Stmt.listLengthsOfList body
  | .branch _ _ yes none => yes.listLengths
  | .branch _ _ yes (some no) => yes.listLengths ++ no.listLengths
  | .whileLoop _ _ body => body.listLengths
  | .forLoop _ init _ update body =>
    init.length :: update.length :: Stmt.listLengthsOfList init ++ body.listLengths

/-- The lengths of the lists of several statements. -/
def Stmt.listLengthsOfList : List Stmt → List Nat
  | [] => []
  | stmt :: rest => stmt.listLengths ++ Stmt.listLengthsOfList rest

end

/-- The lists of the expressions are within the limit. -/
def ShortLists (nodes : List Expr) : Prop := ∀ node ∈ nodes, node.listLength ≤ maxListLength

/-- The lists of a statement and of its expressions are within the limit. -/
structure Stmt.Short (stmt : Stmt) : Prop where
  nodes : ShortLists stmt.nodes
  lists : ∀ length ∈ stmt.listLengths, length ≤ maxListLength

end Source

namespace Lowering

/-- How many items lowering adds to the list of an expression. -/
def addedItems (context : Context) : Source.Expr → Nat
  | .call tag receiver method _ => (handsReceiver context tag receiver method).toNat
  | .chain .. | .newObject .. => 1
  | .newArray _ _ dims _ => if 2 ≤ dims.length then 2 else 0
  | _ => 0

/-- A list of some length has room for the items that are added to it, if any are. -/
def RoomFor (length added : Nat) : Prop := 0 < added → length + added ≤ maxListLength

/-- The list of an expression has room for what lowering adds to it. -/
def HasRoom (context : Context) (node : Source.Expr) : Prop :=
  RoomFor node.listLength (addedItems context node)

/-- All have room for what is added. -/
def AllHaveRoom (context : Context) (nodes : List Source.Expr) : Prop :=
  ∀ node ∈ nodes, HasRoom context node

end Lowering

/-! ### What lowering reaches -/

namespace Source

mutual

/-- The expressions of a tree that lowering reaches: those in front of a static field are left
out. -/
def Expr.reached (context : Context) (expr : Expr) : List Expr :=
  expr :: match expr with
    | .int .. | .float .. | .bool .. | .char .. | .str .. | .null _ => []
    | .ident .. | .this _ | .super _ => []
    | .field tag receiver _ =>
      if (staticOwner? context tag.id receiver.id).isSome then [] else receiver.reached context
    | .call _ (some receiver) _ args =>
      receiver.reached context ++ Expr.reachedOfList context args
    | .call _ none _ args => Expr.reachedOfList context args
    | .chain _ _ args => Expr.reachedOfList context args
    | .newObject _ _ args => Expr.reachedOfList context args
    | .newArray _ _ dims _ => Expr.reachedOfList context dims
    | .index _ array position => array.reached context ++ position.reached context
    | .assign _ target value => target.reached context ++ value.reached context
    | .binary _ _ left right => left.reached context ++ right.reached context
    | .unary _ _ operand => operand.reached context
    | .cast _ _ operand => operand.reached context
    | .instanceOf _ operand _ => operand.reached context

/-- The expressions of several trees that lowering reaches. -/
def Expr.reachedOfList (context : Context) : List Expr → List Expr
  | [] => []
  | expr :: rest => expr.reached context ++ Expr.reachedOfList context rest

end

/-- The expressions that lowering reaches of a tree that may be missing. -/
def Expr.reachedOfOption (context : Context) : Option Expr → List Expr
  | none => []
  | some expr => expr.reached context

mutual

/-- The expressions of a statement that lowering reaches. -/
def Stmt.reached (context : Context) : Stmt → List Expr
  | .eval _ expr => expr.reached context
  | .localVar _ _ _ init => Expr.reachedOfOption context init
  | .block _ body => Stmt.reachedOfList context body
  | .branch _ cond yes none => cond.reached context ++ yes.reached context
  | .branch _ cond yes (some no) =>
    cond.reached context ++ yes.reached context ++ no.reached context
  | .whileLoop _ cond body => cond.reached context ++ body.reached context
  | .forLoop _ init cond update body =>
    Stmt.reachedOfList context init ++ Expr.reachedOfOption context cond ++
      Expr.reachedOfList context update ++ body.reached context
  | .ret _ value => Expr.reachedOfOption context value

/-- The expressions of several statements that lowering reaches. -/
def Stmt.reachedOfList (context : Context) : List Stmt → List Expr
  | [] => []
  | stmt :: rest => stmt.reached context ++ Stmt.reachedOfList context rest

end

end Source

namespace Lowering

variable {context : Context}

theorem allHaveRoom_nil : AllHaveRoom context [] := List.forall_mem_nil _

theorem allHaveRoom_cons {node : Source.Expr} {rest : List Source.Expr} :
    AllHaveRoom context (node :: rest) ↔ HasRoom context node ∧ AllHaveRoom context rest :=
  List.forall_mem_cons

theorem allHaveRoom_append {nodes others : List Source.Expr} :
    AllHaveRoom context (nodes ++ others) ↔
      AllHaveRoom context nodes ∧ AllHaveRoom context others :=
  List.forall_mem_append

theorem allHaveRoom_reachedOfList {exprs : List Source.Expr} :
    AllHaveRoom context (Source.Expr.reachedOfList context exprs) ↔
      ∀ expr ∈ exprs, AllHaveRoom context (expr.reached context) := by
  induction exprs with
  | nil => exact iff_of_true allHaveRoom_nil (List.forall_mem_nil _)
  | cons expr rest step =>
    rw [Source.Expr.reachedOfList, allHaveRoom_append, List.forall_mem_cons, step]

theorem allHaveRoom_reachedOfStmts {stmts : List Source.Stmt} :
    AllHaveRoom context (Source.Stmt.reachedOfList context stmts) ↔
      ∀ stmt ∈ stmts, AllHaveRoom context (stmt.reached context) := by
  induction stmts with
  | nil => exact iff_of_true allHaveRoom_nil (List.forall_mem_nil _)
  | cons stmt rest step =>
    rw [Source.Stmt.reachedOfList, allHaveRoom_append, List.forall_mem_cons, step]

theorem hasRoom_of_none {node : Source.Expr} (none : addedItems context node = 0) :
    HasRoom context node := by
  intro some
  rw [none] at some
  exact absurd some (Nat.lt_irrefl 0)

/-- What holds of a root to which nothing is added is what holds below it. -/
theorem allHaveRoom_root {root : Source.Expr} {below : List Source.Expr}
    (none : addedItems context root = 0) :
    AllHaveRoom context (root :: below) ↔ AllHaveRoom context below :=
  allHaveRoom_cons.trans (and_iff_right (hasRoom_of_none none))

/-- Nothing is added to a pure expression. -/
theorem allHaveRoom_of_isPure : ∀ {expr : Source.Expr}, expr.isPure = true →
    AllHaveRoom context (expr.reached context)
  | .int .., _ | .float .., _ | .bool .., _ | .char .., _ | .str .., _ | .null _, _
  | .ident .., _ | .this _, _ | .super _, _ => (allHaveRoom_root rfl).mpr allHaveRoom_nil
  | .field tag receiver name, isPure => by
    rw [Source.Expr.reached, allHaveRoom_root rfl]
    split
    · exact allHaveRoom_nil
    · exact allHaveRoom_of_isPure (show receiver.isPure = true from isPure)

/-! ### Conditions of single expressions -/

theorem hasRoom_call {tag : Source.Tag} {receiver : Option Source.Expr} {method : Name}
    {args : List Source.Expr} : HasRoom context (.call tag receiver method args) ↔
      (handsReceiver context tag receiver method = true → args.length + 1 ≤ maxListLength) := by
  unfold HasRoom RoomFor addedItems Source.Expr.listLength
  dsimp only
  cases handsReceiver context tag receiver method <;> simp

theorem hasRoom_chain {tag : Source.Tag} {target : ChainTarget} {args : List Source.Expr} :
    HasRoom context (.chain tag target args) ↔ args.length + 1 ≤ maxListLength :=
  forall_prop_of_true Nat.one_pos

theorem hasRoom_newObject {tag : Source.Tag} {className : Name} {args : List Source.Expr} :
    HasRoom context (.newObject tag className args) ↔ args.length + 1 ≤ maxListLength :=
  forall_prop_of_true Nat.one_pos

theorem hasRoom_newArray {tag : Source.Tag} {element : Ty} {dims : List Source.Expr}
    {extra : Nat} : HasRoom context (.newArray tag element dims extra) ↔
      (2 ≤ dims.length → dims.length + 2 ≤ maxListLength) := by
  unfold HasRoom RoomFor addedItems Source.Expr.listLength
  by_cases several : 2 ≤ dims.length <;> simp [several]

/-- A static field needs no room for what stands in front of it. -/
theorem limits_memberAccess {part : Part} {room : Prop} (tag : Source.Tag) (name : Name)
    (limited : part.Limited room) :
    LimitsAny ((staticOwner? context tag.id part.expr.id).isSome = false → room)
      (memberAccess context tag part name) := by
  unfold memberAccess
  cases staticOwner? context tag.id part.expr.id with
  | some className =>
    exact (Limits.pure trivial).of_iff (iff_true_intro fun none => (nomatch none)).symm
  | none =>
    have needed : room ↔ ((none : Option Name).isSome = false → room) :=
      ⟨fun known _ => known, fun known => known rfl⟩
    dsimp only
    split
    · exact (limits_arrayLength limited).of_iff needed
    · exact (limited.lowers.last fun _ _ => .pure trivial).of_iff needed

end Lowering

/-! ### Trees -/

variable {context : Context}

mutual

/-- **Lowering an expression finds a list too long only where one that it reaches has no room**, and
has a result only where all have. -/
theorem Source.Expr.limits_lower (routine : Routine) : ∀ expr : Source.Expr,
    ShortLists expr.nodes →
      LimitsAny (AllHaveRoom context (expr.reached context)) (expr.lower context routine)
  | .int .., _ | .float .., _ | .bool .., _ | .char .., _ | .str .., _ | .null _, _
  | .ident .., _ | .this _, _ | .super _, _ =>
    (Limits.pure trivial).of_iff (iff_true_intro (allHaveRoom_of_isPure rfl)).symm
  | .field tag receiver name, short => by
    rw [ShortLists, nodes, List.forall_mem_cons] at short
    refine (limits_memberAccess tag name
      ⟨receiver.limits_lower routine short.2, allHaveRoom_of_isPure⟩).of_iff ?_
    rw [reached, allHaveRoom_root rfl]
    dsimp only
    cases staticOwner? context tag.id receiver.id with
    | none => exact ⟨fun needed => needed rfl, fun known _ => known⟩
    | some className => exact iff_of_true (fun none => nomatch none) allHaveRoom_nil
  | .call tag none method args, short => by
    rw [ShortLists, nodes, List.forall_mem_cons] at short
    have each := Source.Expr.limits_lowerEach routine args short.2
    let parts : CallParts := ⟨tag, none, method, Source.Expr.lowerEach context routine args⟩
    have receives : ReceiverLimited True parts.receiver := trivial
    have passes : parts.args = args.map (·.lower context routine) :=
      Source.Expr.lowerEach_eq_map context routine args
    refine (limits_lowerCall each passes receives short.1).of_iff ?_
    rw [reached, allHaveRoom_cons, allHaveRoom_reachedOfList, hasRoom_call, true_and, and_comm]
    rfl
  | .call tag (some receiver) method args, short => by
    rw [ShortLists, nodes, List.forall_mem_cons, List.forall_mem_append] at short
    have each := Source.Expr.limits_lowerEach routine args short.2.2
    let part : Part := ⟨receiver, receiver.lower context routine⟩
    let parts : CallParts := ⟨tag, some part, method, Source.Expr.lowerEach context routine args⟩
    have receives : ReceiverLimited (AllHaveRoom context (receiver.reached context))
        parts.receiver :=
      Part.Limited.mk (receiver.limits_lower routine short.2.1) allHaveRoom_of_isPure
    have passes : parts.args = args.map (·.lower context routine) :=
      Source.Expr.lowerEach_eq_map context routine args
    refine (limits_lowerCall each passes receives short.1).of_iff ?_
    rw [reached, allHaveRoom_cons, allHaveRoom_append, allHaveRoom_reachedOfList, hasRoom_call,
      ← and_assoc, and_comm]
    rfl
  | .chain tag target args, short => by
    rw [ShortLists, nodes, List.forall_mem_cons] at short
    have each := Source.Expr.limits_lowerEach routine args short.2
    rw [lower, Source.Expr.lowerEach_eq_map]
    refine (limits_chainCall each target).of_iff ?_
    rw [reached, allHaveRoom_cons, allHaveRoom_reachedOfList, hasRoom_chain, and_comm]
  | .newObject tag className args, short => by
    rw [ShortLists, nodes, List.forall_mem_cons] at short
    have each := Source.Expr.limits_lowerEach routine args short.2
    rw [lower, Source.Expr.lowerEach_eq_map]
    refine (limits_lowerNewObject each className).of_iff ?_
    rw [reached, allHaveRoom_cons, allHaveRoom_reachedOfList, hasRoom_newObject, and_comm]
  | .newArray tag element dims extra, short => by
    rw [ShortLists, nodes, List.forall_mem_cons] at short
    have each := Source.Expr.limits_lowerEach routine dims short.2
    rw [lower, Source.Expr.lowerEach_eq_map]
    refine (limits_lowerNewArray element extra each).of_iff ?_
    rw [reached, allHaveRoom_cons, allHaveRoom_reachedOfList, hasRoom_newArray, and_comm]
  | .index tag array position, short => by
    rw [ShortLists, nodes, List.forall_mem_cons, List.forall_mem_append] at short
    refine (limits_readElement ⟨array.limits_lower routine short.2.1, allHaveRoom_of_isPure⟩
      ⟨position.limits_lower routine short.2.2, allHaveRoom_of_isPure⟩).of_iff ?_
    rw [reached, allHaveRoom_root rfl]
    exact allHaveRoom_append.symm
  | .assign tag target value, short => by
    rw [ShortLists, nodes, List.forall_mem_cons, List.forall_mem_append] at short
    obtain ⟨first, second⟩ := short.2
    rw [lower.eq_def, reached, allHaveRoom_root rfl, allHaveRoom_append]
    dsimp only
    split
    · rename_i array position
      rw [nodes, List.forall_mem_cons, List.forall_mem_append] at first
      refine (limits_store ⟨array.limits_lower routine first.2.1, allHaveRoom_of_isPure⟩
        ⟨position.limits_lower routine first.2.2, allHaveRoom_of_isPure⟩
        ⟨value.limits_lower routine second, allHaveRoom_of_isPure⟩).of_iff ?_
      rw [reached, allHaveRoom_root rfl, allHaveRoom_append]
    · exact (target.limits_lower routine first).bind fun _ _ =>
        (value.limits_lower routine second).last fun _ _ => .pure trivial
  | .binary tag op left right, short => by
    rw [ShortLists, nodes, List.forall_mem_cons, List.forall_mem_append] at short
    rw [reached, allHaveRoom_root rfl, allHaveRoom_append]
    exact (left.limits_lower routine short.2.1).bind fun _ _ =>
      (right.limits_lower routine short.2.2).last fun _ _ => .pure trivial
  | .unary tag op operand, short => by
    rw [ShortLists, nodes, List.forall_mem_cons] at short
    have below := short.2
    rw [lower.eq_def, reached, allHaveRoom_root rfl]
    dsimp only
    split
    · rename_i array position _
      rw [nodes, List.forall_mem_cons, List.forall_mem_append] at below
      rw [reached, allHaveRoom_root rfl, allHaveRoom_append]
      exact limits_updateElement op ⟨array.limits_lower routine below.2.1, allHaveRoom_of_isPure⟩
        ⟨position.limits_lower routine below.2.2, allHaveRoom_of_isPure⟩
    · rename_i inner _ _ _
      exact (inner.limits_lower routine below).last fun _ _ => .pure trivial
  | .cast _ _ operand, short | .instanceOf _ operand _, short => by
    rw [ShortLists, nodes, List.forall_mem_cons] at short
    rw [reached, allHaveRoom_root rfl]
    exact (operand.limits_lower routine short.2).last fun _ _ => .pure trivial

theorem Source.Expr.limits_lowerEach (routine : Routine) : ∀ exprs : List Source.Expr,
    ShortLists (Source.Expr.nodesOfList exprs) → ∀ expr ∈ exprs,
      LimitsAny (AllHaveRoom context (expr.reached context)) (expr.lower context routine)
  | [], _ => List.forall_mem_nil _
  | expr :: rest, short => by
    rw [ShortLists, nodesOfList, List.forall_mem_append] at short
    rw [List.forall_mem_cons]
    exact ⟨expr.limits_lower routine short.1, Source.Expr.limits_lowerEach routine rest short.2⟩

end

theorem Source.Expr.limits_lowerOption (routine : Routine) (expr : Option Source.Expr)
    (short : ShortLists (Source.Expr.nodesOfOption expr)) :
    LimitsAny (AllHaveRoom context (Source.Expr.reachedOfOption context expr))
      (Source.Expr.lowerOption context routine expr) := by
  cases expr with
  | none => exact (Limits.pure trivial).of_iff (iff_true_intro allHaveRoom_nil).symm
  | some expr => exact expr.limits_lower routine short

/-! ### Statements -/

theorem Source.Stmt.short_of_list {stmts : List Source.Stmt}
    (nodes : ShortLists (Source.Stmt.nodesOfList stmts))
    (lists : ∀ length ∈ Source.Stmt.listLengthsOfList stmts, length ≤ maxListLength) :
    ∀ stmt ∈ stmts, stmt.Short := by
  induction stmts with
  | nil => exact List.forall_mem_nil _
  | cons stmt rest step =>
    rw [ShortLists, nodesOfList, List.forall_mem_append] at nodes
    rw [listLengthsOfList, List.forall_mem_append] at lists
    exact List.forall_mem_cons.mpr ⟨⟨nodes.1, lists.1⟩, step nodes.2 lists.2⟩

/-- Several statements are lowered to as many. -/
theorem Lowering.limits_lowerStmts {stmts : List Source.Stmt} {routine : Routine}
    (each : ∀ stmt ∈ stmts,
      LimitsAny (AllHaveRoom context (stmt.reached context)) (stmt.lower context routine)) :
    Limits (AllHaveRoom context (Source.Stmt.reachedOfList context stmts))
      (runEach (Source.Stmt.lowerEach context routine stmts))
      fun lowered => lowered.length = stmts.length := by
  rw [Source.Stmt.lowerEach_eq_map, allHaveRoom_reachedOfStmts]
  exact (Limits.runEach each).mono fun lowered known => known.length_eq.symm

mutual

/-- **Lowering a statement with short lists finds a list too long only where an expression that it
reaches has no room**, and has a result only where all have. -/
theorem Source.Stmt.limits_lower (routine : Routine) : ∀ stmt : Source.Stmt, stmt.Short →
    LimitsAny (AllHaveRoom context (stmt.reached context)) (stmt.lower context routine)
  | .eval _ expr, short => (expr.limits_lower routine short.nodes).last fun _ _ => .pure trivial
  | .localVar _ _ _ init, short =>
    (Source.Expr.limits_lowerOption routine init short.nodes).last fun _ _ => .pure trivial
  | .block _ body, short => by
    have lists := List.forall_mem_cons.mp short.lists
    have each := Source.Stmt.limits_lowerEach routine body
      (Source.Stmt.short_of_list short.nodes lists.2)
    refine (limits_lowerStmts each).last fun lowered same => ?_
    refine (limits_checkLength _ ?_).first fun _ _ => .pure trivial
    exact Nat.le_trans (Nat.le_of_eq same) lists.1
  | .branch _ cond yes none, short => by
    have nodes := List.forall_mem_append.mp short.nodes
    rw [reached, allHaveRoom_append]
    exact (cond.limits_lower routine nodes.1).bind fun _ _ =>
      (yes.limits_lower routine ⟨nodes.2, short.lists⟩).last fun _ _ => .pure trivial
  | .branch _ cond yes (some no), short => by
    have nodes := List.forall_mem_append.mp short.nodes
    have before := List.forall_mem_append.mp nodes.1
    have lists := List.forall_mem_append.mp short.lists
    rw [reached, allHaveRoom_append, allHaveRoom_append, and_assoc]
    exact (cond.limits_lower routine before.1).bind fun _ _ =>
      (yes.limits_lower routine ⟨before.2, lists.1⟩).bind fun _ _ =>
        (no.limits_lower routine ⟨nodes.2, lists.2⟩).last fun _ _ => .pure trivial
  | .whileLoop _ cond body, short => by
    have nodes := List.forall_mem_append.mp short.nodes
    rw [reached, allHaveRoom_append]
    exact (cond.limits_lower routine nodes.1).bind fun _ _ =>
      (body.limits_lower routine ⟨nodes.2, short.lists⟩).last fun _ _ => .pure trivial
  | .forLoop _ init cond update body, short => by
    have nodes := short.nodes
    have lists := short.lists
    rw [ShortLists, Stmt.nodes, List.forall_mem_append, List.forall_mem_append,
      List.forall_mem_append] at nodes
    rw [listLengths, List.cons_append, List.cons_append, List.forall_mem_cons,
      List.forall_mem_cons, List.forall_mem_append] at lists
    obtain ⟨⟨⟨inits, condition⟩, updates⟩, bodyNodes⟩ := nodes
    obtain ⟨fewInits, fewUpdates, initLists, bodyLists⟩ := lists
    have each := Source.Stmt.limits_lowerEach routine init
      (Source.Stmt.short_of_list inits initLists)
    have updated : LimitsAny (AllHaveRoom context (Source.Expr.reachedOfList context update))
        (argList (Source.Expr.lowerEach context routine update)) := by
      rw [Source.Expr.lowerEach_eq_map, allHaveRoom_reachedOfList]
      exact (limits_argList (Source.Expr.limits_lowerEach routine update updates)).of_iff
        (and_iff_left fewUpdates)
    rw [reached, allHaveRoom_append, allHaveRoom_append, allHaveRoom_append, and_assoc, and_assoc]
    refine (limits_lowerStmts each).bind fun lowered same => ?_
    refine (limits_checkLength _ (Nat.le_trans (Nat.le_of_eq same) fewInits)).first fun _ _ => ?_
    refine (Source.Expr.limits_lowerOption routine cond condition).bind fun _ _ => ?_
    refine updated.bind fun _ _ => ?_
    exact (body.limits_lower routine ⟨bodyNodes, bodyLists⟩).last fun _ _ => .pure trivial
  | .ret span none, _ => (Limits.pure trivial).of_iff (iff_true_intro allHaveRoom_nil).symm
  | .ret _ (some value), short =>
    (value.limits_lower routine short.nodes).last fun _ _ => .pure trivial

theorem Source.Stmt.limits_lowerEach (routine : Routine) : ∀ stmts : List Source.Stmt,
    (∀ stmt ∈ stmts, stmt.Short) → ∀ stmt ∈ stmts,
      LimitsAny (AllHaveRoom context (stmt.reached context)) (stmt.lower context routine)
  | [], _ => List.forall_mem_nil _
  | stmt :: rest, short => by
    rw [List.forall_mem_cons] at short ⊢
    exact ⟨stmt.limits_lower routine short.1, Source.Stmt.limits_lowerEach routine rest short.2⟩

end

end ObjectLowering
