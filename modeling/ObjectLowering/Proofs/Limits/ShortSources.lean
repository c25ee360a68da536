/-
**The lists of a numbered unit are short.**

Numbering refuses a list of more than `maxListLength` items, wherever it stands. So no list of the
expressions and statements of a unit is longer.

* `NodeNumbering.Leaves` says what numbering a part leaves behind, from whatever state.
* `Source.ClassDecl.Short`: the lists of a class are within the limit.
* **`short_of_number`**: so are those of all classes of a numbered unit.
-/

import ObjectLowering.Proofs.Limits.ListRoom
import ObjectLowering.Proofs.Resolution.Numbering

namespace ObjectLowering

open Source (ShortLists)

/-! ### What numbering leaves -/

namespace NodeNumbering

/-- From whatever state, what a step gives has the property. -/
def Leaves {α : Type} (step : Step α) (property : α → Prop) : Prop :=
  ∀ start result stop, step.run start = .ok (result, stop) → property result

namespace Leaves

variable {α β : Type} {step : Step α} {next : α → Step β} {property : α → Prop} {result : β → Prop}

theorem pure {value : α} (known : property value) : Leaves (pure value) property := by
  intro start found stop done
  cases done
  exact known

theorem bind (first : Leaves step property)
    (second : ∀ value, property value → Leaves (next value) result) :
    Leaves (step >>= next) result := by
  intro start value stop done
  obtain ⟨reached, middle, here, there⟩ := run_of_bind done
  exact second reached (first start reached middle here) middle value stop there

theorem after (second : ∀ value, Leaves (next value) result) : Leaves (step >>= next) result :=
  bind (fun _ _ _ _ => trivial) fun value (_ : True) => second value

theorem map {change : α → β} (leaves : Leaves step fun value => result (change value)) :
    Leaves (change <$> step) result := by
  rw [← bind_pure_comp]
  exact leaves.bind fun _ known => pure known

theorem mapM {ι : Type} {number : ι → Step α} {items : List ι}
    (each : ∀ item ∈ items, Leaves (number item) property) :
    Leaves (items.mapM number) fun results => ∀ result ∈ results, property result := by
  induction items with
  | nil => exact pure (List.forall_mem_nil _)
  | cons item rest induct =>
    rw [List.forall_mem_cons] at each
    rw [List.mapM_cons]
    exact each.1.bind fun first here => (induct each.2).bind fun others there =>
      pure (List.forall_mem_cons.mpr ⟨here, there⟩)

/-- A list that passes is short. -/
theorem checkLength (kind : NodeKind) (count : Nat) :
    Leaves (checkLength kind count) fun _ => count ≤ maxListLength := by
  intro start value stop done
  unfold NodeNumbering.checkLength checkListLength at done
  by_cases short : count ≤ maxListLength
  · exact short
  · rw [if_neg short] at done
    cases done

theorem complete {make : Source.Tag → Source.Expr} {property : Source.Expr → Prop}
    (known : ∀ tag, property (make tag)) : Leaves (complete make) property := by
  intro start expr stop done
  cases done
  exact known _

theorem completeStmt {make : Span → Source.Stmt} {property : Source.Stmt → Prop}
    (known : ∀ span, property (make span)) : Leaves (completeStmt make) property := by
  intro start stmt stop done
  cases done
  exact known _

end Leaves

end NodeNumbering

open NodeNumbering

/-! ### Expressions -/

theorem Source.shortLists_nil : ShortLists [] := List.forall_mem_nil _

theorem Source.shortLists_cons {node : Source.Expr} {rest : List Source.Expr}
    (short : node.listLength ≤ maxListLength) (others : ShortLists rest) :
    ShortLists (node :: rest) := List.forall_mem_cons.mpr ⟨short, others⟩

theorem Source.ShortLists.append {nodes others : List Source.Expr} (first : ShortLists nodes)
    (second : ShortLists others) : ShortLists (nodes ++ others) :=
  List.forall_mem_append.mpr ⟨first, second⟩

open Source (shortLists_nil shortLists_cons)

mutual

/-- The lists of a numbered expression are short. -/
theorem Written.Expr.short_number : ∀ written : Written.Expr,
    Leaves written.number fun expr => ShortLists expr.nodes
  | .int _ | .float _ | .bool _ | .char _ | .str _ | .null | .ident _ | .this | .super =>
    .complete fun _ => shortLists_cons (Nat.zero_le _) shortLists_nil
  | .field receiver _ => receiver.short_number.bind fun _ below =>
    .complete fun _ => shortLists_cons (Nat.zero_le _) below
  | .call none _ args | .chain _ args | .newObject _ args | .newArray _ args _ =>
    (Written.Expr.short_numberList args).bind fun _ below => (Leaves.checkLength _ _).bind
      fun _ short => .complete fun _ => shortLists_cons short below
  | .call (some receiver) _ args =>
    receiver.short_number.bind fun _ front => (Written.Expr.short_numberList args).bind
      fun _ below => (Leaves.checkLength _ _).bind fun _ short =>
        .complete fun _ => shortLists_cons short (front.append below)
  | .index left right | .assign left right | .binary _ left right =>
    left.short_number.bind fun _ first => right.short_number.bind fun _ second =>
      .complete fun _ => shortLists_cons (Nat.zero_le _) (first.append second)
  | .unary _ operand | .cast _ operand | .instanceOf operand _ =>
    operand.short_number.bind fun _ below =>
      .complete fun _ => shortLists_cons (Nat.zero_le _) below
  | .println args => by
    have name : Leaves (complete (.ident · Reserved.system)) fun expr => ShortLists expr.nodes :=
      .complete fun _ => shortLists_cons (Nat.zero_le _) shortLists_nil
    have member {system : Source.Expr} (front : ShortLists system.nodes) :
        Leaves (complete (.field · system Reserved.out)) fun expr => ShortLists expr.nodes :=
      .complete fun _ => shortLists_cons (Nat.zero_le _) front
    refine (Written.Expr.short_numberList args).bind fun _ below => ?_
    refine name.bind fun _ front => (member front).bind fun _ front => ?_
    exact (Leaves.checkLength _ _).bind fun _ short =>
      .complete fun _ => shortLists_cons short (front.append below)

theorem Written.Expr.short_numberList : ∀ written : List Written.Expr,
    Leaves (numberList written) fun exprs => ShortLists (Source.Expr.nodesOfList exprs)
  | [] => .pure shortLists_nil
  | expr :: rest => expr.short_number.bind fun _ first =>
    (Written.Expr.short_numberList rest).bind fun _ others => .pure (first.append others)

end

theorem Written.Expr.short_numberOption (written : Option Written.Expr) :
    Leaves (numberOption written) fun expr => ShortLists (Source.Expr.nodesOfOption expr) := by
  cases written with
  | none => exact .pure shortLists_nil
  | some written => exact .map written.short_number

/-! ### Statements -/

/-- The lists of several statements are short. -/
structure Source.Stmt.AllShort (stmts : List Source.Stmt) : Prop where
  nodes : ShortLists (nodesOfList stmts)
  lists : ∀ length ∈ listLengthsOfList stmts, length ≤ maxListLength

theorem Written.short_completeBlock {body : List Source.Stmt} (short : Source.Stmt.AllShort body) :
    Leaves (completeBlock body) Source.Stmt.Short :=
  (Leaves.checkLength _ _).bind fun _ few =>
    .completeStmt fun _ => ⟨short.nodes, List.forall_mem_cons.mpr ⟨few, short.lists⟩⟩

mutual

/-- The lists of a numbered statement are short. -/
theorem Written.Stmt.short_number : ∀ written : Written.Stmt,
    Leaves written.number Source.Stmt.Short
  | .eval expr => expr.short_number.bind fun _ below =>
    .completeStmt fun _ => ⟨below, List.forall_mem_nil _⟩
  | .localVar _ _ value | .ret value => (Written.Expr.short_numberOption value).bind fun _ below =>
    .completeStmt fun _ => ⟨below, List.forall_mem_nil _⟩
  | .block body => (Written.Stmt.short_numberList body).bind fun _ below =>
    Written.short_completeBlock below
  | .branch cond yes none | .whileLoop cond yes =>
    cond.short_number.bind fun _ first => yes.short_number.bind fun _ second =>
      .completeStmt fun _ => ⟨first.append second.nodes, second.lists⟩
  | .branch cond yes (some no) =>
    cond.short_number.bind fun _ first => yes.short_number.bind fun _ second =>
      no.short_number.bind fun _ third => .completeStmt fun _ =>
        ⟨(first.append second.nodes).append third.nodes,
          List.forall_mem_append.mpr ⟨second.lists, third.lists⟩⟩
  | .forLoop init cond update body =>
    (Written.Stmt.short_numberList init).bind fun _ first =>
      (Written.Expr.short_numberOption cond).bind fun _ second =>
        (Written.Expr.short_numberList update).bind fun _ third =>
          body.short_number.bind fun _ fourth =>
            (Leaves.checkLength _ _).bind fun _ few => (Leaves.checkLength _ _).bind
              fun _ fewToo => .completeStmt fun _ =>
                ⟨((first.nodes.append second).append third).append fourth.nodes,
                  List.forall_mem_cons.mpr ⟨few, List.forall_mem_cons.mpr
                    ⟨fewToo, List.forall_mem_append.mpr ⟨first.lists, fourth.lists⟩⟩⟩⟩

theorem Written.Stmt.short_numberList : ∀ written : List Written.Stmt,
    Leaves (numberList written) Source.Stmt.AllShort
  | [] => .pure ⟨shortLists_nil, List.forall_mem_nil _⟩
  | stmt :: rest => stmt.short_number.bind fun _ first =>
    (Written.Stmt.short_numberList rest).bind fun _ others =>
      .pure ⟨first.nodes.append others.nodes,
        List.forall_mem_append.mpr ⟨first.lists, others.lists⟩⟩

end

/-! ### Declarations -/

/-- The lists of the fields and of the methods of a class are within the limit. -/
structure Source.ClassDecl.Short (decl : Source.ClassDecl) : Prop where
  nodes : ShortLists decl.nodes
  bodies : ∀ method ∈ decl.methods, method.body.Short

theorem Written.Method.short_number (owner : Name) (method : Written.Method) :
    Leaves (method.number owner) fun decl => decl.body.Short := by
  refine (Written.Stmt.short_numberList method.body).bind fun stmts below => ?_
  have block := Written.short_completeBlock below
  dsimp only
  split
  · rw [pure_bind]
    exact block.bind fun _ short => .after fun _ => .pure short
  · rename_i written _
    have replaced : Leaves (some <$> written.number) fun replacement =>
        ∃ body, replacement = some body ∧ body.Short :=
      .map fun start body stop done =>
        ⟨body, rfl, written.short_number start body stop done⟩
    refine replaced.bind ?_
    rintro _ ⟨body, rfl, short⟩
    exact .after fun _ => .after fun _ => .pure short

theorem Written.ClassText.short_number (text : Written.ClassText) :
    Leaves text.number Source.ClassDecl.Short := by
  have fields : Leaves (text.fields.mapM Field.number) fun fields =>
      ∀ field ∈ fields, ShortLists (Source.Expr.nodesOfOption field.init) :=
    .mapM fun field _ => (Written.Expr.short_numberOption field.init).bind fun _ short =>
      .after fun _ => .pure short
  have methods : Leaves (text.methods.mapM (Method.number text.name)) fun methods =>
      ∀ method ∈ methods, method.body.Short :=
    .mapM fun method _ => method.short_number text.name
  refine .after fun span => fields.bind fun fields short => methods.bind fun methods shortToo => ?_
  refine .pure ⟨?_, shortToo⟩
  refine Source.ShortLists.append ?_ ?_
  · show ShortLists (Source.Expr.nodesOfList (fields.filterMap (·.init)))
    rw [ShortLists, Source.Expr.nodesOfList_initializers, List.forall_mem_flatMap]
    exact short
  · rw [ShortLists, List.forall_mem_flatMap]
    exact fun method inside => (shortToo method inside).nodes

/-- **The lists of a numbered unit are within the limit.** -/
theorem short_of_number {text : Written.UnitText} {unit : Source.SourceUnit}
    (done : text.number = .ok unit) : ∀ decl ∈ unit.classes, decl.Short := by
  obtain ⟨⟨classes, state⟩, first, done⟩ := ok_of_bind done
  cases done
  have all : Leaves (text.classes.mapM Written.ClassText.number) fun classes =>
      ∀ decl ∈ classes, decl.Short := .mapM fun text _ => text.short_number
  exact all {} classes state first

end ObjectLowering
