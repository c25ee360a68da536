/-
**Every expression has a number of its own.**

Numbering a unit takes the numbers one after the other. So the expressions of its declarations are
told apart by their numbers, and all numbers are below the count of expressions: the trees form a
forest over the numbers of the unit.

* `SourceUnit.IsForest` is what the trees of a unit are promised to be; `IsNumbered` says it of any
  expressions.
* `Numbers` says of a run which numbers it gave out.
* **`isForest_of_number`**: the trees of a numbered unit are a forest.
-/

import Mathlib.Data.List.Flatten
import Mathlib.Data.List.Nodup
import Mathlib.Data.List.Perm.Subperm
import ObjectLowering.Proofs.Lowering.Success
import ObjectLowering.Source.Numbering

namespace ObjectLowering

open NodeNumbering

namespace Source

/-- Expressions that are told apart by their numbers, all of which are below a count. -/
structure IsNumbered (count : Nat) (nodes : List Expr) : Prop where
  distinct : (nodes.map (·.id)).Nodup
  inside : ∀ node ∈ nodes, node.id < count

namespace IsNumbered

variable {count : Nat} {nodes others : List Expr}

theorem sublist (numbered : IsNumbered count nodes) (part : List.Sublist others nodes) :
    IsNumbered count others where
  distinct := (part.map _).nodup numbered.distinct
  inside node member := numbered.inside node (part.subset member)

theorem left (numbered : IsNumbered count (nodes ++ others)) : IsNumbered count nodes :=
  numbered.sublist (List.sublist_append_left _ _)

theorem right (numbered : IsNumbered count (nodes ++ others)) : IsNumbered count others :=
  numbered.sublist (List.sublist_append_right _ _)

/-- What stands apart in a list has different numbers. -/
theorem apart (numbered : IsNumbered count (nodes ++ others)) {node : Expr}
    (before : node ∈ nodes) : node.id ∉ others.map (·.id) := by
  have split := numbered.distinct
  rw [List.map_append] at split
  exact fun behind =>
    (List.nodup_append.mp split).2.2 _ (List.mem_map_of_mem before) _ behind rfl

theorem apart' (numbered : IsNumbered count (nodes ++ others)) {node : Expr}
    (behind : node ∈ others) : node.id ∉ nodes.map (·.id) := by
  intro before
  obtain ⟨other, member, same⟩ := List.mem_map.mp before
  have apart := numbered.apart member
  rw [same] at apart
  exact apart (List.mem_map_of_mem behind)

theorem root_apart {root : Expr} (numbered : IsNumbered count (root :: nodes)) :
    root.id ∉ nodes.map (·.id) :=
  (List.nodup_cons.mp numbered.distinct).1

end IsNumbered

theorem Expr.nodesOfList_eq_flatMap (exprs : List Expr) :
    nodesOfList exprs = exprs.flatMap (·.nodes) := by
  induction exprs with
  | nil => rfl
  | cons expr rest step => rw [nodesOfList, step, List.flatMap_cons]

namespace SourceUnit

/-- The expressions of all declarations of a unit. -/
def reachable (unit : SourceUnit) : List Expr := unit.classes.flatMap (·.nodes)

/-- No number of a unit stands at two places of its declarations. -/
def IsForest (unit : SourceUnit) : Prop := IsNumbered unit.exprCount unit.reachable

theorem IsForest.filter {unit : SourceUnit} (forest : unit.IsForest) (kept : ClassDecl → Bool) :
    IsNumbered unit.exprCount ((unit.classes.filter kept).flatMap (·.nodes)) :=
  forest.sublist (List.filter_sublist.flatMap _)

end SourceUnit

end Source

/-- Between two states the given numbers were given out, each once. -/
structure NodeNumbering.Numbers (start stop : NodeNumbering) (ids : List NodeId) : Prop where
  grows : start.nodes.size ≤ stop.nodes.size
  distinct : ids.Nodup
  between : ∀ id ∈ ids, start.nodes.size ≤ id ∧ id < stop.nodes.size

namespace NodeNumbering

variable {start middle stop : NodeNumbering} {first second : List NodeId}

namespace Numbers

theorem none (same : stop.nodes = start.nodes) : Numbers start stop [] where
  grows := Nat.le_of_eq (by rw [same])
  distinct := List.nodup_nil
  between _ member := nomatch member

theorem append (earlier : Numbers start middle first) (later : Numbers middle stop second) :
    Numbers start stop (first ++ second) where
  grows := Nat.le_trans earlier.grows later.grows
  distinct := by
    refine List.nodup_append.mpr ⟨earlier.distinct, later.distinct, ?_⟩
    rintro id before _ behind rfl
    exact Nat.not_lt.mpr (later.between id behind).1 (earlier.between id before).2
  between id member := by
    rcases List.mem_append.mp member with before | behind
    · have bounds := earlier.between id before
      exact ⟨bounds.1, Nat.lt_of_lt_of_le bounds.2 later.grows⟩
    · have bounds := later.between id behind
      exact ⟨Nat.le_trans earlier.grows bounds.1, bounds.2⟩

theorem subperm (given : Numbers start stop first) (fewer : second.Subperm first) :
    Numbers start stop second where
  grows := given.grows
  distinct := by
    obtain ⟨reordered, same, part⟩ := fewer
    exact same.nodup_iff.mp (part.nodup given.distinct)
  between id member := given.between id (fewer.subset member)

/-- A run that completes no expression behind it gives out nothing more. -/
theorem kept (given : Numbers start middle first) (same : stop.nodes = middle.nodes) :
    Numbers start stop first where
  grows := by rw [same]; exact given.grows
  distinct := given.distinct
  between := by rw [same]; exact given.between

theorem next (given : Numbers start middle first) (one : stop.nodes.size = middle.nodes.size + 1) :
    Numbers start stop (middle.nodes.size :: first) where
  grows := by rw [one]; exact Nat.le_succ_of_le given.grows
  distinct := by
    refine List.nodup_cons.mpr ⟨fun member => ?_, given.distinct⟩
    exact Nat.lt_irrefl _ (given.between _ member).2
  between id member := by
    rw [one]
    rcases List.mem_cons.mp member with rfl | member
    · exact ⟨given.grows, Nat.lt_succ_self _⟩
    · have bounds := given.between id member
      exact ⟨bounds.1, Nat.lt_succ_of_lt bounds.2⟩

end Numbers

/-! ### Expressions -/

theorem numbers_complete {make : Source.Tag → Source.Expr} {expr : Source.Expr}
    {children : List Source.Expr} (below : Numbers start middle (children.map (·.id)))
    (done : (complete make).run middle = .ok (expr, stop))
    (tagged : ∀ tag, (make tag).tag = tag)
    (rooted : ∀ tag, (make tag).nodes = make tag :: children) :
    Numbers start stop (expr.nodes.map (·.id)) := by
  obtain ⟨rfl, rfl⟩ := Prod.mk.inj (Except.ok.inj done)
  rw [rooted, List.map_cons]
  have next : (make ⟨middle.nodes.size, middle.cursor, middle.cursor + 1⟩).id =
      middle.nodes.size := congrArg Source.Tag.id (tagged _)
  rw [next]
  exact below.next (Array.size_push _)

theorem numbers_leaf {make : Source.Tag → Source.Expr} {expr : Source.Expr}
    (done : (complete make).run start = .ok (expr, stop)) (tagged : ∀ tag, (make tag).tag = tag)
    (rooted : ∀ tag, (make tag).nodes = [make tag]) :
    Numbers start stop (expr.nodes.map (·.id)) :=
  have nothing : Numbers start start (([] : List Source.Expr).map (·.id)) := .none rfl
  numbers_complete nothing done tagged rooted

theorem run_checkLength {kind : NodeKind} {count : Nat} {result : Unit}
    (done : (checkLength kind count).run start = .ok (result, stop)) : stop = start := by
  unfold checkLength checkListLength at done
  split at done <;> cases done
  rfl

theorem numbers_completeList {make : Source.Tag → Source.Expr} {expr : Source.Expr}
    {children : List Source.Expr} {count : Nat}
    (below : Numbers start middle (children.map (·.id)))
    (done : (checkLength .expr count >>= fun _ => complete make).run middle = .ok (expr, stop))
    (tagged : ∀ tag, (make tag).tag = tag)
    (rooted : ∀ tag, (make tag).nodes = make tag :: children) :
    Numbers start stop (expr.nodes.map (·.id)) := by
  obtain ⟨_, _, short, done⟩ := run_of_bind done
  cases run_checkLength short
  exact numbers_complete below done tagged rooted

theorem Numbers.both {before behind : List Source.Expr}
    (earlier : Numbers start middle (before.map (·.id)))
    (later : Numbers middle stop (behind.map (·.id))) :
    Numbers start stop ((before ++ behind).map (·.id)) := by
  rw [List.map_append]
  exact earlier.append later

end NodeNumbering

mutual

/-- Numbering an expression gives each of its nodes a number of its own. -/
theorem Written.Expr.numbers {start stop : NodeNumbering} : ∀ (written : Written.Expr)
    {expr : Source.Expr}, written.number.run start = .ok (expr, stop) →
      Numbers start stop (expr.nodes.map (·.id))
  | .int _, _, done | .float _, _, done | .bool _, _, done | .char _, _, done
  | .str _, _, done | .null, _, done | .ident _, _, done | .this, _, done | .super, _, done =>
    numbers_leaf done (fun _ => rfl) fun _ => rfl
  | .field receiver _, _, done => by
    rw [number] at done
    obtain ⟨_, _, first, done⟩ := run_of_bind done
    exact numbers_complete (receiver.numbers first) done (fun _ => rfl) fun _ => rfl
  | .call none _ args, _, done | .chain _ args, _, done | .newObject _ args, _, done
  | .newArray _ args _, _, done => by
    rw [number] at done
    obtain ⟨_, _, first, done⟩ := run_of_bind done
    exact numbers_completeList (Written.Expr.numbers_list args first) done (fun _ => rfl)
      fun _ => rfl
  | .call (some receiver) _ args, _, done => by
    rw [number] at done
    obtain ⟨_, _, first, done⟩ := run_of_bind done
    obtain ⟨_, _, second, done⟩ := run_of_bind done
    have below := (receiver.numbers first).both (Written.Expr.numbers_list args second)
    exact numbers_completeList below done (fun _ => rfl) fun _ => rfl
  | .index left right, _, done | .assign left right, _, done | .binary _ left right, _, done => by
    rw [number] at done
    obtain ⟨_, _, first, done⟩ := run_of_bind done
    obtain ⟨_, _, second, done⟩ := run_of_bind done
    have below := (left.numbers first).both (right.numbers second)
    exact numbers_complete below done (fun _ => rfl) fun _ => rfl
  | .unary _ operand, _, done | .cast _ operand, _, done | .instanceOf operand _, _, done => by
    rw [number] at done
    obtain ⟨_, _, first, done⟩ := run_of_bind done
    exact numbers_complete (operand.numbers first) done (fun _ => rfl) fun _ => rfl
  | .println args, _, done => by
    rw [number] at done
    obtain ⟨_, _, first, done⟩ := run_of_bind done
    obtain ⟨_, _, system, done⟩ := run_of_bind done
    obtain ⟨_, _, out, done⟩ := run_of_bind done
    -- The receiver stands before the arguments, but was numbered after them.
    have name := numbers_leaf system (fun _ => rfl) fun _ => rfl
    have receiver := numbers_complete name out (fun _ => rfl) fun _ => rfl
    have below := (Written.Expr.numbers_list args first).both receiver
    have below := below.subperm (List.perm_append_comm.map _).subperm
    exact numbers_completeList below done (fun _ => rfl) fun _ => rfl

theorem Written.Expr.numbers_list {start stop : NodeNumbering} : ∀ (written : List Written.Expr)
    {exprs : List Source.Expr}, (numberList written).run start = .ok (exprs, stop) →
      Numbers start stop ((Source.Expr.nodesOfList exprs).map (·.id))
  | [], _, done => by
    rw [numberList] at done
    cases done
    exact .none rfl
  | first :: rest, _, done => by
    rw [numberList] at done
    obtain ⟨_, _, here, done⟩ := run_of_bind done
    obtain ⟨_, _, there, done⟩ := run_of_bind done
    cases done
    exact (first.numbers here).both (Written.Expr.numbers_list rest there)

end

theorem Written.Expr.numbers_option {start stop : NodeNumbering} {written : Option Written.Expr}
    {expr : Option Source.Expr} (done : (numberOption written).run start = .ok (expr, stop)) :
    Numbers start stop ((Source.Expr.nodesOfOption expr).map (·.id)) := by
  cases written with
  | none => cases done; exact .none rfl
  | some written =>
    rw [numberOption, ← bind_pure_comp] at done
    obtain ⟨_, _, first, done⟩ := run_of_bind done
    cases done
    exact written.numbers first

/-! ### Statements -/

namespace NodeNumbering

variable {start middle stop : NodeNumbering}

theorem numbers_completeStmt {make : Span → Source.Stmt} {stmt : Source.Stmt}
    {children : List Source.Expr} (below : Numbers start middle (children.map (·.id)))
    (done : (completeStmt make).run middle = .ok (stmt, stop))
    (made : ∀ span, (make span).nodes = children) :
    Numbers start stop (stmt.nodes.map (·.id)) := by
  obtain ⟨rfl, rfl⟩ := Prod.mk.inj (Except.ok.inj done)
  rw [made]
  exact below.kept rfl

theorem run_completeBlock {body : List Source.Stmt} {stmt : Source.Stmt}
    (done : (completeBlock body).run start = .ok (stmt, stop)) :
    stmt.nodes = Source.Stmt.nodesOfList body ∧ stop.nodes = start.nodes := by
  obtain ⟨_, _, short, done⟩ := run_of_bind done
  cases run_checkLength short
  cases done
  exact ⟨rfl, rfl⟩

end NodeNumbering

mutual

theorem Written.Stmt.numbers {start stop : NodeNumbering} : ∀ (written : Written.Stmt)
    {stmt : Source.Stmt}, written.number.run start = .ok (stmt, stop) →
      Numbers start stop (stmt.nodes.map (·.id))
  | .eval expr, _, done => by
    rw [number] at done
    obtain ⟨_, _, first, done⟩ := run_of_bind done
    exact numbers_completeStmt (expr.numbers first) done fun _ => rfl
  | .localVar _ _ value, _, done | .ret value, _, done => by
    rw [number] at done
    obtain ⟨_, _, first, done⟩ := run_of_bind done
    exact numbers_completeStmt (Written.Expr.numbers_option first) done fun _ => rfl
  | .block body, _, done => by
    rw [number] at done
    obtain ⟨_, _, first, done⟩ := run_of_bind done
    obtain ⟨same, kept⟩ := run_completeBlock done
    rw [same]
    exact (Written.Stmt.numbers_list body first).kept kept
  | .branch cond yes none, _, done | .whileLoop cond yes, _, done => by
    rw [number] at done
    obtain ⟨_, _, first, done⟩ := run_of_bind done
    obtain ⟨_, _, second, done⟩ := run_of_bind done
    exact numbers_completeStmt ((cond.numbers first).both (yes.numbers second)) done fun _ => rfl
  | .branch cond yes (some no), _, done => by
    rw [number] at done
    obtain ⟨_, _, first, done⟩ := run_of_bind done
    obtain ⟨_, _, second, done⟩ := run_of_bind done
    obtain ⟨_, _, third, done⟩ := run_of_bind done
    have below := ((cond.numbers first).both (yes.numbers second)).both (no.numbers third)
    exact numbers_completeStmt below done fun _ => rfl
  | .forLoop init _ update body, _, done => by
    rw [number] at done
    obtain ⟨_, _, first, done⟩ := run_of_bind done
    obtain ⟨_, _, second, done⟩ := run_of_bind done
    obtain ⟨_, _, third, done⟩ := run_of_bind done
    obtain ⟨_, _, fourth, done⟩ := run_of_bind done
    obtain ⟨_, _, short, done⟩ := run_of_bind done
    cases run_checkLength short
    obtain ⟨_, _, short, done⟩ := run_of_bind done
    cases run_checkLength short
    have head := (Written.Stmt.numbers_list init first).both (Written.Expr.numbers_option second)
    have below := (head.both (Written.Expr.numbers_list update third)).both (body.numbers fourth)
    exact numbers_completeStmt below done fun _ => rfl

theorem Written.Stmt.numbers_list {start stop : NodeNumbering} : ∀ (written : List Written.Stmt)
    {stmts : List Source.Stmt}, (numberList written).run start = .ok (stmts, stop) →
      Numbers start stop ((Source.Stmt.nodesOfList stmts).map (·.id))
  | [], _, done => by
    rw [numberList] at done
    cases done
    exact .none rfl
  | first :: rest, _, done => by
    rw [numberList] at done
    obtain ⟨_, _, here, done⟩ := run_of_bind done
    obtain ⟨_, _, there, done⟩ := run_of_bind done
    cases done
    exact (first.numbers here).both (Written.Stmt.numbers_list rest there)

end

/-! ### Declarations -/

namespace NodeNumbering

variable {start middle stop : NodeNumbering}

theorem numbers_mapM {α β : Type} {number : α → Step β} (nodes : β → List Source.Expr)
    (each : ∀ item start result stop, (number item).run start = .ok (result, stop) →
      Numbers start stop ((nodes result).map (·.id)))
    {items : List α} {results : List β}
    (done : (items.mapM number).run start = .ok (results, stop)) :
    Numbers start stop ((results.flatMap nodes).map (·.id)) := by
  induction items generalizing start results with
  | nil =>
    rw [List.mapM_nil] at done
    cases done
    exact .none rfl
  | cons item rest step =>
    rw [List.mapM_cons] at done
    obtain ⟨_, _, here, done⟩ := run_of_bind done
    obtain ⟨_, _, there, done⟩ := run_of_bind done
    cases done
    exact (each _ _ _ _ here).both (step there)

end NodeNumbering

theorem NodeNumbering.run_nextSpan {start stop : NodeNumbering} {span : Span}
    (done : nextSpan.run start = .ok (span, stop)) : stop.nodes = start.nodes := by
  cases done
  rfl

theorem Written.Field.numbers {start stop : NodeNumbering} {field : Written.Field}
    {decl : Source.FieldDecl} (done : field.number.run start = .ok (decl, stop)) :
    Numbers start stop ((Source.Expr.nodesOfOption decl.init).map (·.id)) := by
  unfold number at done
  obtain ⟨_, _, first, done⟩ := run_of_bind done
  obtain ⟨_, _, span, done⟩ := run_of_bind done
  cases done
  exact (Written.Expr.numbers_option first).kept (run_nextSpan span)

/-- A method's body is the block of its statements or what replaces it. -/
theorem Written.Method.numbers {start stop : NodeNumbering} {owner : Name} {method : Written.Method}
    {decl : Source.MethodDecl} (done : (method.number owner).run start = .ok (decl, stop)) :
    Numbers start stop (decl.body.nodes.map (·.id)) := by
  unfold number at done
  obtain ⟨_, _, first, done⟩ := run_of_bind done
  have stmts := Written.Stmt.numbers_list _ first
  cases replaced : method.replacement with
  | none =>
    rw [replaced] at done
    obtain ⟨_, _, nothing, done⟩ := run_of_bind done
    cases nothing
    obtain ⟨_, _, block, done⟩ := run_of_bind done
    obtain ⟨_, _, span, done⟩ := run_of_bind done
    cases done
    obtain ⟨same, kept⟩ := run_completeBlock block
    show Numbers start _ ((Source.Stmt.nodes _).map _)
    rw [Option.getD_none, same]
    exact (stmts.kept kept).kept (run_nextSpan span)
  | some written =>
    rw [replaced] at done
    obtain ⟨_, _, second, done⟩ := run_of_bind done
    rw [← bind_pure_comp] at second
    obtain ⟨stmt, _, second, nothing⟩ := run_of_bind second
    cases nothing
    obtain ⟨_, _, block, done⟩ := run_of_bind done
    obtain ⟨_, _, span, done⟩ := run_of_bind done
    cases done
    -- The statements that were replaced have numbers too, but no declaration reaches them.
    have body := (stmts.append (written.numbers second)).subperm
      (List.sublist_append_right _ _).subperm
    exact (body.kept (run_completeBlock block).2).kept (run_nextSpan span)

theorem Source.Expr.nodesOfList_initializers (fields : List Source.FieldDecl) :
    Source.Expr.nodesOfList (fields.filterMap (·.init)) =
      fields.flatMap fun field => Source.Expr.nodesOfOption field.init := by
  induction fields with
  | nil => rfl
  | cons field rest step =>
    rw [List.flatMap_cons, ← step]
    cases written : field.init with
    | none => rw [List.filterMap_cons_none written]; rfl
    | some init => rw [List.filterMap_cons_some written]; rfl

theorem Written.ClassText.numbers {start stop : NodeNumbering} {text : Written.ClassText}
    {decl : Source.ClassDecl} (done : text.number.run start = .ok (decl, stop)) :
    Numbers start stop (decl.nodes.map (·.id)) := by
  unfold number at done
  obtain ⟨_, _, span, done⟩ := run_of_bind done
  obtain ⟨fields, _, first, done⟩ := run_of_bind done
  obtain ⟨methods, _, second, done⟩ := run_of_bind done
  cases done
  have none := Numbers.none (run_nextSpan span)
  have fields := numbers_mapM (fun field => Source.Expr.nodesOfOption field.init)
    (fun _ _ _ _ done => Written.Field.numbers done) first
  have bodies := numbers_mapM (·.body.nodes)
    (fun _ _ _ _ done => Written.Method.numbers done) second
  have all := none.append (fields.both bodies)
  rw [← Source.Expr.nodesOfList_initializers] at all
  exact all

/-- **The trees of a numbered unit are a forest.** -/
theorem isForest_of_number {text : Written.UnitText} {unit : Source.SourceUnit}
    (done : text.number = .ok unit) : unit.IsForest := by
  obtain ⟨⟨classes, state⟩, first, done⟩ := ok_of_bind done
  cases done
  have all := numbers_mapM (·.nodes)
    (fun _ _ _ _ done => Written.ClassText.numbers done) first
  exact ⟨all.distinct, fun expr member => (all.between _ (List.mem_map_of_mem member)).2⟩

end ObjectLowering
