/-
**What the annotations of a unit say about each other.**

The walk of a unit sees locals come and go, but what it writes down about a call can be read off
what it wrote down about the receiver and the arguments: the finished annotations account for every
expression of the unit's own classes.

* `Annotations.receiverClass?`, `Annotations.target?`, `Annotations.callInfo?` read a call off
  finished annotations.
* `Annotations.Accounts` is what annotations owe to one expression, `Annotations.Describes` the part
  of it that does not depend on its children.
* `Source.Expr.walks_infer`, `Source.Stmt.walks_infer`: a walk accounts for all it passes.
* **`Annotations.accounts_ofUnit`**: the annotations of a unit account for its own expressions.
-/

import ObjectLowering.Proofs.Resolution.Walk

namespace ObjectLowering

open Inference
open Source (Expr IsNumbered)

/-- The method that a call means, with its entry. -/
def ClassTable.target? (table : ClassTable) (className : Option Name) (method : Name)
    (args : List (Option Ty)) : Option (MethodRef × MethodInfo) :=
  (className.bind fun className => table.resolveOverload className method args).bind fun target =>
    (table.method? target).map (target, ·)

namespace Annotations

/-- The class whose methods a call is looked up in: the enclosing one without a receiver, else the
one that the annotations of the receiver name. -/
def receiverClass? (notes : Annotations) (owner : Name) : Option Expr → Option Name
  | none => some owner
  | some receiver => receiverClass (notes.meaning? receiver.id) (notes.type? receiver.id)

/-- The method that a call means, from the annotations of its parts. -/
def target? (table : ClassTable) (notes : Annotations) (owner : Name) (receiver : Option Expr)
    (method : Name) (args : List Expr) : Option (MethodRef × MethodInfo) :=
  table.target? (notes.receiverClass? owner receiver) method (args.map (notes.type? ·.id))

/-- The target of a call and the way to it, from the annotations of its parts. -/
def callInfo? (table : ClassTable) (notes : Annotations) (owner : Name) (receiver : Option Expr)
    (method : Name) (args : List Expr) : Option CallInfo :=
  (notes.target? table owner receiver method args).map fun found =>
    ⟨found.1, .classify found.2.flags (receiver.any (·.isSuper))⟩

/-- A member access means a field, if it means anything. -/
def MeansField (notes : Annotations) (id : NodeId) : Prop :=
  ∀ meaning, notes.meaning? id = some meaning → ∃ field, meaning = .field field

/-- What the type and the meaning of an expression of a class are, whatever stands around it. -/
def Describes (table : ClassTable) (owner : Name) (notes : Annotations) : Expr → Prop
  | .this tag => notes.type? tag.id = some (.class owner) ∧ notes.meaning? tag.id = none
  | .super tag => notes.type? tag.id = (table.supertype? owner).map (.class ·) ∧
      notes.meaning? tag.id = none
  | .ident .. => True
  | .field tag _ _ => notes.MeansField tag.id
  | .newArray tag element dims extra =>
    notes.type? tag.id = some (element.arrayOf (dims.length + extra)) ∧
      notes.meaning? tag.id = none
  | expr => notes.meaning? expr.id = none

/-- What annotations owe to an expression of a class. Only a call has a target, the one that the
annotations of its parts lead to. -/
def Accounts (table : ClassTable) (owner : Name) (notes : Annotations) (expr : Expr) : Prop :=
  notes.Describes table owner expr ∧
    match expr with
    | .call tag receiver method args =>
      (∀ written, receiver = some written → notes.Describes table owner written) ∧
        notes.call? tag.id = notes.callInfo? table owner receiver method args
    | expr => notes.call? expr.id = none

/-- What annotations owe to several expressions of a class. -/
def AccountsFor (table : ClassTable) (owner : Name) (nodes : List Expr) (notes : Annotations) :
    Prop := ∀ node ∈ nodes, notes.Accounts table owner node

end Annotations

namespace Inference

variable {count : Nat} (place : Place) (root : Expr)

/-! ### The parts of a walk that look members up -/

theorem fills_none (type : Option Ty) :
    Fills count root [] (pure type) fun _ later =>
      later.MeansField root.id ∧ later.call? root.id = none := by
  refine (Fills.pure type).mono fun _ later known => ⟨fun meaning named => ?_, known.2.2⟩
  rw [known.2.1] at named
  cases named

theorem fills_fieldAccess (className name : Name) :
    Fills count root [] (fieldAccess place root.id className name) fun _ later =>
      later.MeansField root.id ∧ later.call? root.id = none := by
  unfold fieldAccess
  split
  · exact fills_none root none
  · rename_i field _
    refine (Fills.setMeaning (.field field) _).mono fun _ later known =>
      ⟨fun meaning named => ⟨field, ?_⟩, known.2.2⟩
    rw [known.2.1] at named
    exact (Option.some.inj named).symm

theorem fills_member (meaning : Option Meaning) (type : Option Ty) (name : Name) :
    Fills count root [] (member place root.id meaning type name) fun _ later =>
      later.MeansField root.id ∧ later.call? root.id = none := by
  unfold member
  split
  · exact fills_fieldAccess place root _ name
  · exact fills_none root _
  · exact fills_fieldAccess place root _ name
  · exact fills_none root none

theorem fills_identifier (name : Name) :
    Fills count root [] (identifier place root.id name) fun _ later =>
      later.call? root.id = none := by
  unfold identifier
  refine Fills.localInScope ?_
  intro type
  cases type with
  | some type => exact (Fills.setMeaning .localVar _).mono fun _ _ known => known.2.2
  | none =>
    show Fills count root []
      (if (place.table.lookupField place.owner name).isSome then
        fieldAccess place root.id place.owner name
      else if place.table.contains name then
        setMeaning root.id (.class name) >>= fun _ => pure none
      else pure none) _
    split
    · exact (fills_fieldAccess place root place.owner name).mono fun _ _ known => known.2
    · split
      · exact (Fills.setMeaning (.class name) none).mono fun _ _ known => known.2.2
      · exact (Fills.pure none).mono fun _ _ known => known.2.2

/-- A call is resolved with the class and the types that it is given. -/
theorem resolve_eq (place : Place) (id : NodeId) (className : Option Name) (viaSuper : Bool)
    (method : Name) (args : List (Option Ty)) :
    resolve place id className viaSuper method args =
      (place.table.target? className method args).elim (pure none) fun found =>
        setCall id ⟨found.1, .classify found.2.flags viaSuper⟩ >>= fun _ =>
          pure (some found.2.ret) := by
  unfold resolve ClassTable.target?
  dsimp only
  cases Option.bind (Option.bind className _) _ with
  | none => rfl
  | some found => rfl

theorem fills_resolve (className : Option Name) (viaSuper : Bool) (method : Name)
    (args : List (Option Ty)) :
    Fills count root [] (resolve place root.id className viaSuper method args) fun _ later =>
      later.meaning? root.id = none ∧
        later.call? root.id = (place.table.target? className method args).map fun found =>
          ⟨found.1, .classify found.2.flags viaSuper⟩ := by
  rw [resolve_eq]
  cases place.table.target? className method args with
  | none => exact (Fills.pure none).mono fun _ _ known => known.2
  | some found => exact (Fills.setCall _ (some found.2.ret)).mono fun _ _ known => known.2

end Inference

/-! ### Whole trees -/

section Trees

variable {count : Nat}

/-- What the walk of an expression learns: its type, and an account of all its parts. -/
def Annotations.Explains (place : Place) (expr : Expr) (type : Option Ty) (notes : Annotations) :
    Prop :=
  notes.type? expr.id = type ∧ notes.AccountsFor place.table place.owner expr.nodes

open Annotations (Explains AccountsFor)

theorem walks_root {place : Place} {root : Expr} {children : List Expr} {body : Step (Option Ty)}
    {learned : Option Ty → Annotations → Prop} (rooted : root.nodes = root :: children)
    (fills : Fills count root children body learned)
    (explains : ∀ type later, learned type later → later.type? root.id = type →
      later.Accounts place.table place.owner root ∧
        later.AccountsFor place.table place.owner children) :
    Walks count root.nodes (typed root.id body) (Explains place root) := by
  rw [rooted]
  refine (Walks.typed fills).mono fun type later known => ⟨known.1, fun node member => ?_⟩
  rw [rooted] at member
  obtain ⟨here, below⟩ := explains type later known.2 known.1
  rcases List.mem_cons.mp member with rfl | member
  · exact here
  · exact below node member

theorem Annotations.AccountsFor.append {table : ClassTable} {owner : Name} {notes : Annotations}
    {nodes others : List Expr} (first : notes.AccountsFor table owner nodes)
    (second : notes.AccountsFor table owner others) :
    notes.AccountsFor table owner (nodes ++ others) := fun node member =>
  (List.mem_append.mp member).elim (first node) (second node)

theorem Annotations.AccountsFor.none {table : ClassTable} {owner : Name} {notes : Annotations} :
    notes.AccountsFor table owner [] := fun _ member => nomatch member

theorem Source.Expr.mem_nodes (expr : Expr) : expr ∈ expr.nodes := by
  rw [Source.Expr.nodes.eq_def]
  exact List.mem_cons_self

/-- What the walk of several expressions learns: their types, and an account of all their parts. -/
def Annotations.ExplainsList (place : Place) (exprs : List Expr) (types : List (Option Ty))
    (notes : Annotations) : Prop :=
  types = exprs.map (notes.type? ·.id) ∧
    notes.AccountsFor place.table place.owner (Expr.nodesOfList exprs)

mutual

/-- **The walk of an expression accounts for all its parts.** -/
theorem Source.Expr.walks_infer (place : Place) : ∀ expr : Expr,
    Walks count expr.nodes (expr.infer place) (Explains place expr)
  | .int .. | .float .. | .bool .. | .char .. | .str .. | .null _ =>
    walks_root rfl (Fills.pure _) fun _ _ known _ => ⟨known.2, .none⟩
  | .this _ | .super _ =>
    walks_root rfl (Fills.pure _) fun _ _ known typed =>
      ⟨⟨⟨typed.trans known.1, known.2.1⟩, known.2.2⟩, .none⟩
  | .ident tag name =>
    walks_root rfl (fills_identifier place (.ident tag name) name) fun _ _ known _ =>
      ⟨⟨trivial, known⟩, .none⟩
  | .field tag receiver name => by
    have fills := Fills.bindMeaning (receiver.walks_infer place) receiver.mem_nodes
      fun type meaning => fills_member place (.field tag receiver name) meaning type name
    rw [List.append_nil] at fills
    refine walks_root rfl fills ?_
    intro _ later
    rintro ⟨_, below, here⟩ _
    exact ⟨here, below.2⟩
  | .call tag none method args => by
    have fills := Fills.last (Source.Expr.walks_inferList place args) fun types =>
      fills_resolve place (.call tag none method args) (some place.owner) false method types
    refine walks_root rfl fills ?_
    intro _ later
    rintro ⟨_, ⟨rfl, below⟩, unnamed, call⟩ _
    refine ⟨⟨unnamed, ?_, call⟩, below⟩
    rintro _ ⟨⟩
  | .call tag (some receiver) method args => by
    have fills := Fills.bindMeaning (receiver.walks_infer place) receiver.mem_nodes
      fun type meaning => Fills.last (Source.Expr.walks_inferList place args) fun types =>
        fills_resolve place (.call tag (some receiver) method args) (receiverClass meaning type)
          receiver.isSuper method types
    refine walks_root rfl fills ?_
    intro _ later
    rintro ⟨_, ⟨rfl, first⟩, _, ⟨rfl, second⟩, unnamed, call⟩ _
    refine ⟨⟨unnamed, ?_, call⟩, first.append second⟩
    rintro _ ⟨⟩
    exact (first _ receiver.mem_nodes).1
  | .chain _ _ args | .newObject _ _ args =>
    walks_root rfl (Fills.last (Source.Expr.walks_inferList place args) fun _ => Fills.pure _)
      fun _ later ⟨_, below, here⟩ _ => ⟨here.2, below.2⟩
  | .newArray _ _ dims _ => by
    refine walks_root rfl (Fills.last (Source.Expr.walks_inferList place dims) fun _ =>
      Fills.pure _) ?_
    intro _ later
    rintro ⟨_, ⟨rfl, below⟩, rfl, unnamed, none⟩ typed
    rw [List.length_map] at typed
    exact ⟨⟨⟨typed, unnamed⟩, none⟩, below⟩
  | .index _ left right | .assign _ left right | .binary _ _ left right =>
    walks_root rfl (Fills.bind (left.walks_infer place) fun _ =>
      Fills.last (right.walks_infer place) fun _ => Fills.pure _)
      fun _ later ⟨_, first, _, second, here⟩ _ => ⟨here.2, first.2.append second.2⟩
  | .unary _ _ operand | .cast _ _ operand | .instanceOf _ operand _ =>
    walks_root rfl (Fills.last (operand.walks_infer place) fun _ => Fills.pure _)
      fun _ later ⟨_, below, here⟩ _ => ⟨here.2, below.2⟩

theorem Source.Expr.walks_inferList (place : Place) : ∀ exprs : List Expr,
    Walks count (Expr.nodesOfList exprs) (Expr.inferList place exprs)
      (Annotations.ExplainsList place exprs)
  | [] => (Walks.pure []).mono fun _ _ none => ⟨none, .none⟩
  | expr :: rest => by
    have both := (expr.walks_infer place).bind fun type =>
      (Source.Expr.walks_inferList place rest).last fun types => Walks.pure (type :: types)
    refine both.mono ?_
    intro _ later
    rintro ⟨_, ⟨rfl, first⟩, _, ⟨rfl, second⟩, rfl⟩
    exact ⟨rfl, first.append second⟩

end

theorem Source.Expr.walks_inferOption (place : Place) (expr : Option Expr) :
    Walks count (Expr.nodesOfOption expr) (Expr.inferOption place expr) fun _ =>
      AccountsFor place.table place.owner (Expr.nodesOfOption expr) := by
  cases expr with
  | none => exact (Walks.pure ()).mono fun _ _ _ => .none
  | some expr => exact (Walks.discard (expr.walks_infer place)).mono fun _ _ ⟨_, known⟩ => known.2

theorem walks_both {table : ClassTable} {owner : Name} {nodes others : List Expr}
    {first second : Step Unit}
    (here : Walks count nodes first fun _ => AccountsFor table owner nodes)
    (there : Walks count others second fun _ => AccountsFor table owner others) :
    Walks count (nodes ++ others) (first >>= fun _ => second) fun _ =>
      AccountsFor table owner (nodes ++ others) :=
  (here.bind fun _ => there).mono fun _ _ ⟨_, known⟩ => known.1.append known.2

theorem walks_discard (place : Place) (expr : Expr) :
    Walks count expr.nodes (discard (expr.infer place)) fun _ =>
      AccountsFor place.table place.owner expr.nodes :=
  (Walks.discard (expr.walks_infer place)).mono fun _ _ ⟨_, known⟩ => known.2

mutual

/-- **The walk of a statement accounts for all its expressions.** -/
theorem Source.Stmt.walks_infer (place : Place) : ∀ stmt : Source.Stmt,
    Walks count stmt.nodes (stmt.infer place) fun _ =>
      AccountsFor place.table place.owner stmt.nodes
  | .eval _ expr => walks_discard place expr
  | .localVar _ type name init =>
    ((Source.Expr.walks_inferOption place init).last fun _ =>
      Walks.declare place name type).mono fun _ _ ⟨_, known⟩ => known.1
  | .block _ body => (Source.Stmt.walks_inferList place body).inFrame
  | .branch _ cond yes none | .whileLoop _ cond yes =>
    walks_both (walks_discard place cond) (yes.walks_infer place)
  | .branch _ cond yes (some no) => by
    have all := walks_both (walks_discard place cond)
      (walks_both (yes.walks_infer place) (no.walks_infer place))
    rw [← List.append_assoc] at all
    exact all
  | .forLoop _ init cond update body => by
    have step : Walks count (Expr.nodesOfList update) (discard (Expr.inferList place update))
        fun _ => AccountsFor place.table place.owner (Expr.nodesOfList update) :=
      (Walks.discard (Source.Expr.walks_inferList place update)).mono fun _ _ ⟨_, known⟩ => known.2
    have all := walks_both (Source.Stmt.walks_inferList place init)
      (walks_both (Source.Expr.walks_inferOption place cond)
        (walks_both step (body.walks_infer place)))
    rw [← List.append_assoc, ← List.append_assoc] at all
    exact all.inFrame
  | .ret _ value => Source.Expr.walks_inferOption place value

theorem Source.Stmt.walks_inferList (place : Place) : ∀ stmts : List Source.Stmt,
    Walks count (Source.Stmt.nodesOfList stmts) (Source.Stmt.inferList place stmts) fun _ =>
      AccountsFor place.table place.owner (Source.Stmt.nodesOfList stmts)
  | [] => (Walks.pure ()).mono fun _ _ _ => .none
  | stmt :: rest => walks_both (stmt.walks_infer place) (Source.Stmt.walks_inferList place rest)

end

end Trees

/-! ### Units -/

namespace Annotations

variable {count : Nat} (table : ClassTable)

theorem walks_initializer (owner : Name) (init : Expr) :
    Walks count init.nodes (initializer table owner init) fun _ =>
      AccountsFor table owner init.nodes :=
  ((Walks.setFrames []).bind fun _ => walks_discard ⟨table, owner, none⟩ init).mono
    fun _ _ ⟨_, known⟩ => known.2

theorem walks_methodBody (owner : Name) (method : Source.MethodDecl) (index : Nat) :
    Walks count method.body.nodes (methodBody table owner method index) fun _ =>
      AccountsFor table owner method.body.nodes := by
  have params : Walks count (method.params.flatMap fun _ => [])
      (method.params.forM fun param =>
        declare ⟨table, owner, some ⟨owner, index⟩⟩ param.name param.type) fun _ _ => _ :=
    Walks.forM fun param _ => Walks.declare _ param.name param.type
  have none : (method.params.flatMap fun _ => ([] : List Expr)) = [] :=
    List.flatMap_eq_nil_iff.mpr fun _ _ => rfl
  rw [none] at params
  have all := (Walks.setFrames [[]]).bind fun _ => params.bind fun _ =>
    method.body.walks_infer ⟨table, owner, some ⟨owner, index⟩⟩
  exact all.mono fun _ _ ⟨_, _, _, _, known⟩ => known

theorem walks_classBody (decl : Source.ClassDecl) :
    Walks count decl.nodes (classBody table decl) fun _ =>
      AccountsFor table decl.name decl.nodes := by
  have inits : Walks count (decl.initializers.flatMap (·.nodes)) _ _ :=
    Walks.forM fun init _ => walks_initializer table decl.name init
  have bodies : Walks count (decl.methods.zipIdx.flatMap (·.1.body.nodes)) _ _ :=
    Walks.forM fun method _ => walks_methodBody table decl.name method.1 method.2
  have each :
      decl.methods.zipIdx.flatMap (·.1.body.nodes) = decl.methods.flatMap (·.body.nodes) := by
    conv_rhs => rw [← List.zipIdx_map_fst 0 decl.methods, List.flatMap_map]
  rw [← Source.Expr.nodesOfList_eq_flatMap] at inits
  rw [each] at bodies
  refine (inits.bind fun _ => bodies).mono fun _ later => ?_
  rintro ⟨_, values, stmts⟩ node member
  rcases List.mem_append.mp member with inside | inside
  · rw [Source.Expr.nodesOfList_eq_flatMap] at inside
    obtain ⟨init, declared, inside⟩ := List.mem_flatMap.mp inside
    exact values init declared node inside
  · rw [← each] at inside
    obtain ⟨method, declared, inside⟩ := List.mem_flatMap.mp inside
    exact stmts method declared node inside

theorem walked_ofUnit {index : Nat} {unit : Source.SourceUnit} (forest : unit.IsForest) :
    Walked unit.exprCount ((unit.classes.filter (table.owns index ·.name)).flatMap (·.nodes))
      (empty unit.exprCount) (ofUnit table index unit) fun later =>
        ∀ decl ∈ unit.classes.filter (table.owns index ·.name),
          AccountsFor table decl.name decl.nodes later := by
  have walks : Walks unit.exprCount
      ((unit.classes.filter (table.owns index ·.name)).flatMap (·.nodes)) _ _ :=
    Walks.forM fun decl _ => walks_classBody table decl
  refine walks (forest.filter _) { notes := empty unit.exprCount } ?_ fun _ _ => ?_
  · exact ⟨NodeMap.bound_empty _, NodeMap.bound_empty _, NodeMap.bound_empty _⟩
  · exact ⟨NodeMap.get?_empty _ _, NodeMap.get?_empty _ _, NodeMap.get?_empty _ _⟩

/-- **The annotations of a unit account for the expressions of its own classes.** -/
theorem accounts_ofUnit {index : Nat} {unit : Source.SourceUnit} (forest : unit.IsForest)
    {decl : Source.ClassDecl} (declared : decl ∈ unit.classes)
    (owned : table.owns index decl.name = true) :
    AccountsFor table decl.name decl.nodes (ofUnit table index unit) :=
  (walked_ofUnit table forest).lasts _ (fun _ _ => .refl _ _) decl
    (List.mem_filter.mpr ⟨declared, owned⟩)

end Annotations

end ObjectLowering
