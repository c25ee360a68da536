/-
**Construction routines run the parent's routine once.**

A construction routine whose body hands the receiver on nowhere starts with the parent's routine on
the receiver, then assigns the values that the class gives to its own fields, then runs its body. A
body that hands the receiver on gets no such start: where its first statement is a `super(..)`, this
runs the parent's routine, and the values are not assigned.

* `Lowered.Stmt.inits` are the constructions that a lowered statement runs on the receiver.
* `Lowered.Stmt.inits_of_formed`: where every object is a new one, there are none.
* `Lowering.lowerConstruction_eq`: a construction routine is a start and a body behind it.
* `Lowering.PlainConstruction`, `Lowering.SuperConstruction`: the body of a routine, part by part.
* **`constructions_run_parent`**: every construction routine of a program runs the parent's once.
-/

import ObjectLowering.Proofs.Lowering.ArrayOperands
import ObjectLowering.Proofs.Lowering.LoweredClasses
import ObjectLowering.Proofs.Lowering.WholeClasses

namespace ObjectLowering

open Source (SourceUnit ClassDecl MethodDecl)

/-! ### Constructions that run on the receiver -/

/-- The class of a construction, if it runs on the receiver. -/
def Lowered.initOn (self className : Name) : List Lowered.Expr → List Name
  | .localVar _ name :: _ => if name = self then [className] else []
  | _ => []

mutual

/-- The classes whose construction routines an expression runs on the receiver, in the order of
evaluation. -/
def Lowered.Expr.inits (self : Name) : Lowered.Expr → List Name
  | .absent | .dangling => []
  | .int .. | .float .. | .bool .. | .char .. | .str .. | .null _ | .localVar .. => []
  | .staticField .. | .alloc .. | .identity .. => []
  | .field _ object _ => object.inits self
  | .length _ array => array.inits self
  | .index _ array position => array.inits self ++ position.inits self
  | .assign _ target value => target.inits self ++ value.inits self
  | .binary _ _ left right => left.inits self ++ right.inits self
  | .unary _ _ operand => operand.inits self
  | .cast _ _ operand => operand.inits self
  | .instanceOf _ operand _ => operand.inits self
  | .initCall _ className args =>
    Lowered.Expr.initsOfList self args ++ Lowered.initOn self className args
  | .virtualCall _ receiver _ args => receiver.inits self ++ Lowered.Expr.initsOfList self args
  | .directCall _ receiver _ args => receiver.inits self ++ Lowered.Expr.initsOfList self args
  | .unresolvedCall _ receiver _ args => receiver.inits self ++ Lowered.Expr.initsOfList self args
  | .qualifiedCall _ _ _ args => Lowered.Expr.initsOfList self args
  | .check _ _ args => Lowered.Expr.initsOfList self args
  | .arrayAlloc _ _ size => size.inits self
  | .print _ _ args => Lowered.Expr.initsOfList self args
  | .block _ body result => Lowered.Stmt.initsOfList self body ++ result.inits self

/-- The constructions of several expressions, one after the other. -/
def Lowered.Expr.initsOfList (self : Name) : List Lowered.Expr → List Name
  | [] => []
  | expr :: rest => expr.inits self ++ Lowered.Expr.initsOfList self rest

/-- The constructions that a statement runs on the receiver, a loop run once through. -/
def Lowered.Stmt.inits (self : Name) : Lowered.Stmt → List Name
  | .absent | .dangling => []
  | .eval expr => expr.inits self
  | .localVar _ _ init => init.inits self
  | .block body => Lowered.Stmt.initsOfList self body
  | .branch cond yes no => cond.inits self ++ yes.inits self ++ no.inits self
  | .whileLoop cond body => cond.inits self ++ body.inits self
  | .forLoop init cond update body =>
    Lowered.Stmt.initsOfList self init ++ cond.inits self ++ body.inits self ++
      Lowered.Expr.initsOfList self update
  | .ret value => value.inits self

/-- The constructions of several statements, one after the other. -/
def Lowered.Stmt.initsOfList (self : Name) : List Lowered.Stmt → List Name
  | [] => []
  | stmt :: rest => stmt.inits self ++ Lowered.Stmt.initsOfList self rest

end

namespace Lowered

variable {self : Name}

theorem Stmt.initsOfList_append (stmts others : List Stmt) :
    initsOfList self (stmts ++ others) = initsOfList self stmts ++ initsOfList self others := by
  induction stmts with
  | nil => rfl
  | cons stmt rest step => rw [List.cons_append, initsOfList, initsOfList, step, List.append_assoc]

/-- A construction that starts with a new object does not run on the receiver. -/
theorem initOn_of_startsWithObject {className : Name} {args : List Expr}
    (starts : StartsWithObject false args) : initOn self className args = [] := by
  cases args with
  | nil => rfl
  | cons first rest =>
    cases first with
    | localVar _ _ => exact absurd starts Bool.false_ne_true
    | _ => rfl

mutual

/-- **Where every object that is constructed is a new one, nothing is constructed on the
receiver.** -/
theorem Expr.inits_of_formed : ∀ expr : Expr, expr.Formed false → expr.inits self = []
  | .absent, _ | .dangling, _ | .int .., _ | .float .., _ | .bool .., _ | .char .., _ => rfl
  | .str .., _ | .null _, _ | .localVar .., _ | .staticField .., _ | .alloc .., _ => rfl
  | .identity .., _ => rfl
  | .field _ only _, formed | .length _ only, formed | .unary _ _ only, formed =>
    only.inits_of_formed formed
  | .cast _ _ only, formed | .instanceOf _ only _, formed | .arrayAlloc _ _ only, formed =>
    only.inits_of_formed formed
  | .index _ first second, formed | .assign _ first second, formed
  | .binary _ _ first second, formed => by
    rw [Expr.inits, first.inits_of_formed formed.1, second.inits_of_formed formed.2]
    rfl
  | .initCall _ className args, formed => by
    rw [Expr.inits, Expr.initsOfList_of_formed args formed.2, initOn_of_startsWithObject formed.1]
    rfl
  | .virtualCall _ receiver _ args, formed | .directCall _ receiver _ args, formed => by
    rw [Expr.inits, receiver.inits_of_formed formed.1, Expr.initsOfList_of_formed args formed.2.2]
    rfl
  | .unresolvedCall _ receiver _ args, formed => by
    rw [Expr.inits, Expr.initsOfList_of_formed args formed.2, List.append_nil]
    rcases formed.1 with rfl | whole
    · rfl
    · exact receiver.inits_of_formed whole
  | .qualifiedCall _ _ _ args, formed | .print _ _ args, formed =>
    Expr.initsOfList_of_formed args formed
  | .check _ _ args, formed => Expr.initsOfList_of_formed args formed.2
  | .block _ body result, formed => by
    rw [Expr.inits, Stmt.initsOfList_of_formed body formed.1, result.inits_of_formed formed.2]
    rfl

theorem Expr.initsOfList_of_formed : ∀ exprs : List Expr,
    Expr.AllFormed false exprs → Expr.initsOfList self exprs = []
  | [], _ => rfl
  | expr :: rest, formed => by
    rw [Expr.initsOfList, expr.inits_of_formed formed.1, Expr.initsOfList_of_formed rest formed.2]
    rfl

theorem Stmt.inits_of_formed : ∀ stmt : Stmt, stmt.Formed false → stmt.inits self = []
  | .absent, _ | .dangling, _ => rfl
  | .eval expr, formed => expr.inits_of_formed formed
  | .localVar _ _ value, formed | .ret value, formed => by
    rcases formed with rfl | whole
    · rfl
    · exact value.inits_of_formed whole
  | .block body, formed => Stmt.initsOfList_of_formed body formed
  | .branch cond yes no, formed => by
    rw [Stmt.inits, cond.inits_of_formed formed.1, yes.inits_of_formed formed.2.1]
    rcases formed.2.2 with rfl | whole
    · rfl
    · exact no.inits_of_formed whole
  | .whileLoop cond body, formed => by
    rw [Stmt.inits, cond.inits_of_formed formed.1, body.inits_of_formed formed.2]
    rfl
  | .forLoop init cond update body, formed => by
    obtain ⟨first, second, third, fourth⟩ := formed
    have empty : cond.inits self = [] := by
      rcases second with rfl | whole
      · rfl
      · exact cond.inits_of_formed whole
    rw [Stmt.inits, Stmt.initsOfList_of_formed init first, empty, body.inits_of_formed fourth,
      Expr.initsOfList_of_formed update third]
    rfl

theorem Stmt.initsOfList_of_formed : ∀ stmts : List Stmt,
    Stmt.AllFormed false stmts → Stmt.initsOfList self stmts = []
  | [], _ => rfl
  | stmt :: rest, formed => by
    rw [Stmt.initsOfList, stmt.inits_of_formed formed.1, Stmt.initsOfList_of_formed rest formed.2]
    rfl

end

end Lowered

/-! ### Bodies that hand the receiver on nowhere -/

/-- None of the expressions hands the receiver on. -/
abbrev Source.ChainFree (nodes : List Source.Expr) : Prop := ∀ node ∈ nodes, node.isChain = false

namespace Lowering

variable {context : Context} {routine : Routine} {self : Name}

theorem admits_of_chainFree {nodes : List Source.Expr} (free : Source.ChainFree nodes) :
    AdmitsAll context (fun _ => True) false nodes := by
  refine fun node member => ⟨fun _ _ => trivial, fun isChain => ?_⟩
  rw [free node member] at isChain
  exact isChain

theorem inits_of_value {expr : Source.Expr} (free : Source.ChainFree expr.nodes)
    {lowered : Lowered.Expr} (given : Gives (expr.lower context routine) lowered) :
    lowered.inits self = [] := by
  obtain ⟨start, stop, done⟩ := given
  have formed := (expr.forms_lower routine (admits_of_chainFree free)).ensures start _ stop done
  exact lowered.inits_of_formed formed

theorem inits_of_stmt {stmt : Source.Stmt} (free : Source.ChainFree stmt.nodes)
    {lowered : Lowered.Stmt} (given : Gives (stmt.lower context routine) lowered) :
    lowered.inits self = [] := by
  obtain ⟨start, stop, done⟩ := given
  have formed := (stmt.forms_lower routine (admits_of_chainFree free)).ensures start _ stop done
  exact lowered.inits_of_formed formed

/-- The statements are the lowerings of source statements, one by one. -/
abbrev LowersEach (context : Context) (routine : Routine) (stmts : List Source.Stmt)
    (lowered : List Lowered.Stmt) : Prop :=
  List.Forall₂ (fun stmt result => Gives (stmt.lower context routine) result) stmts lowered

/-- **Lowering statements that hand the receiver on nowhere constructs nothing on it.** -/
theorem initsOfList_of_lowersEach {stmts : List Source.Stmt} {lowered : List Lowered.Stmt}
    (each : LowersEach context routine stmts lowered)
    (free : Source.ChainFree (Source.Stmt.nodesOfList stmts)) :
    Lowered.Stmt.initsOfList self lowered = [] := by
  induction each with
  | nil => rfl
  | cons here _ step =>
    rw [Source.Stmt.nodesOfList, Source.ChainFree, List.forall_mem_append] at free
    rw [Lowered.Stmt.initsOfList, inits_of_stmt free.1 here, step free.2]
    rfl

/-! ### The parts of a construction routine -/

/-- The class whose routine constructs the part of an object that its parent declares. -/
def parentOf (context : Context) (className : Name) : Name :=
  (context.facade.supertype className).getD Reserved.object

/-- The statement assigns the value of a field, lowered, to the receiver's field. -/
def AssignsField (context : Context) (routine : Routine) (span : Span)
    (field : Name × Source.Expr) (stmt : Lowered.Stmt) : Prop :=
  ∃ value, Gives (field.2.lower context routine) value ∧
    stmt = .eval (.assign span (.field span (selfExpr context span) field.1) value)

/-- The body returns the receiver at its end, if not before. -/
def ReturnsReceiver (context : Context) (span : Span) (final : List Lowered.Stmt) : Prop :=
  final = [] ∨ final = [.ret (selfExpr context span)]

/-- A body that runs the parent's routine, then assigns each value that the class gives to a field
of its own, in the order of the chain, then runs its statements. Among the constructions on the
receiver the parent's is the one that is not part of a value. -/
structure PlainConstruction (context : Context) (routine : Routine) (span : Span)
    (chain : List (Initializer Source.Expr)) (stmts : List Source.Stmt) (body : Lowered.Stmt)
    (assigns user final : List Lowered.Stmt) : Prop where
  shape : body = .block (.eval (.initCall span (parentOf context routine.className)
    [selfExpr context span]) :: (assigns ++ (user ++ final)))
  assigned : List.Forall₂ (AssignsField context routine span)
    (ownValues routine.className chain) assigns
  kept : LowersEach context routine stmts user
  returns : ReturnsReceiver context span final
  inits : body.inits context.options.selfParam = parentOf context routine.className ::
    Lowered.Stmt.initsOfList context.options.selfParam assigns
  once : (∀ field ∈ ownValues routine.className chain, Source.ChainFree field.2.nodes) →
    body.inits context.options.selfParam = [parentOf context routine.className]

/-- A body that runs the parent's routine with arguments of its own, then its other statements. -/
structure SuperConstruction (context : Context) (routine : Routine) (span : Span)
    (tag : Source.Tag) (args : List Source.Expr) (rest : List Source.Stmt) (body : Lowered.Stmt)
    (values : List Lowered.Expr) (user final : List Lowered.Stmt) : Prop where
  shape : body = .block (.eval (.initCall tag.span (parentOf context routine.className)
    (selfExpr context tag.span :: values)) :: (user ++ final))
  passed : List.Forall₂ (fun arg value => Gives (arg.lower context routine) value) args values
  kept : LowersEach context routine rest user
  returns : ReturnsReceiver context span final
  once : body.inits context.options.selfParam = [parentOf context routine.className]

/-! ### Bodies -/

variable {span : Span}

theorem ensures_assignField (field : Name × Source.Expr) :
    Ensures (assignField context routine span field) (AssignsField context routine span field) :=
  (ensures_gives _).bind fun value given => .pure ⟨value, given, rfl⟩

/-- Steps of one kind ensure of their results what each ensures of its own. -/
theorem ensures_runMap {α ι : Type} {items : List ι} {step : ι → LowerM α}
    {property : ι → α → Prop} (each : ∀ item, Ensures (step item) (property item)) :
    Ensures (runEach (items.map step)) (List.Forall₂ property items) :=
  .runEach (List.forall₂_map_left_iff.mpr (List.forall₂_same.mpr fun item _ => each item))

/-- How a construction routine starts: with nothing if its body hands the receiver on. -/
inductive Begins (context : Context) (routine : Routine) (span : Span) : List Lowered.Stmt → Prop
  | chained (handedOn : routine.chained = true) : Begins context routine span []
  | prologue (kept : routine.chained = false) {chain : List (Initializer Source.Expr)}
      {assigns : List Lowered.Stmt}
      (resolved : context.facts.chains.instance? routine.className = some chain)
      (assigned : List.Forall₂ (AssignsField context routine span)
        (ownValues routine.className chain) assigns) :
      Begins context routine span (.eval (.initCall span (parentOf context routine.className)
        [selfExpr context span]) :: assigns)

theorem ensures_prologue (kept : routine.chained = false) :
    Ensures (prologue context routine span) (Begins context routine span) := by
  unfold prologue
  dsimp only
  cases resolved : context.facts.chains.instance? routine.className with
  | none => exact .fail
  | some chain =>
    exact (ensures_runMap ensures_assignField).bind fun assigns assigned =>
      .pure (.prologue kept resolved assigned)

/-- The statements of a routine's body behind its start, and what it ends with. -/
structure Continues (context : Context) (routine : Routine) (span : Span)
    (stmts : List Source.Stmt) (start : List Lowered.Stmt) (body : Lowered.Stmt)
    (user final : List Lowered.Stmt) : Prop where
  shape : body = .block (start ++ user ++ final)
  kept : LowersEach context routine stmts user
  returns : ReturnsReceiver context span final

theorem ensures_lowerBody (constructs : routine.mode = .constructor) (start : List Lowered.Stmt)
    (source : Option Source.Stmt) :
    Ensures (lowerBody context routine span start source) fun body =>
      ∃ user final, Continues context routine span (bodyStmts source) start body user final := by
  refine (ensures_runMap fun stmt => ensures_gives _).bind fun user kept => ?_
  refine .after fun _ => .pure ⟨user, _, rfl, kept, ?_⟩
  unfold finalReturn
  rw [constructs]
  split
  · exact .inr rfl
  · exact .inl rfl

/-! ### Routines -/

/-- The statements that a construction routine is made from; none for one that has no source. -/
def stmtsOf (source : Option (MethodDecl × Nat)) : List Source.Stmt :=
  bodyStmts (source.map (·.1.body))

/-- What a construction routine is lowered as. -/
def routineOf (decl : ClassDecl) : Option (MethodDecl × Nat) → Routine
  | none => ⟨decl.name, none, .constructor, false⟩
  | some (method, index) =>
    ⟨decl.name, some ⟨decl.name, index⟩, .constructor, method.body.chainsConstructor⟩

def spanOf (decl : ClassDecl) (source : Option (MethodDecl × Nat)) : Span :=
  (source.map (·.1.span)).getD decl.span

variable {decl : ClassDecl} {source : Option (MethodDecl × Nat)}

/-- A routine is one that hands the receiver on if some expression of its statements does. -/
theorem chained_routineOf : (routineOf decl source).chained =
    (Source.Stmt.nodesOfList (stmtsOf source)).any (·.isChain) := by
  cases source with
  | none => rfl
  | some method => exact congrArg (List.any · _) (nodesOfList_bodyStmts method.1.body).symm

theorem className_routineOf : (routineOf decl source).className = decl.name := by
  cases source <;> rfl

theorem mode_routineOf (source : Option (MethodDecl × Nat)) :
    (routineOf decl source).mode = .constructor := by
  cases source <;> rfl

/-- What stands in front of the body of a construction routine. -/
def startOf (context : Context) (decl : ClassDecl) (source : Option (MethodDecl × Nat)) :
    LowerM (List Lowered.Stmt) :=
  if (routineOf decl source).chained then pure []
  else prologue context (routineOf decl source) (spanOf decl source)

/-- The parameters of the constructor that a construction routine is made from. -/
def givenParams (source : Option (MethodDecl × Nat)) : List Source.Param :=
  (source.map (·.1.params)).getD []

/-- A construction routine with its body. -/
def constructionWith (context : Context) (decl : ClassDecl) (source : Option (MethodDecl × Nat))
    (body : Lowered.Stmt) : Lowered.Method Lowered.Stmt where
  name := Reserved.init
  source := (source.map (·.1.name)).getD decl.name
  owner := decl.name
  kind := .init
  params := receiverParam context decl.name :: givenParams source
  ret := .class decl.name
  body
  synthesized := source.isNone

/-- A construction routine is lowered alike with a source and without one. -/
theorem lowerConstruction_eq (context : Context) (decl : ClassDecl)
    (source : Option (MethodDecl × Nat)) :
    lowerConstruction context decl source = (do
      let start ← startOf context decl source
      let body ← lowerBody context (routineOf decl source) (spanOf decl source) start
        (source.map (·.1.body))
      return constructionWith context decl source body) := by
  cases source with
  | none => rfl
  | some method =>
    obtain ⟨method, index⟩ := method
    have chains : (routineOf decl (some (method, index))).chained =
        method.body.chainsConstructor := rfl
    unfold lowerConstruction lowerConstructor startOf
    dsimp only
    rw [chains]
    split <;> rfl

theorem ensures_startOf : Ensures (startOf context decl source)
    (Begins context (routineOf decl source) (spanOf decl source)) := by
  unfold startOf
  split
  · rename_i handedOn
    exact .pure (.chained handedOn)
  · rename_i kept
    exact ensures_prologue (Bool.not_eq_true _ ▸ kept)

/-- **A construction routine is a start and the statements of its source behind it.** -/
theorem ensures_lowerConstruction :
    Ensures (lowerConstruction context decl source) fun result => result.kind = .init ∧
      ∃ start user final, Begins context (routineOf decl source) (spanOf decl source) start ∧
        Continues context (routineOf decl source) (spanOf decl source) (stmtsOf source) start
          result.body user final := by
  rw [lowerConstruction_eq]
  refine ensures_startOf.bind fun start begins => ?_
  refine (ensures_lowerBody (mode_routineOf source) start _).bind fun body continues => .pure ?_
  obtain ⟨user, final, continues⟩ := continues
  exact ⟨rfl, start, user, final, begins, continues⟩

/-- A `super(..)` runs the parent's routine on the receiver, with its own arguments. -/
theorem ensures_superCall (place : Span) (tag : Source.Tag) (args : List Source.Expr) :
    Ensures ((Source.Stmt.eval place (.chain tag .super args)).lower context routine) fun stmt =>
      ∃ values, stmt = .eval (.initCall tag.span (parentOf context routine.className)
          (selfExpr context tag.span :: values)) ∧
        List.Forall₂ (fun arg value => Gives (arg.lower context routine) value) args values := by
  have given : Ensures (runEach (Source.Expr.lowerEach context routine args))
      (List.Forall₂ (fun arg value => Gives (arg.lower context routine) value) args) := by
    rw [Source.Expr.lowerEach_eq_map]
    exact ensures_runMap fun arg => ensures_gives _
  have passed : Ensures (receiverArgs context tag.span .self
      (Source.Expr.lowerEach context routine args)) fun all => ∃ values,
        all = selfExpr context tag.span :: values ∧
          List.Forall₂ (fun arg value => Gives (arg.lower context routine) value) args values := by
    have ran : Ensures (runEach (pure (selfExpr context tag.span) ::
        Source.Expr.lowerEach context routine args)) fun all => ∃ values,
          all = selfExpr context tag.span :: values ∧
            List.Forall₂ (fun arg value => Gives (arg.lower context routine) value) args values :=
      given.bind fun values known => .pure ⟨values, rfl, known⟩
    exact ran.bind fun _ known => .after fun _ => .pure known
  intro start stmt stop done
  obtain ⟨expr, _, called, done⟩ := run_of_bind done
  cases done
  obtain ⟨all, _, ran, called⟩ := run_of_bind called
  cases called
  obtain ⟨values, rfl, known⟩ := passed _ _ _ ran
  exact ⟨values, rfl, known⟩

/-! ### What a routine runs on the receiver -/

theorem inits_of_returnsReceiver {final : List Lowered.Stmt}
    (returns : ReturnsReceiver context span final) : Lowered.Stmt.initsOfList self final = [] := by
  rcases returns with rfl | rfl <;> rfl

/-- The values that are assigned construct nothing on the receiver if they do not hand it on. -/
theorem initsOfList_of_assigned {fields : List (Name × Source.Expr)} {assigns : List Lowered.Stmt}
    (assigned : List.Forall₂ (AssignsField context routine span) fields assigns)
    (free : ∀ field ∈ fields, Source.ChainFree field.2.nodes) :
    Lowered.Stmt.initsOfList self assigns = [] := by
  induction assigned with
  | nil => rfl
  | cons here _ step =>
    obtain ⟨value, given, rfl⟩ := here
    rw [List.forall_mem_cons] at free
    have none : value.inits self = [] := inits_of_value free.1 given
    rw [Lowered.Stmt.initsOfList, step free.2, List.append_nil]
    exact none

/-- The construction of the parent on the receiver, and what comes behind it. -/
theorem initsOfList_parent (args : List Lowered.Expr) (behind : List Lowered.Stmt)
    (className : Name) :
    Lowered.Stmt.initsOfList context.options.selfParam
        (.eval (.initCall span className (selfExpr context span :: args)) :: behind) =
      Lowered.Expr.initsOfList context.options.selfParam args ++ className ::
        Lowered.Stmt.initsOfList context.options.selfParam behind := by
  have receiver : Lowered.initOn context.options.selfParam className
      (selfExpr context span :: args) = [className] := if_pos rfl
  rw [Lowered.Stmt.initsOfList, Lowered.Stmt.inits, Lowered.Expr.inits, receiver,
    Lowered.Expr.initsOfList, List.append_assoc, List.append_assoc]
  rfl

/-- **A routine that hands the receiver on nowhere is plain.** -/
theorem plain_of_begins {stmts : List Source.Stmt} {start user final : List Lowered.Stmt}
    {body : Lowered.Stmt} {chain : List (Initializer Source.Expr)}
    (resolved : context.facts.chains.instance? routine.className = some chain)
    (begins : Begins context routine span start) (kept : routine.chained = false)
    (continues : Continues context routine span stmts start body user final)
    (free : Source.ChainFree (Source.Stmt.nodesOfList stmts)) :
    ∃ assigns, PlainConstruction context routine span chain stmts body assigns user final := by
  cases begins with
  | chained handedOn => exact absurd handedOn (Bool.eq_false_iff.mp kept)
  | @prologue _ other assigns found assigned =>
    cases resolved.symm.trans found
    have shape : body = .block (.eval (.initCall span (parentOf context routine.className)
        [selfExpr context span]) :: (assigns ++ (user ++ final))) := by
      rw [continues.shape, List.append_assoc]
      rfl
    have inits : body.inits context.options.selfParam = parentOf context routine.className ::
        Lowered.Stmt.initsOfList context.options.selfParam assigns := by
      rw [shape, Lowered.Stmt.inits, initsOfList_parent, Lowered.Stmt.initsOfList_append,
        Lowered.Stmt.initsOfList_append, initsOfList_of_lowersEach continues.kept free,
        inits_of_returnsReceiver continues.returns, List.append_nil, List.append_nil]
      rfl
    refine ⟨assigns, shape, assigned, continues.kept, continues.returns, inits, fun apart => ?_⟩
    rw [inits, initsOfList_of_assigned assigned apart]

theorem initsOfList_of_passed {args : List Source.Expr} {values : List Lowered.Expr}
    (passed : List.Forall₂ (fun arg value => Gives (arg.lower context routine) value) args values)
    (free : Source.ChainFree (Source.Expr.nodesOfList args)) :
    Lowered.Expr.initsOfList self values = [] := by
  induction passed with
  | nil => rfl
  | cons here _ step =>
    rw [Source.Expr.nodesOfList, Source.ChainFree, List.forall_mem_append] at free
    rw [Lowered.Expr.initsOfList, inits_of_value free.1 here, step free.2]
    rfl

/-- **A routine that hands the receiver to its parent first does nothing else with it.** -/
theorem super_of_begins {place : Span} {tag : Source.Tag} {args : List Source.Expr}
    {rest : List Source.Stmt} {start user final : List Lowered.Stmt} {body : Lowered.Stmt}
    (begins : Begins context routine span start) (handedOn : routine.chained = true)
    (continues : Continues context routine span (.eval place (.chain tag .super args) :: rest)
      start body user final)
    (passes : Source.ChainFree (Source.Expr.nodesOfList args))
    (free : Source.ChainFree (Source.Stmt.nodesOfList rest)) :
    ∃ values others,
      SuperConstruction context routine span tag args rest body values others final := by
  cases begins with
  | prologue kept _ _ => exact absurd handedOn (Bool.eq_false_iff.mp kept)
  | chained _ =>
    obtain ⟨shape, all, returns⟩ := continues
    obtain ⟨first, others, here, kept, rfl⟩ := List.forall₂_cons_left_iff.mp all
    obtain ⟨before, after, done⟩ := here
    obtain ⟨values, rfl, passed⟩ := ensures_superCall place tag args before _ after done
    refine ⟨values, others, shape, passed, kept, returns, ?_⟩
    rw [shape, Lowered.Stmt.inits, List.nil_append, List.cons_append, initsOfList_parent,
      initsOfList_of_passed passed passes, Lowered.Stmt.initsOfList_append,
      initsOfList_of_lowersEach kept free, inits_of_returnsReceiver returns]
    rfl

/-- What the construction routine made from a source does with the receiver, unless the source hands
it on otherwise than by a `super(..)` in front. -/
structure Constructs (context : Context) (decl : ClassDecl)
    (chain : List (Initializer Source.Expr)) (source : Option (MethodDecl × Nat))
    (result : Lowered.Method Lowered.Stmt) : Prop where
  isInit : result.kind = .init
  plain : Source.ChainFree (Source.Stmt.nodesOfList (stmtsOf source)) →
    ∃ assigns user final, PlainConstruction context (routineOf decl source) (spanOf decl source)
      chain (stmtsOf source) result.body assigns user final
  super : ∀ place tag args rest, stmtsOf source = .eval place (.chain tag .super args) :: rest →
    Source.ChainFree (Source.Expr.nodesOfList args) →
    Source.ChainFree (Source.Stmt.nodesOfList rest) →
    ∃ values user final, SuperConstruction context (routineOf decl source) (spanOf decl source)
      tag args rest result.body values user final

theorem constructs_of_lowerConstruction {chain : List (Initializer Source.Expr)}
    (resolved : context.facts.chains.instance? decl.name = some chain)
    {result : Lowered.Method Lowered.Stmt}
    (done : inRoutine (lowerConstruction context decl source) = .ok result) :
    Constructs context decl chain source result := by
  obtain ⟨isInit, start, user, final, begins, continues⟩ :=
    ensures_lowerConstruction.of_inRoutine done
  refine ⟨isInit, fun free => ?_, fun place tag args rest written passes free => ?_⟩
  · have kept : (routineOf decl source).chained = false := by
      rw [chained_routineOf, List.any_eq_false]
      exact fun node member => Bool.eq_false_iff.mp (free node member)
    obtain ⟨assigns, plain⟩ :=
      plain_of_begins (className_routineOf ▸ resolved) begins kept continues free
    exact ⟨assigns, user, final, plain⟩
  · have handedOn : (routineOf decl source).chained = true := by
      rw [chained_routineOf, written]
      rfl
    rw [written] at continues
    obtain ⟨values, others, handed⟩ := super_of_begins begins handedOn continues passes free
    exact ⟨values, others, final, handed⟩

end Lowering

open Lowering

/-- **Every construction routine runs the parent's routine once.** A plain one then assigns the
values of the class's own fields, each once, in the order of the chain. -/
theorem constructions_run_parent {units : List SourceUnit} {facts : Facts}
    {options : LoweringOptions} {lowered : List Lowered.TreeUnit}
    (done : (Program.ofUnits units).lower facts options = .ok lowered) :
    List.Forall₂ (fun (place : PlacedClass) layout => layout.name = place.decl.name ∧
        ∃ chain, facts.chains.instance? place.decl.name = some chain ∧
          List.Forall₂
            (Constructs (Program.contextAt units facts options place.index place.unit) place.decl
              chain)
            (constructions place.decl) layout.inits)
      (Program.placed units) (lowered.flatMap (·.classes)) := by
  refine (Program.ok_of_lower done).imp fun place layout built => ?_
  obtain ⟨named, ⟨chain, resolved, _⟩, _, _, inits, _⟩ := lays_of_lowerClass built
  exact ⟨named, chain, resolved,
    inits.imp fun _ _ made => constructs_of_lowerConstruction resolved made⟩

/-- A constructor that does nothing but call `super()`. -/
def Source.MethodDecl.callsSuper : MethodDecl where
  name := "Point"
  params := []
  ret := .void
  modifiers := {}
  span := ⟨6, 7⟩
  body := .block ⟨5, 6⟩ [.eval ⟨4, 5⟩ (.chain ⟨1, 3, 4⟩ .super [])]

/-- A constructor that does nothing. -/
def Source.MethodDecl.plain : MethodDecl where
  name := "Point"
  params := [⟨.int, "a"⟩]
  ret := .void
  modifiers := {}
  span := ⟨8, 9⟩
  body := .block ⟨7, 8⟩ []

/-- A class with both constructors, whose field has a value. -/
def Source.ClassDecl.point : ClassDecl where
  name := "Point"
  parent := none
  span := ⟨0, 1⟩
  fields := [
    { name := "x", type := .int, init := some (.int ⟨0, 1, 2⟩ 7), modifiers := {}
      span := ⟨2, 3⟩ }]
  methods := [.callsSuper, .plain]

/-- A class that calls `super()` where its field gets its value. -/
def Source.ClassDecl.nested : ClassDecl where
  name := "Nested"
  parent := none
  span := ⟨9, 10⟩
  fields := [
    { name := "y", type := .int, init := some (.chain ⟨2, 10, 11⟩ .super []), modifiers := {}
      span := ⟨11, 12⟩ }]
  methods := []

def Source.SourceUnit.point : SourceUnit where
  path := "Point"
  package := []
  imports := []
  classes := [.point, .nested]
  nodes := #[.int ⟨0, 1, 2⟩ 7, .chain ⟨1, 3, 4⟩ .super [], .chain ⟨2, 10, 11⟩ .super []]
  stmtCount := 3

theorem Program.placed_point :
    placed [.point] = [⟨0, .point, .point⟩, ⟨0, .point, .nested⟩] := rfl

theorem Lowering.constructions_point :
    constructions .point = [some (.callsSuper, 0), some (.plain, 1)] := rfl

/-- The routine without a `super()` runs that of the root class first, the other does so once. -/
theorem constructions_run_parent_point :
    ∃ facts lowered layout calls plain,
      (Program.ofUnits [.point]).facts ⟨["Point", "Nested"]⟩ {} = .ok facts ∧
      (Program.ofUnits [.point]).lower facts {} = .ok lowered ∧
      (lowered.flatMap (·.classes)).head? = some layout ∧ layout.inits = [calls, plain] ∧
      calls.body.inits "__this" = ["Object"] ∧
      (plain.body.inits "__this").head? = some "Object" := by
  obtain ⟨facts, lowered, computed, done⟩ :=
    Program.exists_lowered [.point] ⟨["Point", "Nested"]⟩ {} (by decide +kernel)
  have each := constructions_run_parent done
  rw [Program.placed_point] at each
  obtain ⟨layout, others, ⟨_, chain, _, routines⟩, _, classes⟩ :=
    List.forall₂_cons_left_iff.mp each
  dsimp only at routines
  rw [constructions_point] at routines
  obtain ⟨calls, _, madeCalls, second, inits⟩ := List.forall₂_cons_left_iff.mp routines
  obtain ⟨plain, _, madePlain, none, rfl⟩ := List.forall₂_cons_left_iff.mp second
  obtain rfl := List.forall₂_nil_left_iff.mp none
  obtain ⟨_, _, _, handed⟩ := madeCalls.super _ _ _ _ rfl (by decide) (by decide)
  obtain ⟨_, _, _, started⟩ := madePlain.plain (by decide)
  have parent : parentOf (Program.contextAt [.point] facts {} 0 .point) "Point" = "Object" := rfl
  refine ⟨facts, lowered, layout, calls, plain, computed, done, ?_, inits, ?_, ?_⟩
  · rw [classes]
    rfl
  · exact handed.once.trans (congrArg (fun name => [name]) parent)
  · rw [show plain.body.inits "__this" = _ from started.inits]
    exact congrArg some parent

/-- The constructor that calls `super()` leaves the field without the value that the class gives
it; a value that calls `super()` itself runs the parent's routine again. -/
theorem super_skips_values_point :
    ∃ facts lowered point nested,
      (Program.ofUnits [.point]).facts ⟨["Point", "Nested"]⟩ {} = .ok facts ∧
      (Program.ofUnits [.point]).lower facts {} = .ok lowered ∧
      lowered.flatMap (·.classes) = [point, nested] ∧
      (facts.chains.instance? "Point").map (ownValues "Point") = some [("x", .int ⟨0, 1, 2⟩ 7)] ∧
      (point.inits.map (·.body)).head? = some (.block [
        .eval (.initCall ⟨3, 4⟩ "Object" [.localVar ⟨3, 4⟩ "__this"]),
        .ret (.localVar ⟨6, 7⟩ "__this")]) ∧
      nested.inits.map (·.body.inits "__this") = [["Object", "Object"]] := by
  obtain ⟨facts, lowered, computed, done⟩ :=
    Program.exists_lowered [.point] ⟨["Point", "Nested"]⟩ {} (by decide +kernel)
  have chains : ((Program.ofUnits [.point]).facts ⟨["Point", "Nested"]⟩ {}).toOption.map
      (fun facts => (facts.chains.instance? "Point", facts.chains.instance? "Nested")) =
      some (some [⟨"x", .int, "Point", some (.int ⟨0, 1, 2⟩ 7), false⟩],
        some [⟨"y", .int, "Nested", some (.chain ⟨2, 10, 11⟩ .super []), false⟩]) := rfl
  rw [computed] at chains
  obtain ⟨first, second⟩ := Prod.mk.inj (Option.some.inj chains)
  have each := Program.ok_of_lower done
  rw [Program.placed_point] at each
  obtain ⟨point, _, builtPoint, behind, classes⟩ := List.forall₂_cons_left_iff.mp each
  obtain ⟨nested, _, builtNested, none, rfl⟩ := List.forall₂_cons_left_iff.mp behind
  obtain rfl := List.forall₂_nil_left_iff.mp none
  refine ⟨facts, lowered, point, nested, computed, done, classes, ?_, ?_, ?_⟩
  · rw [first]
    rfl
  · have routines := (lays_of_lowerClass builtPoint).inits
    dsimp only at routines
    rw [constructions_point] at routines
    obtain ⟨calls, _, made, _, inits⟩ := List.forall₂_cons_left_iff.mp routines
    rw [inits]
    cases made
    rfl
  · have routines := (lays_of_lowerClass builtNested).inits
    obtain ⟨_, _, made, none, inits⟩ := List.forall₂_cons_left_iff.mp routines
    obtain rfl := List.forall₂_nil_left_iff.mp none
    rw [inits]
    have resolved : (Program.contextAt [.point] facts {} 0 .point).facts.chains.instance?
        Source.ClassDecl.nested.name = _ := second
    unfold lowerConstruction synthesizedInit prologue at made
    dsimp only at made
    rw [resolved] at made
    cases made
    rfl

end ObjectLowering
