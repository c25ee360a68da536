/-
**A class is lowered from outlines.**

Lowering asks about other classes only what their outlines say: whether a field is static, the
signature of a method, the name and the slot that the facts give to it. Of an initializer chain it
reads which fields there are, and the values of those that the class itself declares. So a class
becomes the same in two programs that agree on this.

* `Lowering.Agrees`: two contexts agree on what lowering an expression reads.
* `Source.Expr.lower_informed`, `Source.Stmt.lower_informed`: trees.
* `Initializer.seenFrom` is a field of a chain without its value, unless the class declares it.
* `Lowering.AgreesAbout`: two contexts agree on what lowering a class reads.
* **`lowerClass_congr`**: the class becomes the same.
-/

import ObjectLowering.Lowering.Program
import ObjectLowering.Proofs.Resolution.SameNotes

namespace ObjectLowering

open Source (ClassDecl MethodDecl)

namespace Lowering

/-- Two contexts agree on what lowering an expression reads. -/
structure Agrees (context other : Context) : Prop where
  facade : context.facade.Alike other.facade
  sites : context.sites = other.sites
  names : context.facts.mangle.record.Alike other.facts.mangle.record
  vtables : ∀ name, context.facts.vtables.get? name = other.facts.vtables.get? name
  options : context.options = other.options

/-- The context with the members, the classes and the facts of another. -/
def Context.informedBy (context other : Context) : Context where
  facade := { context.facade with
    method := other.facade.method
    field := other.facade.field
    class? := other.facade.class? }
  sites := context.sites
  facts := other.facts
  options := context.options

namespace Agrees

variable {context other : Context}

/-- Where two contexts agree, members, classes and facts are all that may differ. -/
theorem informedBy_eq (agrees : Agrees context other) : context.informedBy other = other := by
  unfold Context.informedBy
  dsimp only
  rw [agrees.sites, agrees.options, agrees.facade.exprType, agrees.facade.meaning,
    agrees.facade.dispatch, agrees.facade.resolveOverload, agrees.facade.supertype]

theorem isStatic (agrees : Agrees context other) (field : FieldRef) :
    (other.facade.field field).any (·.isStatic) =
      (context.facade.field field).any (·.isStatic) := by
  have found := rel_of_outline (agrees.facade.field field)
  generalize context.facade.field field = first at found ⊢
  generalize other.facade.field field = second at found ⊢
  cases found with
  | none => rfl
  | @some info found same =>
    have isStatic : info.isStatic = found.isStatic := congrArg (·.isStatic) same
    exact isStatic.symm

theorem identifier (agrees : Agrees context other) (tag : Source.Tag) (name : Name) :
    Lowering.identifier (context.informedBy other) tag name =
      Lowering.identifier context tag name := by
  unfold Lowering.identifier fieldRef Context.informedBy
  simp only [agrees.isStatic]
  rfl

theorem staticOwner? (agrees : Agrees context other) (id receiver : NodeId) :
    Lowering.staticOwner? (context.informedBy other) id receiver =
      Lowering.staticOwner? context id receiver := by
  unfold Lowering.staticOwner? Context.informedBy
  simp only [agrees.isStatic]

theorem memberAccess (agrees : Agrees context other) (tag : Source.Tag) (receiver : Part)
    (name : Name) :
    Lowering.memberAccess (context.informedBy other) tag receiver name =
      Lowering.memberAccess context tag receiver name := by
  unfold Lowering.memberAccess
  rw [agrees.staticOwner?]
  rfl

theorem virtualSlot (agrees : Agrees context other) (span : Span) (site : CallSite) :
    Lowering.virtualSlot (context.informedBy other) span site =
      Lowering.virtualSlot context span site := by
  have slots (name source : Name) (params : List Ty) :
      other.facts.vtables.slotFor? name source params =
        context.facts.vtables.slotFor? name source params := by
    unfold VtableSet.slotFor?
    rw [agrees.vtables]
  have found := rel_of_outline (agrees.facade.method site.target)
  unfold Lowering.virtualSlot Context.informedBy
  simp only [slots]
  generalize context.facade.method site.target = first at found ⊢
  generalize other.facade.method site.target = second at found ⊢
  cases found with
  | none => rfl
  | @some info found same =>
    have name : info.name = found.name := congrArg (·.name) same
    have params : info.params = found.params := congrArg (·.params) same
    dsimp only
    rw [name, params]

theorem lowerCall (agrees : Agrees context other) (routine : Routine) (parts : CallParts) :
    Lowering.lowerCall (context.informedBy other) routine parts =
      Lowering.lowerCall context routine parts := by
  unfold Lowering.lowerCall virtualCall
  simp only [agrees.virtualSlot]
  rfl

end Agrees

end Lowering

open Lowering

/-! ### Trees -/

section Trees

variable {context other : Context} {routine : Routine}

mutual

/-- **An expression is lowered alike.** -/
theorem Source.Expr.lower_informed (agrees : Agrees context other) : ∀ expr : Source.Expr,
    expr.lower (context.informedBy other) routine = expr.lower context routine
  | .int .. | .float .. | .bool .. | .char .. | .str .. | .null _ | .this _ | .super _ => rfl
  | .ident tag name => congrArg pure (agrees.identifier tag name)
  | .field tag receiver name => by
    simp only [Source.Expr.lower, receiver.lower_informed agrees, agrees.memberAccess]
  | .call tag none method args => by
    simp only [Source.Expr.lower, Source.Expr.lowerEach_informed agrees args, agrees.lowerCall]
  | .call tag (some receiver) method args => by
    simp only [Source.Expr.lower, receiver.lower_informed agrees,
      Source.Expr.lowerEach_informed agrees args, agrees.lowerCall]
  | .chain tag target args => by
    simp only [Source.Expr.lower, Source.Expr.lowerEach_informed agrees args]
    rfl
  | .newObject _ _ args => by
    simp only [Source.Expr.lower, Source.Expr.lowerEach_informed agrees args]
  | .newArray tag element dims extra => by
    simp only [Source.Expr.lower, Source.Expr.lowerEach_informed agrees dims]
    rfl
  | .index tag array position => by
    simp only [Source.Expr.lower, array.lower_informed agrees, position.lower_informed agrees]
    rfl
  | .assign tag target value => by
    rw [lower.eq_def, lower.eq_def]
    dsimp only
    split
    · rename_i array position
      simp only [array.lower_informed agrees, position.lower_informed agrees,
        value.lower_informed agrees]
      rfl
    · simp only [target.lower_informed agrees, value.lower_informed agrees]
  | .binary _ _ left right => by
    simp only [Source.Expr.lower, left.lower_informed agrees, right.lower_informed agrees]
  | .unary tag op operand => by
    rw [lower.eq_def, lower.eq_def]
    dsimp only
    split
    · rename_i array position _
      simp only [array.lower_informed agrees, position.lower_informed agrees]
      rfl
    · rename_i inner _ _ _
      simp only [inner.lower_informed agrees]
  | .cast _ _ operand | .instanceOf _ operand _ => by
    simp only [Source.Expr.lower, operand.lower_informed agrees]

theorem Source.Expr.lowerEach_informed (agrees : Agrees context other) :
    ∀ exprs : List Source.Expr, Source.Expr.lowerEach (context.informedBy other) routine exprs =
      Source.Expr.lowerEach context routine exprs
  | [] => rfl
  | expr :: rest => by
    simp only [Source.Expr.lowerEach, expr.lower_informed agrees,
      Source.Expr.lowerEach_informed agrees rest]

end

theorem Source.Expr.lowerOption_informed (agrees : Agrees context other)
    (expr : Option Source.Expr) :
    Source.Expr.lowerOption (context.informedBy other) routine expr =
      Source.Expr.lowerOption context routine expr := by
  cases expr with
  | none => rfl
  | some expr => exact expr.lower_informed agrees

mutual

/-- **A statement is lowered alike.** -/
theorem Source.Stmt.lower_informed (agrees : Agrees context other) : ∀ stmt : Source.Stmt,
    stmt.lower (context.informedBy other) routine = stmt.lower context routine
  | .eval _ expr => by simp only [Source.Stmt.lower, expr.lower_informed agrees]
  | .localVar _ _ _ init => by
    simp only [Source.Stmt.lower, Source.Expr.lowerOption_informed agrees]
  | .block _ body => by simp only [Source.Stmt.lower, Source.Stmt.lowerEach_informed agrees body]
  | .branch _ cond yes none => by
    simp only [Source.Stmt.lower, cond.lower_informed agrees, yes.lower_informed agrees]
  | .branch _ cond yes (some no) => by
    simp only [Source.Stmt.lower, cond.lower_informed agrees, yes.lower_informed agrees,
      no.lower_informed agrees]
  | .whileLoop _ cond body => by
    simp only [Source.Stmt.lower, cond.lower_informed agrees, body.lower_informed agrees]
  | .forLoop _ init cond update body => by
    simp only [Source.Stmt.lower, Source.Stmt.lowerEach_informed agrees init,
      Source.Expr.lowerOption_informed agrees, Source.Expr.lowerEach_informed agrees,
      body.lower_informed agrees]
  | .ret span none => rfl
  | .ret _ (some value) => by simp only [Source.Stmt.lower, value.lower_informed agrees]

theorem Source.Stmt.lowerEach_informed (agrees : Agrees context other) :
    ∀ stmts : List Source.Stmt, Source.Stmt.lowerEach (context.informedBy other) routine stmts =
      Source.Stmt.lowerEach context routine stmts
  | [] => rfl
  | stmt :: rest => by
    simp only [Source.Stmt.lowerEach, stmt.lower_informed agrees,
      Source.Stmt.lowerEach_informed agrees rest]

end

end Trees

/-! ### Initializer chains -/

/-- A field of a chain without its value, unless the class declares the field. -/
def Initializer.seenFrom {ν : Type} (className : Name) (init : Initializer ν) : Initializer ν :=
  { init with value := if init.owner == className then init.value else none }

section Chains

variable (className : Name) (chain : List (Initializer Source.Expr))

theorem dataMembers_seenFrom :
    dataMembers (chain.map (·.seenFrom className)) = dataMembers chain := by
  unfold dataMembers
  rw [List.map_map]
  rfl

theorem ctorMembers_seenFrom (span : Span) :
    ctorMembers span (chain.map (·.seenFrom className)) = ctorMembers span chain := by
  unfold ctorMembers
  rw [List.map_map]
  rfl

theorem ownValues_seenFrom :
    ownValues className (chain.map (·.seenFrom className)) = ownValues className chain := by
  unfold ownValues
  rw [List.filter_map, List.filterMap_map]
  refine List.filterMap_congr fun init member => ?_
  obtain ⟨_, own⟩ := List.mem_filter.mp member
  have kept : (init.owner == className) = true := own
  show (if init.owner == className then init.value else none).map _ = _
  rw [kept]
  rfl

end Chains

namespace Lowering

/-- Two contexts agree on what lowering a class reads. -/
structure AgreesAbout (className : Name) (context other : Context) : Prop
    extends Agrees context other where
  chain : (context.facts.chains.instance? className).map (List.map (·.seenFrom className)) =
    (other.facts.chains.instance? className).map (List.map (·.seenFrom className))
  statics : context.facts.chains.statics className = other.facts.chains.statics className

section Classes

variable {context other : Context}

theorem lowerBody_informed (agrees : Agrees context other) (routine : Routine) (span : Span)
    (start : List Lowered.Stmt) (body : Option Source.Stmt) :
    lowerBody (context.informedBy other) routine span start body =
      lowerBody context routine span start body := by
  unfold lowerBody
  simp only [Source.Stmt.lower_informed agrees]
  rfl

/-- A chain that is seen alike has the same own values. -/
theorem AgreesAbout.rel {className : Name} (agrees : AgreesAbout className context other) :
    Option.Rel (fun chain found => chain.map (·.seenFrom className) =
      found.map (·.seenFrom className)) (context.facts.chains.instance? className)
      (other.facts.chains.instance? className) :=
  rel_of_outline agrees.chain

theorem prologue_informed (routine : Routine)
    (agrees : AgreesAbout routine.className context other) (span : Span) :
    prologue (context.informedBy other) routine span = prologue context routine span := by
  have found := agrees.rel
  have assigns (field : Name × Source.Expr) :
      assignField (context.informedBy other) routine span field =
        assignField context routine span field := by
    unfold assignField
    rw [field.2.lower_informed agrees.toAgrees]
    rfl
  unfold prologue
  rw [show (context.informedBy other).facts = other.facts from rfl, funext assigns]
  generalize context.facts.chains.instance? routine.className = first at found ⊢
  generalize other.facts.chains.instance? routine.className = second at found ⊢
  cases found with
  | none => rfl
  | @some chain found same =>
    dsimp only
    rw [← ownValues_seenFrom _ found, ← same, ownValues_seenFrom]
    rfl

theorem lowerMethod_informed (agrees : Agrees context other) (owner : Name) (index : Nat)
    (method : MethodDecl) :
    lowerMethod (context.informedBy other) owner index method =
      lowerMethod context owner index method := by
  have modes : modeOf (context.informedBy other) method = modeOf context method := rfl
  have names : (context.informedBy other).facts.mangle.record.mangled? ⟨owner, index⟩ =
      context.facts.mangle.record.mangled? ⟨owner, index⟩ := (agrees.names _).symm
  unfold lowerMethod
  dsimp only
  rw [modes, names, lowerBody_informed agrees]
  rfl

theorem lowerConstructor_informed {owner : Name} (agrees : AgreesAbout owner context other)
    (index : Nat) (method : MethodDecl) :
    lowerConstructor (context.informedBy other) owner index method =
      lowerConstructor context owner index method := by
  unfold lowerConstructor
  dsimp only
  rw [prologue_informed ⟨owner, _, _, _⟩ agrees]
  simp only [lowerBody_informed agrees.toAgrees]
  rfl

theorem synthesizedInit_informed {decl : ClassDecl}
    (agrees : AgreesAbout decl.name context other) :
    synthesizedInit (context.informedBy other) decl = synthesizedInit context decl := by
  unfold synthesizedInit
  dsimp only
  rw [prologue_informed ⟨decl.name, _, _, _⟩ agrees]
  simp only [lowerBody_informed agrees.toAgrees]
  rfl

theorem lowerStatic_informed (agrees : Agrees context other) (className : Name) (span : Span)
    (init : Initializer Source.Expr) :
    lowerStatic (context.informedBy other) className span init =
      lowerStatic context className span init := by
  unfold lowerStatic
  simp only [Source.Expr.lower_informed agrees]

theorem lowerMember_informed {owner : Name} (agrees : AgreesAbout owner context other)
    (method : MethodDecl × Nat) :
    lowerMember (context.informedBy other) owner method = lowerMember context owner method := by
  unfold lowerMember
  rw [lowerConstructor_informed agrees, lowerMethod_informed agrees.toAgrees]

/-- A layout depends on what is said of its class, and on the chain as the class sees it. -/
theorem layoutOf_informed {ε σ : Type} {decl : ClassDecl}
    (agrees : AgreesAbout decl.name context other) {chain found : List (Initializer Source.Expr)}
    (same : chain.map (·.seenFrom decl.name) = found.map (·.seenFrom decl.name)) :
    @layoutOf ε σ (context.informedBy other) decl found = layoutOf context decl chain := by
  have parent : ((context.facade.class? decl.name).map (·.parent)) =
      ((other.facade.class? decl.name).map (·.parent)) :=
    read_of_outline ClassInfo.outline (fun _ => rfl) (agrees.facade.class? decl.name)
  have qualified : ((context.facade.class? decl.name).map (·.qualified)) =
      ((other.facade.class? decl.name).map (·.qualified)) :=
    read_of_outline ClassInfo.outline (fun _ => rfl) (agrees.facade.class? decl.name)
  have facade : (context.informedBy other).facade.class? = other.facade.class? := rfl
  funext vtable statics ctor inits methods
  unfold layoutOf
  dsimp only
  rw [facade, ← parent, ← qualified, ← dataMembers_seenFrom decl.name found, ← same,
    dataMembers_seenFrom]

/-- **A class becomes the same** in two programs that agree about it. -/
theorem lowerClass_congr {decl : ClassDecl} (agrees : AgreesAbout decl.name context other) :
    lowerClass context decl = lowerClass other decl := by
  have chains := agrees.rel
  have facts : (context.informedBy other).facts = other.facts := rfl
  rw [← agrees.informedBy_eq]
  unfold lowerClass
  dsimp only
  rw [facts, ← agrees.statics, ← agrees.vtables, funext (lowerMember_informed agrees),
    funext (lowerStatic_informed agrees.toAgrees _ _), synthesizedInit_informed agrees]
  generalize context.facts.chains.instance? decl.name = first at chains ⊢
  generalize other.facts.chains.instance? decl.name = second at chains ⊢
  cases chains with
  | none => rfl
  | @some chain found same =>
    dsimp only
    rw [layoutOf_informed agrees same, ← ctorMembers_seenFrom decl.name found, ← same,
      ctorMembers_seenFrom]

end Classes

end Lowering

end ObjectLowering
