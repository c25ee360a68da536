/-
**Lowered classes and units.**

A class becomes a layout: its data behind the vtable pointer, storage for its static fields, its
vtable, the raw constructor that sets defaults, the routines of the second phase of construction,
and its methods. The types of values and bodies are parameters: trees in a `TreeUnit`, numbers in
a flat one.

* `ClassLayout.map` replaces values and bodies.
* `Method.params` of instance and construction routines start with the receiver.
-/

import ObjectLowering.Hierarchy.Vtable
import ObjectLowering.Lowered.Expr

namespace ObjectLowering.Lowered

open Source (Param)

/-- A member of an object. -/
inductive DataMember where
  | vtablePtr
  | field (name : Name) (type : Ty) (owner : Name)
  deriving DecidableEq, Repr

/-- A member that the raw constructor sets. -/
inductive MemberInit (ε : Type) where
  | vtablePtr
  | field (name : Name) (value : ε)
  deriving Repr

/-- The storage of a static field. -/
structure StaticStorage (ε : Type) where
  name : Name
  type : Ty
  init : ε

/-- What a routine is for. -/
inductive MethodKind where
  | instanceMethod
  | static
  /-- The second phase of construction. -/
  | init
  /-- The entry point, which returns an exit status. -/
  | entry
  deriving DecidableEq, Repr

/-- A routine. -/
structure Method (σ : Type) where
  name : Name
  source : Name
  owner : Name
  kind : MethodKind
  params : List Param
  ret : Ty
  body : σ
  /-- The source has no such routine. -/
  synthesized : Bool

/-- The identity of a class at run time. -/
structure Identity where
  className : Name
  qualified : Name
  parent : Name
  deriving DecidableEq, Repr

/-- A lowered class. -/
structure ClassLayout (ε σ : Type) where
  name : Name
  parent : Name
  identity : Identity
  /-- Members of an object, the vtable pointer first. -/
  data : List DataMember
  statics : List (StaticStorage ε)
  slots : List VtableSlot
  bindings : List SlotBinding
  /-- What the raw constructor sets, the vtable pointer last. -/
  ctor : List (MemberInit ε)
  /-- One routine for each constructor, or a synthesized one. -/
  inits : List (Method σ)
  methods : List (Method σ)

/-- The lowered form of a unit. -/
structure CodeUnit (ε σ : Type) where
  path : String
  package : List Name
  /-- The imports as the unit writes them. -/
  imports : List String
  classes : List (ClassLayout ε σ)

/-- A lowered unit whose values and bodies are trees. -/
abbrev TreeUnit := CodeUnit Expr Stmt

namespace MemberInit

variable {ε ε' : Type}

def map (onExpr : ε → ε') : MemberInit ε → MemberInit ε'
  | .vtablePtr => .vtablePtr
  | .field name value => .field name (onExpr value)

/-- The value, if the member has one. -/
def value? : MemberInit ε → Option ε
  | .vtablePtr => none
  | .field _ value => some value

end MemberInit

def Method.map {σ σ' : Type} (onStmt : σ → σ') (method : Method σ) : Method σ' :=
  { method with body := onStmt method.body }

namespace ClassLayout

variable {ε ε' σ σ' : Type}

def map (onExpr : ε → ε') (onStmt : σ → σ') (layout : ClassLayout ε σ) : ClassLayout ε' σ' :=
  { layout with
    statics := layout.statics.map fun storage => { storage with init := onExpr storage.init }
    ctor := layout.ctor.map (·.map onExpr)
    inits := layout.inits.map (·.map onStmt)
    methods := layout.methods.map (·.map onStmt) }

/-- The construction routines, then the methods. -/
def routines (layout : ClassLayout ε σ) : List (Method σ) := layout.inits ++ layout.methods

/-- The fields of an object in order. -/
def fields (layout : ClassLayout ε σ) : List (Name × Ty) :=
  layout.data.filterMap fun
    | .vtablePtr => none
    | .field name type _ => some (name, type)

def method? (layout : ClassLayout ε σ) (name : Name) : Option (Method σ) :=
  layout.methods.find? (·.name == name)

def slot? (layout : ClassLayout ε σ) (name : Name) : Option VtableSlot :=
  layout.slots.find? (·.name == name)

/-- The first binding of a slot's name. -/
def binding? (layout : ClassLayout ε σ) (slot : Name) : Option SlotBinding :=
  layout.bindings.find? (·.slot == slot)

end ClassLayout

namespace CodeUnit

variable {ε σ : Type}

def class? (unit : CodeUnit ε σ) (name : Name) : Option (ClassLayout ε σ) :=
  unit.classes.find? (·.name == name)

end CodeUnit

end ObjectLowering.Lowered
