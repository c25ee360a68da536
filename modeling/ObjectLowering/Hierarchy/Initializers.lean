/-
**The field initializers that an object of a class carries.**

The chain of a class holds the instance fields of its lineage, the root's first. A field of the same
name and type as an inherited one takes its place; any other goes to the end. Static fields are not
inherited and are kept with their class.

* `chainOf` builds the chain along a lineage.
* `InitializerChains.resolve` does it for every class; its first failure ends it.
-/

import ObjectLowering.Classes.Table
import ObjectLowering.Failure
import ObjectLowering.Hierarchy.Inheritance
import ObjectLowering.Hierarchy.Lineage

namespace ObjectLowering

/-- The value that a field holds before any initializer runs. -/
inductive DefaultLiteral where
  | int
  | float
  | bool
  | char
  | null
  deriving DecidableEq, Repr

/-- The default of a type: a reference starts as `null`. -/
def DefaultLiteral.ofType : Ty → DefaultLiteral
  | .boolean => .bool
  | .char => .char
  | .float | .double => .float
  | .byte | .short | .int | .long => .int
  | .void | .class _ | .array _ | .null => .null

/-- A field with the value that its declaration gives it, if any. -/
structure Initializer (ν : Type) where
  name : Name
  type : Ty
  /-- The declaring class. -/
  owner : Name
  value : Option ν
  isStatic : Bool
  deriving DecidableEq, Repr

namespace Initializer

variable {ν : Type}

/-- The value before any initializer runs. -/
def default (init : Initializer ν) : DefaultLiteral := .ofType init.type

/-- Whether two fields have the same name and type, so that one takes the place of the other. -/
def sameSlot (first second : Initializer ν) : Bool :=
  first.name == second.name && first.type == second.type

end Initializer

/-- The declared fields of classes. -/
abbrev RawInitializers (ν : Type) := List (Name × List (Initializer ν))

namespace RawInitializers

variable {ν : Type}

/-- The declared fields of a class; none if it declares none. -/
def of (raw : RawInitializers ν) (className : Name) : List (Initializer ν) :=
  (raw.lookup className).getD []

/-- The fields of a class, in place of an earlier list. -/
def set (raw : RawInitializers ν) (className : Name) (inits : List (Initializer ν)) :
    RawInitializers ν :=
  redefine (·.1 == className) (fun _ => (className, inits)) (className, inits) raw

/-- The fields that the classes of a table declare. -/
def ofTable (table : ClassTable) : RawInitializers Source.Expr :=
  table.classes.map fun info =>
    (info.name, info.fields.map fun field =>
      ⟨field.name, field.type, info.name, field.init, field.isStatic⟩)

end RawInitializers

/-- The parents of the classes of a table. -/
def ClassTable.parentMap (table : ClassTable) : ParentMap :=
  table.classes.map fun info => (info.name, info.parent)

/-- Adds a declared field to an inherited chain. -/
def addInitializer {ν : Type} (chain : List (Initializer ν)) (init : Initializer ν) :
    List (Initializer ν) :=
  redefine (·.sameSlot init) (fun _ => init) init chain

/-- The chain along a lineage, whose first class is the youngest. -/
def chainOf {ν : Type} (raw : RawInitializers ν) (lineage : List Name) : List (Initializer ν) :=
  (lineage.reverse.flatMap fun className => (raw.of className).filter (!·.isStatic)).foldl
    addInitializer []

/-- The resolved fields of one class. -/
structure ClassInitializers (ν : Type) where
  className : Name
  /-- The instance fields of the lineage, the root's first. -/
  instanceFields : List (Initializer ν)
  /-- The static fields of the class itself, in order of declaration. -/
  statics : List (Initializer ν)

/-- The resolved fields of every class. -/
structure InitializerChains (ν : Type) where
  classes : List (ClassInitializers ν)

namespace InitializerChains

variable {ν : Type}

def empty : InitializerChains ν := ⟨[]⟩

def size (chains : InitializerChains ν) : Nat := chains.classes.length

/-- The resolved fields of a class. -/
def class? (chains : InitializerChains ν) (className : Name) : Option (ClassInitializers ν) :=
  chains.classes.find? (·.className == className)

/-- The instance fields of a class and its ancestors. -/
def instance? (chains : InitializerChains ν) (className : Name) :
    Option (List (Initializer ν)) :=
  (chains.class? className).map (·.instanceFields)

/-- The static fields of a class itself. -/
def statics (chains : InitializerChains ν) (className : Name) : List (Initializer ν) :=
  ((chains.class? className).map (·.statics)).getD []

/-- Resolves one class. A cycle anywhere above it is reported at the class itself. -/
def resolveClass (parents : ParentMap) (raw : RawInitializers ν) (className : Name) :
    Except LoweringError (ClassInitializers ν) :=
  match Lineage.of parents className with
  | .complete lineage =>
    .ok ⟨className, chainOf raw lineage, (raw.of className).filter (·.isStatic)⟩
  | .cycle _ => .error (.inheritanceCycle className)
  | .unknownParent child parent => .error (.unknownParent child parent)

/-- Resolves the given classes, the first one first. -/
def resolve (order : List Name) (parents : ParentMap) (raw : RawInitializers ν) :
    Except LoweringError (InitializerChains ν) :=
  InitializerChains.mk <$> order.mapM (resolveClass parents raw)

/-- Resolves the classes of a table in the order in which their names were first mentioned. -/
def ofTable (names : NameTable) (table : ClassTable) :
    Except LoweringError (InitializerChains Source.Expr) :=
  resolve (names.inOrder table.parentMap.classes) table.parentMap (.ofTable table)

end InitializerChains

end ObjectLowering
