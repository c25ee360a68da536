/-
**Vtables.**

The vtable of a class is that of its parent, in which the class's own virtual methods take over the
slots of their signature; every other virtual method gets a new slot at the end. A slot is named
after the implementation that introduced it. Where an inherited slot has that name already, the
class's name follows behind an underscore.

* `Vtable.extend` adds the virtual methods of one class.
* `Vtable.along` builds the vtable of a lineage, root first.
* `VtableSet.ofTable` does it for every class; its first failure ends it.
-/

import ObjectLowering.Hierarchy.Initializers
import ObjectLowering.Mangling.Record

namespace ObjectLowering

/-- A position in a vtable. -/
structure VtableSlot where
  name : Name
  source : Name
  params : List Ty
  ret : Ty
  /-- The class that introduced the slot. -/
  declaredIn : Name
  deriving DecidableEq, Repr

/-- Whether the slot is that of a source name and parameter types. -/
def VtableSlot.hasSignature (slot : VtableSlot) (source : Name) (params : List Ty) : Bool :=
  slot.source == source && slot.params == params

/-- The implementation that fills a slot. -/
structure SlotBinding where
  slot : Name
  /-- The nearest class that defines the method. -/
  owner : Name
  implName : Name
  /-- The owner did not introduce the slot, so the receiver types differ. -/
  needsCast : Bool
  deriving DecidableEq, Repr

/-- A slot and what fills it. -/
structure VtableEntry where
  slot : VtableSlot
  binding : SlotBinding
  deriving DecidableEq, Repr

/-- The slots of a class, inherited ones first. The identity slot in front of them is implicit. -/
structure Vtable where
  entries : List VtableEntry
  deriving DecidableEq, Repr

namespace Vtable

def empty : Vtable := ⟨[]⟩

def slots (vtable : Vtable) : List VtableSlot := vtable.entries.map (·.slot)

/-- The implementations in the order of their slots. -/
def bindings (vtable : Vtable) : List SlotBinding := vtable.entries.map (·.binding)

/-- The name of a slot that an implementation introduces. -/
def slotName (vtable : Vtable) (className implName : Name) : Name :=
  if vtable.slots.any (·.name == implName) then implName ++ "_" ++ className else implName

/-- Adds a virtual method of a class: it takes over its slot or introduces one. -/
def add (record : MangleRecord) (className : Name) (vtable : Vtable)
    (method : MethodRef × MethodInfo) : Vtable :=
  let info := method.2
  let implName := (record.mangled? method.1).getD info.name
  let slotName := vtable.slotName className implName
  let rebound (entry : VtableEntry) : VtableEntry :=
    { entry with
      binding := ⟨entry.slot.name, className, implName, entry.slot.declaredIn != className⟩ }
  let fresh : VtableEntry :=
    ⟨⟨slotName, info.name, info.params, info.ret, className⟩,
      ⟨slotName, className, implName, false⟩⟩
  ⟨redefine (·.slot.hasSignature info.name info.params) rebound fresh vtable.entries⟩

/-- Adds the virtual methods of a class in order of declaration. -/
def extend (record : MangleRecord) (vtable : Vtable) (info : ClassInfo) : Vtable :=
  (info.declaredMethods.filter (·.2.flags.isVirtual)).foldl (add record info.name) vtable

/-- The vtable of a lineage, whose first class is the youngest. -/
def along (table : ClassTable) (record : MangleRecord) (lineage : List Name) : Vtable :=
  (lineage.reverse.filterMap table.class?).foldl (extend record) empty

end Vtable

/-- The vtable of every class, provided ones included. -/
structure VtableSet where
  classes : List (Name × Vtable)

namespace VtableSet

def empty : VtableSet := ⟨[]⟩

def get? (set : VtableSet) (className : Name) : Option Vtable := set.classes.lookup className

/-- The slot of a class for a method's signature. -/
def slotFor? (set : VtableSet) (className source : Name) (params : List Ty) :
    Option VtableSlot :=
  (set.get? className).bind fun vtable => vtable.slots.find? (·.hasSignature source params)

/-- The vtable of one class. A cycle above it is reported at the class where it closes. -/
def ofClass (table : ClassTable) (record : MangleRecord) (className : Name) :
    Except LoweringError (Name × Vtable) :=
  match Lineage.of table.parentMap className with
  | .complete lineage => .ok (className, .along table record lineage)
  | .cycle repeated => .error (.inheritanceCycle repeated)
  | .unknownParent child parent => .error (.unknownParent child parent)

/-- The vtables of all classes, in the order of the table. -/
def ofTable (table : ClassTable) (record : MangleRecord) : Except LoweringError VtableSet :=
  VtableSet.mk <$> table.parentMap.classes.mapM (ofClass table record)

end VtableSet

end ObjectLowering
