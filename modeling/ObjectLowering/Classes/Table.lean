/-
**The classes of a whole program.**

The table starts with the three provided classes and takes each class of each unit in order of
declaration; of two declarations of one name the first counts. A walk along parents takes at most as
many steps as there are classes, so it ends even where parents form a cycle.

* `ClassTable.ofUnits` builds the table and marks the methods that override an ancestor's.
* `ClassTable.ancestors` is a class followed by its ancestors, up to the first unknown one.
* `ClassTable.lookupField` finds the nearest field of a name.
* `ClassTable.owns` tells the unit whose declaration of a class counts.
-/

import ObjectLowering.Classes.Member

namespace ObjectLowering

open Source (SourceUnit ClassDecl)

/-- The classes of a program, provided ones first, then in order of declaration. -/
structure ClassTable where
  classes : List ClassInfo

namespace ClassTable

def provided : List ClassInfo :=
  let virtual (name : Name) (params : List Ty) (ret : Ty) : MethodInfo :=
    ⟨name, params, ret, { isVirtual := true }, .generated⟩
  let final (name : Name) (params : List Ty) (ret : Ty) : MethodInfo :=
    ⟨name, params, ret, { isFinal := true }, .generated⟩
  [{ name := Reserved.object, parent := Reserved.empty, qualified := "java.lang.Object"
     unit := none, fields := []
     methods := [
       virtual "hashCode" [] .int,
       virtual "equals" [.object] .boolean,
       virtual "getClass" [] (.class Reserved.classIdentity),
       virtual "toString" [] .string] },
   { name := Reserved.string, parent := Reserved.object, qualified := "java.lang.String"
     unit := none, fields := []
     methods := [final "length" [] .int, final "charAt" [.int] .char] },
   { name := Reserved.classIdentity, parent := Reserved.object, qualified := "java.lang.Class"
     unit := none, fields := []
     methods := [final "getName" [] .string] }]

def class? (table : ClassTable) (name : Name) : Option ClassInfo :=
  table.classes.find? (·.name == name)

/-- Whether there is a class of the name. -/
def contains (table : ClassTable) (name : Name) : Bool := (table.class? name).isSome

/-- The classes declared in source, in order of declaration. -/
def userClasses (table : ClassTable) : List ClassInfo :=
  table.classes.filter (!·.isProvided)

def size (table : ClassTable) : Nat := table.classes.length

/-- The method that a reference names. -/
def method? (table : ClassTable) (ref : MethodRef) : Option MethodInfo :=
  (table.class? ref.className).bind (·.methods[ref.index]?)

/-- The field that a reference names. -/
def field? (table : ClassTable) (ref : FieldRef) : Option FieldInfo :=
  (table.class? ref.className).bind (·.fields[ref.index]?)

/-- The parent of a class; the root and unknown classes have none. -/
def supertype? (table : ClassTable) (name : Name) : Option Name :=
  (table.class? name).bind fun info =>
    if info.parent = Reserved.empty then none else some info.parent

/-- Walks along parents for a number of steps. -/
def climb (table : ClassTable) : Nat → Name → List ClassInfo
  | 0, _ => []
  | steps + 1, name =>
    match table.class? name with
    | none => []
    | some info =>
      info :: if info.parent = Reserved.empty then [] else climb table steps info.parent

/-- A class followed by its ancestors. -/
def ancestors (table : ClassTable) (name : Name) : List ClassInfo :=
  if name = Reserved.empty then [] else table.climb table.size name

/-- Whether a class is another or one of its descendants. -/
def isSubclass (table : ClassTable) (sub super : Name) : Bool :=
  (table.ancestors sub).any (·.name == super)

/-- The nearest field of a name in a class and its ancestors. -/
def lookupField (table : ClassTable) (name field : Name) : Option FieldRef :=
  (table.ancestors name).findSome? fun info =>
    (info.fields.findIdx? (·.name == field)).map (⟨info.name, ·⟩)

/-- Every field of a class and its ancestors, the root's first. -/
def fieldsOwnAndInherited (table : ClassTable) (name : Name) : List FieldRef :=
  (table.ancestors name).reverse.flatMap (·.fieldRefs)

/-- Whether the declaration of a class that counts is in the unit. -/
def owns (table : ClassTable) (unit : Nat) (name : Name) : Bool :=
  (table.class? name).any (·.unit == some unit)

/-! ### Building the table -/

def entry (unit : Nat) (package : List Name) (decl : ClassDecl) : ClassInfo where
  name := decl.name
  parent := decl.parentOrRoot
  qualified := ".".intercalate (package ++ [decl.name])
  unit := some unit
  fields := decl.fields.map fun field =>
    ⟨field.name, field.type, field.modifiers.isStatic, field.init, field.span⟩
  methods := decl.methods.map fun method =>
    { name := method.name
      params := method.paramTypes
      ret := method.ret
      flags := .declared method.modifiers (method.isConstructorOf decl.name) method.name
      span := method.span }

/-- Adds an entry unless there is one of its name. -/
def add (table : ClassTable) (info : ClassInfo) : ClassTable :=
  if table.contains info.name then table else ⟨table.classes ++ [info]⟩

/-- The entries of all declarations, in order. -/
def entries (units : List SourceUnit) : List ClassInfo :=
  units.zipIdx.flatMap fun (unit, index) => unit.classes.map (entry index unit.package)

/-- Whether a class above the given one has a virtual method of the same signature. -/
def inheritsSlot (table : ClassTable) (parent : Name) (method : MethodInfo) : Bool :=
  (table.ancestors parent).any fun ancestor =>
    ancestor.methods.any fun other => other.flags.isVirtual && other.sameSignature method

/-- Marks the virtual methods that override one of an ancestor. -/
def markOverrides (table : ClassTable) : ClassTable where
  classes := table.classes.map fun info =>
    { info with
      methods := info.methods.map fun method =>
        if method.flags.isVirtual && table.inheritsSlot info.parent method then
          { method with flags := { method.flags with isOverride := true } }
        else
          method }

def ofUnits (units : List SourceUnit) : ClassTable :=
  ((entries units).foldl add ⟨provided⟩).markOverrides

/-- The names that the table brings: qualified names, and the names of provided methods. -/
def mentions (table : ClassTable) : List Name :=
  table.classes.flatMap fun info =>
    info.qualified :: if info.isProvided then info.methods.map (·.name) else []

end ClassTable

end ObjectLowering
