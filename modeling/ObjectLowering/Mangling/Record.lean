/-
**One name for each declaration.**

Overloads share a source name, so each method gets a name of its own within its class: its source
name, an underscore, and how many declarations of that source name were named in the class before.
The entry point and constructors keep their source names.

* `MangleRecord` is the log of the names given, the latest first; every count is read off it.
* `MangleRecord.nameUnit` names the methods of a unit.
-/

import ObjectLowering.Typing.Facade

namespace ObjectLowering

open Source (SourceUnit ClassDecl MethodDecl)

/-- A name given to a method. -/
structure MangledName where
  method : MethodRef
  source : Name
  mangled : Name
  deriving DecidableEq, Repr

/-- The names given so far, the latest first. -/
structure MangleRecord where
  given : List MangledName

namespace MangleRecord

def empty : MangleRecord := ⟨[]⟩

/-- The name of a method; none if it keeps its source name. -/
def mangled? (record : MangleRecord) (method : MethodRef) : Option Name :=
  (record.given.find? (·.method == method)).map (·.mangled)

/-- How many declarations of a source name were named in a class. -/
def count (record : MangleRecord) (className source : Name) : Nat :=
  record.given.countP fun entry => entry.method.className == className && entry.source == source

/-- The methods that have a name, each once. -/
def methods (record : MangleRecord) : List MethodRef := (record.given.map (·.method)).eraseDups

def size (record : MangleRecord) : Nat := record.methods.length

/-- The name of the declaration that has so many of its source name before it. -/
def numbered (source : Name) (before : Nat) : Name := source ++ "_" ++ toString before

/-- Gives a method the next name of its source name. -/
def give (record : MangleRecord) (method : MethodRef) (source : Name) : MangleRecord :=
  ⟨⟨method, source, numbered source (record.count method.className source)⟩ :: record.given⟩

/-- Names a method unless it keeps its source name. -/
def nameMethod (entryPoint owner : Name) (record : MangleRecord) (method : MethodDecl × Nat) :
    MangleRecord :=
  if method.1.name == entryPoint || method.1.isConstructorOf owner then record
  else record.give ⟨owner, method.2⟩ method.1.name

/-- Names the methods of a class in order of declaration. -/
def nameClass (entryPoint : Name) (record : MangleRecord) (decl : ClassDecl) : MangleRecord :=
  decl.methods.zipIdx.foldl (nameMethod entryPoint decl.name) record

/-- Names the methods of the classes that the unit at a position owns. -/
def nameUnit (entryPoint : Name) (record : MangleRecord) (index : Nat) (unit : SourceUnit)
    (facade : Facade) : MangleRecord :=
  (unit.classes.filter (facade.owns index ·.name)).foldl (nameClass entryPoint) record

/-- Names the units at the given positions one after the other. -/
def nameUnits (entryPoint : Name) (units : List (SourceUnit × Facade)) (order : List Nat) :
    Option MangleRecord :=
  order.foldlM (fun record index => units[index]?.map fun (unit, facade) =>
    record.nameUnit entryPoint index unit facade) empty

/-- The names in the order in which they were given. -/
def mentions (record : MangleRecord) : List Name := (record.given.map (·.mangled)).reverse

end MangleRecord

end ObjectLowering
