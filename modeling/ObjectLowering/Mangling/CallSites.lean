/-
**The target of each call.**

A call is looked up in the class that its receiver's static type names; without a receiver, in the
enclosing class. What cannot be looked up has no entry, and later stages keep its source name.

* `resolveCall` finds the target of one call.
* `CallSites.ofUnit` collects the targets of a unit under the numbers of its calls.
* `MangleTable.ofProgram` names every declaration first and then resolves every call.
-/

import ObjectLowering.Mangling.Record

namespace ObjectLowering

open Source (SourceUnit ClassDecl Expr)

/-- The target of a call. -/
structure CallSite where
  target : MethodRef
  /-- The name of the target, its source name if it keeps that. -/
  mangled : Name
  /-- The call has no written receiver and an instance method as its target, so the current
  receiver has to be passed. -/
  needsSelf : Bool
  deriving DecidableEq, Repr

/-- Targets under the numbers of the calls. -/
abbrev CallSites := NodeMap CallSite

/-- The class whose methods a call with the receiver is looked up in. -/
def lookupClass (facade : Facade) (owner : Name) : Option Expr → Option Name
  | none => some owner
  | some (.this _) => some owner
  | some (.super _) => facade.supertype owner
  | some (.ident tag _) =>
    match facade.meaning tag.id with
    | some (.class named) => some named
    | _ => (facade.exprType tag.id).bind Ty.memberClass?
  | some receiver => (facade.exprType receiver.id).bind Ty.memberClass?

/-- The target of a call in a class. -/
def resolveCall (facade : Facade) (record : MangleRecord) (owner : Name)
    (receiver : Option Expr) (method : Name) (args : List Expr) : Option CallSite := do
  let className ← lookupClass facade owner receiver
  let target ← facade.resolveOverload className method (args.map (facade.exprType ·.id))
  let info ← facade.method target
  return {
    target
    mangled := (record.mangled? target).getD info.name
    needsSelf := receiver.isNone && !info.flags.isStatic }

namespace CallSites

/-- Adds the target of an expression, if it is a call that has one. -/
def add (facade : Facade) (record : MangleRecord) (owner : Name) (sites : CallSites) (expr : Expr) :
    CallSites :=
  match expr with
  | .call tag receiver method args =>
    match resolveCall facade record owner receiver method args with
    | some site => sites.insert tag.id site
    | none => sites
  | _ => sites

def addClass (facade : Facade) (record : MangleRecord) (sites : CallSites) (decl : ClassDecl) :
    CallSites :=
  decl.nodes.foldl (add facade record decl.name) sites

/-- The targets of the classes that the unit at a position owns. -/
def ofUnit (facade : Facade) (record : MangleRecord) (index : Nat) (unit : SourceUnit) :
    CallSites :=
  (unit.classes.filter (facade.owns index ·.name)).foldl (addClass facade record)
    (NodeMap.empty unit.exprCount)

end CallSites

/-- The names of all declarations and the targets of all calls. -/
structure MangleTable where
  record : MangleRecord
  units : List CallSites

namespace MangleTable

def empty : MangleTable := ⟨.empty, []⟩

/-- The targets of the unit at a position. -/
def sites (table : MangleTable) (index : Nat) : CallSites :=
  (table.units[index]?).getD (NodeMap.empty 0)

/-- Resolves the calls of every unit with the given names. -/
def ofRecord (record : MangleRecord) (units : List (SourceUnit × Facade)) : MangleTable :=
  ⟨record, units.zipIdx.map fun ((unit, facade), index) => .ofUnit facade record index unit⟩

/-- Names the declarations of every unit, then resolves the calls of every unit. -/
def ofProgram (entryPoint : Name) (units : List (SourceUnit × Facade)) : MangleTable :=
  let name (record : MangleRecord) : (SourceUnit × Facade) × Nat → MangleRecord
    | ((unit, facade), index) => record.nameUnit entryPoint index unit facade
  ofRecord (units.zipIdx.foldl name .empty) units

def withoutCalls (table : MangleTable) : MangleTable := ⟨table.record, []⟩

end MangleTable

end ObjectLowering
