/-
**Assignability and the choice among overloads.**

A value may be assigned to its own type, to a wider primitive, along parents, from an array to the
root class, and between arrays of references whose elements may be assigned; `null` goes to every
reference.

* `ClassTable.isAssignable` is that relation.
* `ClassTable.candidates` are the methods that a call may mean, nearest class first, where a method
  hides later ones of equal parameter types. An argument of unknown type fits every parameter.
* `ClassTable.resolveOverload` picks the candidate all of whose parameters may be assigned to those
  of every candidate, if there is exactly one.
-/

import ObjectLowering.Classes.Table

namespace ObjectLowering.ClassTable

/-- Whether a value of the first type may be assigned to the second. -/
def isAssignable (table : ClassTable) : Ty → Ty → Bool
  | .null, target => target.isReference
  | .class sub, .class super => sub == super || table.isSubclass sub super
  | .array _, .class super => super == Reserved.object
  | .array source, .array target =>
    source == target ||
      source.isReference && target.isReference && isAssignable table source target
  | source, target => source.widens target

/-- Whether the known argument types may be assigned to the parameters. -/
def isApplicable (table : ClassTable) (method : MethodInfo) (args : List (Option Ty)) : Bool :=
  (method.params.zip args).all fun (param, arg) => arg.all (table.isAssignable · param)

/-- Whether every parameter of the first may be assigned to that of the second. -/
def isMoreSpecific (table : ClassTable) (first second : MethodInfo) : Bool :=
  (first.params.zip second.params).all fun (param, other) => table.isAssignable param other

/-- The methods of a class and its ancestors, nearest class first. -/
def visibleMethods (table : ClassTable) (name : Name) : List (MethodRef × MethodInfo) :=
  (table.ancestors name).flatMap (·.declaredMethods)

/-- Adds a method to the candidates of a call unless it cannot be meant or is hidden. -/
def addCandidate (table : ClassTable) (name : Name) (args : List (Option Ty))
    (found : List (MethodRef × MethodInfo)) (method : MethodRef × MethodInfo) :
    List (MethodRef × MethodInfo) :=
  if method.2.name == name && !method.2.flags.isConstructor &&
      method.2.params.length == args.length &&
      !found.any (·.2.params == method.2.params) && table.isApplicable method.2 args then
    found ++ [method]
  else
    found

/-- The methods that a call may mean. -/
def candidates (table : ClassTable) (className name : Name) (args : List (Option Ty)) :
    List (MethodRef × MethodInfo) :=
  (table.visibleMethods className).foldl (table.addCandidate name args) []

/-- The one candidate that is at least as specific as every other. -/
def resolveOverload (table : ClassTable) (className name : Name) (args : List (Option Ty)) :
    Option MethodRef :=
  let found := table.candidates className name args
  match found.filter fun method => found.all fun other => table.isMoreSpecific method.2 other.2 with
  | [method] => some method.1
  | _ => none

/-! ### Assignability -/

theorem isAssignable_refl (table : ClassTable) (type : Ty) :
    table.isAssignable type type = true := by
  cases type <;> simp [isAssignable, Ty.widens_refl, Ty.isReference]

end ObjectLowering.ClassTable
