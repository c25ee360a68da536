/-
**Classes and members as the whole program sees them.**

A class entry holds what other classes may ask about it: its parent, its qualified name, its fields
and the signatures of its methods. A member is referred to by its class and its position there.

* `MethodFlags.declared` derives a method's properties from its modifiers.
* `MethodInfo.sameSignature` is the relation under which methods override: equal name and equal
  parameter types.
* `DispatchKind.classify` says how a call reaches its implementation.
-/

import ObjectLowering.Source.Decl

namespace ObjectLowering

open Source (Modifiers)

/-- A method, by its class and its position there. -/
structure MethodRef where
  className : Name
  index : Nat
  deriving DecidableEq, Repr

/-- A field, by its class and its position there. -/
structure FieldRef where
  className : Name
  index : Nat
  deriving DecidableEq, Repr

/-- Properties of a method. -/
structure MethodFlags where
  isStatic : Bool := false
  /-- The method has a vtable slot: it is neither static nor private nor a constructor. -/
  isVirtual : Bool := false
  /-- The method takes over the slot of an ancestor's method. -/
  isOverride : Bool := false
  isConstructor : Bool := false
  isPrivate : Bool := false
  isFinal : Bool := false
  /-- The method is a static one named `main`. -/
  isEntry : Bool := false
  deriving DecidableEq, Repr, Inhabited

/-- The properties that a declaration states. Overriding is not among them. -/
def MethodFlags.declared (modifiers : Modifiers) (isConstructor : Bool) (name : Name) :
    MethodFlags where
  isStatic := modifiers.isStatic
  isVirtual := !isConstructor && !modifiers.isStatic && !modifiers.isPrivate
  isConstructor := isConstructor
  isPrivate := modifiers.isPrivate
  isFinal := modifiers.isFinal
  isEntry := modifiers.isStatic && name == Reserved.main

/-- How a resolved call reaches its implementation. -/
inductive DispatchKind where
  /-- Through the vtable of the receiver. -/
  | virtual
  /-- By class, without a receiver. -/
  | static
  /-- A known implementation, with a receiver. -/
  | direct
  deriving DecidableEq, Repr

/-- A static method is called by class; one called through `super` or without a slot is called
directly; any other is called through the vtable. -/
def DispatchKind.classify (flags : MethodFlags) (viaSuper : Bool) : DispatchKind :=
  if flags.isStatic then .static
  else if viaSuper || !flags.isVirtual then .direct
  else .virtual

/-- A field of a class. -/
structure FieldInfo where
  name : Name
  type : Ty
  isStatic : Bool
  init : Option Source.Expr
  span : Span

/-- A method of a class. -/
structure MethodInfo where
  name : Name
  params : List Ty
  ret : Ty
  flags : MethodFlags
  span : Span
  deriving DecidableEq, Repr

/-- Equal name and equal parameter types. -/
def MethodInfo.sameSignature (first second : MethodInfo) : Bool :=
  first.name == second.name && first.params == second.params

/-- A class of the program or of the run time. -/
structure ClassInfo where
  name : Name
  /-- The empty name for the root. -/
  parent : Name
  /-- The name with its package in front. -/
  qualified : Name
  /-- The position of the declaring unit; none for a provided class. -/
  unit : Option Nat
  fields : List FieldInfo
  methods : List MethodInfo

namespace ClassInfo

/-- Whether the run time provides the class. -/
def isProvided (info : ClassInfo) : Bool := info.unit.isNone

/-- Whether the class has a constructor. -/
def hasConstructor (info : ClassInfo) : Bool := info.methods.any (·.flags.isConstructor)

/-- The fields of the class with references to them. -/
def fieldRefs (info : ClassInfo) : List FieldRef :=
  (List.range info.fields.length).map (⟨info.name, ·⟩)

/-- The methods of the class with references to them. -/
def declaredMethods (info : ClassInfo) : List (MethodRef × MethodInfo) :=
  info.methods.zipIdx.map fun (method, index) => (⟨info.name, index⟩, method)

/-- A declared method stands where its reference says. -/
theorem mem_declaredMethods {info : ClassInfo} {method : MethodRef × MethodInfo} :
    method ∈ info.declaredMethods ↔
      method.1.className = info.name ∧ info.methods[method.1.index]? = some method.2 := by
  unfold declaredMethods
  rw [List.mem_map]
  constructor
  · rintro ⟨⟨declared, index⟩, inside, rfl⟩
    exact ⟨rfl, List.mem_zipIdx_iff_getElem?.mp inside⟩
  · rintro ⟨named, there⟩
    exact ⟨(method.2, method.1.index), List.mem_zipIdx_iff_getElem?.mpr there, by rw [← named]⟩

end ClassInfo

end ObjectLowering
