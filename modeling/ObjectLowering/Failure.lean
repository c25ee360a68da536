/-
**What can go wrong between a program and its lowered form.**

A `LoweringError` is the program's fault, or says that an annotation is missing which an earlier
stage owes. Diagnostics show names by their numbers, so the wording takes the table of names.

* `LoweringError.message` is the wording of an error.
-/

import ObjectLowering.Name
import ObjectLowering.Span

namespace ObjectLowering

/-- What a later stage relies on and did not find. -/
inductive Requirement where
  | dispatchKind
  | methodSignature
  | vtableSlot
  | implicitReceiver
  | arrayDimension
  | vtable
  deriving DecidableEq, Repr

/-- What a diagnostic calls a requirement. -/
def Requirement.text : Requirement → String
  | .dispatchKind => "dispatch kind"
  | .methodSignature => "method signature"
  | .vtableSlot => "vtable slot"
  | .implicitReceiver => "implicit receiver"
  | .arrayDimension => "array dimension"
  | .vtable => "vtable"

/-- Why a program cannot be lowered. -/
inductive LoweringError where
  /-- The parents of the class lead back to it, or into a cycle. -/
  | inheritanceCycle (className : Name)
  /-- The parent of the class is not in the program. -/
  | unknownParent (className parent : Name)
  /-- The class has no resolved list of initializers. -/
  | missingInitializers (className : Name)
  /-- A requirement of a call or a class is not met. -/
  | unmet (method : Name) (requirement : Requirement) (span : Span)
  /-- A call without a target, where every call must have one. -/
  | unresolvedCall (method : Name) (span : Span)
  deriving DecidableEq, Repr

def LoweringError.message (names : NameTable) : LoweringError → String
  | .inheritanceCycle className => "inheritance cycle through class " ++ names.debug className
  | .unknownParent className parent =>
    "class " ++ names.debug className ++ " extends unknown class " ++ names.debug parent
  | .missingInitializers className =>
    "no resolved initializers for class " ++ names.debug className
  | .unmet method requirement span =>
    "missing " ++ requirement.text ++ " for `" ++ names.debug method ++ "` at " ++ span.display
  | .unresolvedCall method span =>
    "unresolved call to `" ++ names.debug method ++ "` at " ++ span.display

end ObjectLowering
