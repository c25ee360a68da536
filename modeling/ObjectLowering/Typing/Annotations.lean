/-
**What is known about the expressions of a unit.**

Annotations are kept under the numbers of expressions: the static type, what an identifier or member
access means, and the target of a call. What could not be determined is absent. Beside them stand
the locals and parameters of each method with their types.
-/

import ObjectLowering.Classes.Member
import ObjectLowering.NodeMap

namespace ObjectLowering

/-- What an identifier or member access refers to. -/
inductive Meaning where
  /-- A local variable or parameter. -/
  | localVar
  | field (ref : FieldRef)
  /-- A class, which can only be a receiver. -/
  | class (name : Name)
  deriving DecidableEq, Repr

/-- The target of a call and the way to it. -/
structure CallInfo where
  target : MethodRef
  dispatch : DispatchKind
  deriving DecidableEq, Repr

/-- Annotations of one unit. -/
structure Annotations where
  types : NodeMap Ty
  meanings : NodeMap Meaning
  calls : NodeMap CallInfo
  /-- Locals and parameters by method, the latest declaration first. -/
  locals : List (MethodRef × Name × Ty)

namespace Annotations

/-- No annotation for a count of expressions. -/
def empty (count : Nat) : Annotations := ⟨.empty count, .empty count, .empty count, []⟩

/-- The static type of an expression. -/
def type? (notes : Annotations) (id : NodeId) : Option Ty := notes.types.get? id

/-- What an identifier or member access refers to. -/
def meaning? (notes : Annotations) (id : NodeId) : Option Meaning := notes.meanings.get? id

def call? (notes : Annotations) (id : NodeId) : Option CallInfo := notes.calls.get? id

/-- The type of a local or parameter declared anywhere in a method, the latest one if there are
several. -/
def localType? (notes : Annotations) (method : MethodRef) (name : Name) : Option Ty :=
  (notes.locals.find? fun (owner, declared, _) => owner == method && declared == name).map (·.2.2)

end Annotations

end ObjectLowering
