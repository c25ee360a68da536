/-
**The questions that lowering asks about types.**

Lowering sees the class table and the annotations of one unit only through a `Facade`. The true one
answers from both; an altered one answers nothing to chosen questions, or one dispatch kind to every
call. What is hidden stays hidden whatever is forced.

* `Facade.ofUnit` is the true facade of a unit.
* `Facade.hide` and `Facade.force` alter one.
-/

import ObjectLowering.Classes.Overload
import ObjectLowering.Typing.Annotations

namespace ObjectLowering

/-- Answers about the types of a program, as seen from one unit. -/
structure Facade where
  /-- The static type of an expression. -/
  exprType : NodeId → Option Ty
  /-- What an identifier or member access refers to. -/
  meaning : NodeId → Option Meaning
  /-- The way to the target of a call. -/
  dispatch : NodeId → Option DispatchKind
  /-- The method that a call means, from the class it is looked up in. -/
  resolveOverload : Name → Name → List (Option Ty) → Option MethodRef
  /-- The parent of a class. -/
  supertype : Name → Option Name
  /-- The method that a reference names. -/
  method : MethodRef → Option MethodInfo
  /-- The field that a reference names. -/
  field : FieldRef → Option FieldInfo
  /-- The class of a name. -/
  class? : Name → Option ClassInfo

/-- The questions that an altered facade may leave without an answer. -/
inductive Question where
  | exprType
  | supertype
  | method
  | field
  | classInfo
  | dispatch
  | meaning
  deriving DecidableEq, Repr

namespace Facade

/-- The answers of the class table and of a unit's annotations. -/
def ofUnit (table : ClassTable) (notes : Annotations) : Facade where
  exprType := notes.type?
  meaning := notes.meaning?
  dispatch id := (notes.call? id).map (·.dispatch)
  resolveOverload := table.resolveOverload
  supertype := table.supertype?
  method := table.method?
  field := table.field?
  class? := table.class?

/-- Leaves a question without an answer if the condition holds. -/
def withhold {α β : Type} (hidden : Bool) (answer : α → Option β) (question : α) : Option β :=
  if hidden then none else answer question

/-- Leaves the given questions without an answer. -/
def hide (facade : Facade) (hidden : List Question) : Facade where
  exprType := withhold (hidden.contains .exprType) facade.exprType
  meaning := withhold (hidden.contains .meaning) facade.meaning
  dispatch := withhold (hidden.contains .dispatch) facade.dispatch
  resolveOverload := facade.resolveOverload
  supertype := withhold (hidden.contains .supertype) facade.supertype
  method := withhold (hidden.contains .method) facade.method
  field := withhold (hidden.contains .field) facade.field
  class? := withhold (hidden.contains .classInfo) facade.class?

/-- Answers one dispatch kind to every call. -/
def force (facade : Facade) (kind : DispatchKind) : Facade :=
  { facade with dispatch := fun _ => some kind }

/-- Whether the declaration of a class that counts is in the unit. -/
def owns (facade : Facade) (unit : Nat) (name : Name) : Bool :=
  (facade.class? name).any (·.unit == some unit)

end Facade

/-- How to alter a facade: what to hide, and the dispatch kind to force if any. -/
structure Alteration where
  hidden : List Question := []
  forced : Option DispatchKind := none

def Alteration.unchanged : Alteration := {}

/-- The altered facade. Hiding comes last, so it wins. -/
def Alteration.apply (alteration : Alteration) (facade : Facade) : Facade :=
  (match alteration.forced with
    | none => facade
    | some kind => facade.force kind).hide alteration.hidden

/-- The type of a name at a place: a local or parameter of the method if one is given, else a field
visible on the class. -/
def Annotations.typeOf (table : ClassTable) (notes : Annotations) (className : Name)
    (method : Option MethodRef) (name : Name) : Option Ty :=
  (method.bind fun method => notes.localType? method name).or
    (((table.lookupField className name).bind table.field?).map (·.type))

end ObjectLowering
