/-
**Types of the language, and the widening of primitive values.**

There are no generics: a type is a primitive, a class named by its simple name, an array of another
type, or the type of the `null` literal.

* `Ty.rank?` is the place of a numeric type on the ladder byte, short, int, long, float, double;
  `char` stands beside `short`.
* `Ty.widens`: a type widens to itself and to a strictly higher place, except that `char`, `byte`
  and `short` never meet.
-/

import ObjectLowering.Name

namespace ObjectLowering

/-- A type as the source writes it. -/
inductive Ty where
  | void
  | boolean
  | byte
  | char
  | short
  | int
  | long
  | float
  | double
  /-- A class, by simple name. -/
  | class (name : Name)
  /-- An array whose elements have the given type. -/
  | array (element : Ty)
  /-- The type of the `null` literal. -/
  | null
  deriving DecidableEq, Repr, Inhabited

namespace Ty

/-- The provided string class. -/
def string : Ty := .class Reserved.string

/-- The root class. -/
def object : Ty := .class Reserved.object

/-- An array of the element type with the given number of levels. -/
def arrayOf (element : Ty) : Nat → Ty
  | 0 => element
  | levels + 1 => .array (arrayOf element levels)

/-- Whether the type is one of the eight primitive types. -/
def isPrimitive : Ty → Bool
  | .boolean | .byte | .char | .short | .int | .long | .float | .double => true
  | _ => false

/-- Whether values of the type are pointers at run time. -/
def isReference : Ty → Bool
  | .class _ | .array _ | .null => true
  | _ => false

/-- Whether the type is an array type. -/
def isArray : Ty → Bool
  | .array _ => true
  | _ => false

/-- The class that a class type names. -/
def className? : Ty → Option Name
  | .class name => some name
  | _ => none

/-- The element type of an array type. -/
def element? : Ty → Option Ty
  | .array element => some element
  | _ => none

def dims : Ty → Nat
  | .array element => element.dims + 1
  | _ => 0

/-- The innermost type that is not an array. -/
def base : Ty → Ty
  | .array element => element.base
  | other => other

/-- The place of a numeric type on the widening ladder. -/
def rank? : Ty → Option Nat
  | .byte => some 0
  | .short | .char => some 1
  | .int => some 2
  | .long => some 3
  | .float => some 4
  | .double => some 5
  | _ => none

def isNumeric (type : Ty) : Bool := type.rank?.isSome

/-- Identity or primitive widening. -/
def widens (source target : Ty) : Bool :=
  source == target ||
    match source, target with
    | .char, .short | .byte, .char | .short, .char => false
    | _, _ =>
      match source.rank?, target.rank? with
      | some low, some high => low < high
      | _, _ => false

/-- The type of an arithmetic operation: the higher of two numeric operands, at least `int`. -/
def promote? (left right : Ty) : Option Ty := do
  let low ← left.rank?
  let high ← right.rank?
  let rank := max low high
  if rank ≤ 2 then return .int
  else if rank = 3 then return .long
  else if rank = 4 then return .float
  else return .double

/-- The class whose members a value of the type has: an array has those of the root class. -/
def memberClass? : Ty → Option Name
  | .class name => some name
  | .array _ => some Reserved.object
  | _ => none

/-- The names that a type mentions: the class at its base, if there is one. -/
def mentions : Ty → List Name
  | .class name => [name]
  | .array element => element.mentions
  | _ => []

/-- What a diagnostic shows for a type. -/
def debug (names : NameTable) : Ty → String
  | .void => "Void"
  | .boolean => "Boolean"
  | .byte => "Byte"
  | .char => "Char"
  | .short => "Short"
  | .int => "Int"
  | .long => "Long"
  | .float => "Float"
  | .double => "Double"
  | .class name => "Class(" ++ names.debug name ++ ")"
  | .array element => "Array(" ++ element.debug names ++ ")"
  | .null => "Null"

/-! ### Array levels -/

theorem dims_arrayOf (element : Ty) (levels : Nat) :
    (arrayOf element levels).dims = element.dims + levels := by
  induction levels with
  | zero => rfl
  | succ levels step => simp [arrayOf, dims, step, Nat.add_assoc]

theorem base_arrayOf (element : Ty) (levels : Nat) :
    (arrayOf element levels).base = element.base := by
  induction levels with
  | zero => rfl
  | succ levels step => simp [arrayOf, base, step]

theorem widens_refl (type : Ty) : type.widens type = true := by simp [widens]

end Ty

end ObjectLowering
