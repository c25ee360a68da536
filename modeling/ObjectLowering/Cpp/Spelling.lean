/-
**How types and names are spelled in C++.**

A class stands for three C++ types: the smart pointer under its own name, the struct of its data
behind two underscores, and the struct of its vtable. The provided classes and the array types live
in the namespace of the run-time library.

* `EmitOptions.type` spells a type of the source language.
* `floatLiteral`, `intLiteral`, `charLiteral`, `quoted` spell literals.
-/

import ObjectLowering.Text.Decimal
import ObjectLowering.Text.Escape
import ObjectLowering.Ty

namespace ObjectLowering.Cpp

/-- Choices for printing. -/
structure EmitOptions where
  /-- Spaces per nesting level. -/
  indentWidth : Nat := 4
  /-- The namespace of the run-time library. -/
  runtime : String := "__rt"
  /-- The header of the run-time library. -/
  runtimeHeader : String := "clove_rt.h"
  /-- Put each unit into the namespaces of its package. -/
  namespaces : Bool := true
  /-- Print a `main` that calls the unit's entry point. -/
  entryWrapper : Bool := true
  deriving DecidableEq, Repr

namespace EmitOptions

/-- Whether the run-time library provides the class. -/
def isRuntimeClass (className : Name) : Bool :=
  className == Reserved.object || className == Reserved.string ||
    className == Reserved.classIdentity

/-- A name in the namespace of the run-time library. -/
def runtimeName (options : EmitOptions) (name : String) : String :=
  options.runtime ++ "::" ++ name

/-- A name in the namespace of its class. -/
def classScoped (options : EmitOptions) (className : Name) (name : String) : String :=
  if isRuntimeClass className then options.runtimeName name else name

/-- The pointer type for objects of a class. -/
def classRef (options : EmitOptions) (className : Name) : String :=
  options.classScoped className className

def structName (options : EmitOptions) (className : Name) : String :=
  options.classScoped className ("__" ++ className)

/-- The struct of a class's vtable. -/
def vtableName (options : EmitOptions) (className : Name) : String :=
  options.structName className ++ "_VT"

def type (options : EmitOptions) : Ty → String
  | .void => "void"
  | .boolean => "bool"
  | .byte => "int8_t"
  | .char => "char"
  | .short => "int16_t"
  | .int => "int32_t"
  | .long => "int64_t"
  | .float => "float"
  | .double => "double"
  | .class className => options.classRef className
  | .array element => options.runtimeName "Array<" ++ options.type element ++ ">"
  | .null => options.classRef Reserved.object

/-- The struct behind an array with elements of a type. -/
def arrayStruct (options : EmitOptions) (element : Ty) : String :=
  options.runtimeName "__Array<" ++ options.type element ++ ">"

end EmitOptions

/-- An integer; one that does not fit 32 bits is marked as long. -/
def intLiteral (value : Int) : String :=
  toString value ++
    if -2147483648 ≤ value && value ≤ 2147483647 then "" else "LL"

/-- A floating-point number; what has no literal is a quotient. -/
def floatLiteral (bits : UInt64) : String :=
  if Text.isNaN bits then "(0.0 / 0.0)"
  else if Text.isInfinite bits then
    if Text.isNegative bits then "(-1.0 / 0.0)" else "(1.0 / 0.0)"
  else Text.floatText bits

/-- The quote of a character literal. -/
def singleQuote : Char := Char.ofNat 39

/-- A character; one that is not ASCII is given by its number. -/
def charLiteral (char : Char) : String :=
  if char.toNat < 128 then
    let quote := String.singleton singleQuote
    quote ++ Text.escape singleQuote (String.singleton char) ++ quote
  else
    "(char) " ++ toString char.toNat

def quoted (text : String) : String := "\"" ++ Text.escape '"' text ++ "\""

end ObjectLowering.Cpp
