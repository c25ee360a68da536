/-
**The C++ files of a lowered unit.**

A unit becomes a header with its declarations and a body with its definitions. For each class the
header declares the struct of its data and the struct of its vtable; the body defines the raw
constructor, the static fields, the identity, the vtable and the routines. A unit with an entry
point may also get a process `main`, which passes on the arguments of the command line.

* `headerName` names the header after the last name of the unit's path.
* `headerText`, `bodyText` are the two texts.
* `emitUnit?` prints a unit unless a part of it is missing.
-/

import ObjectLowering.Cpp.Code
import ObjectLowering.Source.Path

namespace ObjectLowering.Cpp

open Lowered (Expr Stmt DataMember MemberInit StaticStorage Method ClassLayout TreeUnit)
open Text (Line Style)

/-- The printed files of a unit. -/
structure EmittedUnit where
  /-- The path of the source. -/
  path : String
  /-- The name under which other files include the header. -/
  headerName : String
  header : String
  body : String
  deriving DecidableEq, Repr

/-- The header of the unit with a path. -/
def headerName (path : String) : String := (Source.Path.stem? path).getD "unit" ++ ".h"

def includeLine (header : String) : Line := ⟨0, "#include \"" ++ header ++ "\""⟩

/-- A text made of lines; it ends in one line break and no empty line. -/
def fileText (options : EmitOptions) (lines : List Line) : String :=
  Text.ensureNewline (Text.trimBlankLines ((Style.lines options.indentWidth).layOut lines))

/-! ### Namespaces -/

def namespacesOf (options : EmitOptions) (package : List Name) : List Name :=
  if options.namespaces then package else []

/-- Opens the namespaces of a package. -/
def openNamespaces (options : EmitOptions) (package : List Name) : List Line :=
  let names := namespacesOf options package
  names.map (fun name => ⟨0, "namespace " ++ name ++ " \x7b"⟩) ++
    if names.isEmpty then [] else [.blank]

/-- Closes the namespaces of a package, the innermost first. -/
def closeNamespaces (options : EmitOptions) (package : List Name) : List Line :=
  (namespacesOf options package).reverse.map fun name => ⟨0, "\x7d // namespace " ++ name⟩

/-- A name as it is seen from outside the namespaces of a package. -/
def fromOutside (options : EmitOptions) (package : List Name) (name : String) : String :=
  String.join ((namespacesOf options package).map (scope · "")) ++ name

/-! ### Declarations -/

/-- The declarations that make the types of a class known. -/
def forwardLines (options : EmitOptions) (layout : ClassLayout Expr Stmt) : List Line :=
  let struct := options.structName layout.name
  [⟨0, "struct " ++ struct ++ ";"⟩,
   ⟨0, "struct " ++ options.vtableName layout.name ++ ";"⟩,
   ⟨0, "typedef " ++ options.runtimeName "Ptr<" ++ struct ++ "> " ++
     options.classRef layout.name ++ ";"⟩]

def memberText (options : EmitOptions) (className : Name) : DataMember → String
  | .vtablePtr => options.vtableName className ++ "* __vptr;"
  | .field name type _ => options.type type ++ " " ++ name ++ ";"

/-- The result type, the name and the parameters of a routine. -/
def signature (options : EmitOptions) (name : String) (method : Method Stmt) : String :=
  options.type method.ret ++ " " ++
    callText name (method.params.map fun param => options.type param.type ++ " " ++ param.name)

/-- The declarations of the static fields, behind an empty line. -/
def staticLines (options : EmitOptions) (statics : List (StaticStorage Expr)) : List Line :=
  if statics.isEmpty then []
  else .blank :: statics.map fun storage =>
    ⟨1, "static " ++ options.type storage.type ++ " " ++ storage.name ++ ";"⟩

def dataStruct (options : EmitOptions) (layout : ClassLayout Expr Stmt) : List Line :=
  let struct := options.structName layout.name
  [⟨0, "struct " ++ struct ++ " \x7b"⟩] ++
    layout.data.map (fun member => ⟨1, memberText options layout.name member⟩) ++
    [.blank, ⟨1, callText struct [] ++ ";"⟩] ++
    staticLines options layout.statics ++
    [.blank] ++
    layout.routines.map (fun method =>
      ⟨1, "static " ++ signature options method.name method ++ ";"⟩) ++
    [.blank,
     ⟨1, "static " ++ options.classRef Reserved.classIdentity ++ " __class();"⟩,
     ⟨1, "static " ++ options.vtableName layout.name ++ " __vtable;"⟩,
     ⟨0, "\x7d;"⟩]

/-- The parameter types of a slot: the class that introduced it, then the declared ones. -/
def slotParams (options : EmitOptions) (slot : VtableSlot) : String :=
  commas (options.classRef slot.declaredIn :: slot.params.map options.type)

def bindingText (options : EmitOptions) (layout : ClassLayout Expr Stmt) (binding : SlotBinding) :
    String :=
  let address := "&" ++ scope (options.structName binding.owner) binding.implName
  let cast :=
    match if binding.needsCast then layout.slot? binding.slot else none with
    | none => ""
    | some slot =>
      parenthesized (options.type slot.ret ++ "(*)" ++ parenthesized (slotParams options slot)) ++
        " "
  callText binding.slot [cast ++ address]

/-- Initializers of members, a comma behind each but the last, which an empty body follows. -/
def withEmptyBody : List String → List String
  | [] => []
  | [last] => [last ++ " \x7b\x7d"]
  | first :: rest => (first ++ ",") :: withEmptyBody rest

/-- The struct of a class's vtable. -/
def vtableStruct (options : EmitOptions) (layout : ClassLayout Expr Stmt) : List Line :=
  let struct := options.vtableName layout.name
  [⟨0, "struct " ++ struct ++ " \x7b"⟩,
   ⟨1, options.classRef Reserved.classIdentity ++ " __is_a;"⟩] ++
    layout.slots.map (fun slot =>
      ⟨1, options.type slot.ret ++ " (*" ++ slot.name ++ ")" ++
        parenthesized (slotParams options slot) ++ ";"⟩) ++
    [.blank, ⟨1, callText struct []⟩] ++
    (withEmptyBody
      ((": " ++ callText "__is_a" [identityText options layout.name]) ::
        layout.bindings.map fun binding => "  " ++ bindingText options layout binding)).map
      (⟨2, ·⟩) ++
    [⟨0, "\x7d;"⟩]

def headerLines (options : EmitOptions) (unit : TreeUnit) : List Line :=
  [⟨0, "#pragma once"⟩, .blank, includeLine options.runtimeHeader] ++
    unit.imports.map (fun path => includeLine (headerName path)) ++
    [.blank] ++
    openNamespaces options unit.package ++
    unit.classes.flatMap (forwardLines options) ++
    unit.classes.flatMap (fun layout =>
      .blank :: dataStruct options layout ++ .blank :: vtableStruct options layout) ++
    [.blank] ++
    closeNamespaces options unit.package

/-! ### Definitions -/

/-- How the raw constructor sets a member. -/
def memberInitText (options : EmitOptions) : MemberInit Expr → String
  | .vtablePtr => "__vptr(&__vtable)"
  | .field name value => callText name [exprText options value]

/-- The definition of the raw constructor. -/
def constructorLines (options : EmitOptions) (layout : ClassLayout Expr Stmt) : List Line :=
  let struct := options.structName layout.name
  [⟨0, callText (scope struct struct) [] ++ " : " ++
     commas (layout.ctor.map (memberInitText options)) ++ " \x7b\x7d"⟩,
   .blank]

/-- The definitions of the static fields, before an empty line. -/
def storageLines (options : EmitOptions) (layout : ClassLayout Expr Stmt) : List Line :=
  if layout.statics.isEmpty then []
  else layout.statics.map (fun storage =>
    ⟨0, options.type storage.type ++ " " ++ scope (options.structName layout.name) storage.name ++
      " = " ++ exprText options storage.init ++ ";"⟩) ++ [.blank]

/-- The definition of the function that gives the identity of a class. -/
def identityLines (options : EmitOptions) (layout : ClassLayout Expr Stmt) : List Line :=
  let identity := layout.identity
  let type := options.classRef Reserved.classIdentity
  let made := callText (options.structName Reserved.classIdentity)
    [callText (options.runtimeName "literal") [quoted identity.qualified],
     identityText options identity.parent]
  [⟨0, type ++ " " ++ identityText options layout.name ++ " \x7b"⟩,
   ⟨1, "static " ++ type ++ " k = new " ++ made ++ ";"⟩,
   ⟨1, "return k;"⟩,
   ⟨0, "\x7d"⟩,
   .blank]

def routineLines (options : EmitOptions) (className : Name) (method : Method Stmt) : List Line :=
  let name := scope (options.structName className) method.name
  ⟨0, signature options name method ++ " \x7b"⟩ ::
    stmtLines options 1 false method.body ++ [⟨0, "\x7d"⟩, .blank]

def classLines (options : EmitOptions) (layout : ClassLayout Expr Stmt) : List Line :=
  constructorLines options layout ++ storageLines options layout ++
    identityLines options layout ++
    [⟨0, options.vtableName layout.name ++ " " ++
       scope (options.structName layout.name) "__vtable;"⟩,
     .blank] ++
    layout.routines.flatMap (routineLines options layout.name)

/-- The first entry point of a unit. -/
def entry? (unit : TreeUnit) : Option (ClassLayout Expr Stmt × Method Stmt) :=
  unit.classes.findSome? fun layout =>
    (layout.methods.find? (·.kind == .entry)).map (layout, ·)

/-- The process `main`, which passes its arguments on as an array if the entry point takes one. -/
def mainLines (options : EmitOptions) (unit : TreeUnit) : List Line :=
  match entry? unit with
  | none => []
  | some (layout, method) =>
    let target := fromOutside options unit.package
      (scope (options.structName layout.name) method.name)
    let text := options.classRef Reserved.string
    let body : List Line :=
      if method.params.isEmpty then
        [⟨1, "return " ++ callText target [] ++ ";"⟩]
      else
        [⟨1, options.runtimeName "Array<" ++ text ++ "> args = new " ++
           options.runtimeName "__Array<" ++ text ++ ">(argc - 1);"⟩,
         ⟨1, "for (int32_t i = 1; i < argc; i++) \x7b"⟩,
         ⟨2, "(*args)[i - 1] = " ++ options.runtimeName "literal" ++ "(argv[i]);"⟩,
         ⟨1, "\x7d"⟩,
         ⟨1, "return " ++ callText target ["args"] ++ ";"⟩]
    [.blank, ⟨0, "int main(int argc, char* argv[]) \x7b"⟩] ++ body ++ [⟨0, "\x7d"⟩]

def bodyLines (options : EmitOptions) (unit : TreeUnit) : List Line :=
  [includeLine (headerName unit.path), .blank, ⟨0, "#include <iostream>"⟩, .blank] ++
    openNamespaces options unit.package ++
    unit.classes.flatMap (classLines options) ++
    closeNamespaces options unit.package ++
    if options.entryWrapper then mainLines options unit else []

/-! ### Files -/

def headerText (options : EmitOptions) (unit : TreeUnit) : String :=
  fileText options (headerLines options unit)

def bodyText (options : EmitOptions) (unit : TreeUnit) : String :=
  fileText options (bodyLines options unit)

/-- Whether printing the definitions of a class meets no missing part. -/
def isReadable (layout : ClassLayout Expr Stmt) : Bool :=
  layout.ctor.all (fun member => member.value?.all (·.isReadable)) &&
    layout.statics.all (·.init.isReadable) &&
    layout.routines.all fun method => method.body.isAbsent || method.body.isReadable

/-- Prints a unit; it cannot be printed where a part is missing. -/
def emitUnit? (options : EmitOptions) (unit : TreeUnit) : Option EmittedUnit :=
  if unit.classes.all isReadable then
    some ⟨unit.path, headerName unit.path, headerText options unit, bodyText options unit⟩
  else
    none

end ObjectLowering.Cpp
