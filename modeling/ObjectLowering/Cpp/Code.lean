/-
**The C++ text of lowered bodies.**

Each lowered form has one C++ form. Operations and casts bring their own parentheses; an assignment,
a member access and a call bring none. A block with a result becomes a statement expression
`({ ...; result; })`, with its statements on one line.

* `exprText` is the text of an expression.
* `stmtLines` are the lines of a statement. A body between the braces of a branch, a loop or a
  routine is not `braced`: of a block only the statements count, and an absent body has no lines.
* `clauseText` is the text of a statement within the head of a loop, where only locals and
  expressions have one.
-/

import ObjectLowering.Cpp.Spelling
import ObjectLowering.Lowered.Layout
import ObjectLowering.Text.Style

namespace ObjectLowering.Cpp

open Lowered (Expr Stmt)
open Text (Line Style)

/-! ### Forms -/

/-- Texts behind one another with commas between them. -/
def commas (texts : List String) : String := ", ".intercalate texts

def parenthesized (text : String) : String := "(" ++ text ++ ")"

def callText (callee : String) (args : List String) : String :=
  callee ++ parenthesized (commas args)

def arrow (object member : String) : String := object ++ "->" ++ member

/-- A name in the scope of another. -/
def scope (outer name : String) : String := outer ++ "::" ++ name

/-- A member of what may be left out. -/
def arrowIfPresent (object : Option String) (member : String) : String :=
  match object with
  | none => member
  | some object => arrow object member

def unaryText (op : UnaryOp) (operand : String) : String :=
  if op.isPostfix then operand ++ op.symbol
  else if op.mutates then op.symbol ++ operand
  else parenthesized (op.symbol ++ operand)

def binaryText (op : BinaryOp) (left right : String) : String :=
  parenthesized (left ++ " " ++ op.symbol ++ " " ++ right)

/-- A cast: a reference is checked at run time. -/
def castText (options : EmitOptions) (type : Ty) (operand : String) : String :=
  if type.isReference then
    options.runtimeName "java_cast<" ++ options.type type ++ ">" ++ parenthesized operand
  else
    parenthesized (parenthesized (options.type type) ++ " " ++ operand)

/-- The call that gives the identity of a class. -/
def identityText (options : EmitOptions) (className : Name) : String :=
  callText (scope (options.structName className) "__class") []

/-- Console output of several texts. -/
def printText (newline : Bool) (args : List String) : String :=
  "std::cout" ++ String.join (args.map (" << " ++ ·)) ++ if newline then " << std::endl" else ""

/-- Statements and the expression that gives the value. -/
def blockText (body : List Line) (result : Option String) : String :=
  let result :=
    match result with
    | none => ""
    | some result => result ++ "; "
  "(\x7b " ++ Style.oneLine.layOut body ++ result ++ "\x7d)"

def localText (options : EmitOptions) (type : Ty) (name : Name) (init : Option String) : String :=
  let declared := options.type type ++ " " ++ name
  match init with
  | none => declared
  | some init => declared ++ " = " ++ init

/-- A head and its body between braces. -/
def bracedLines (level : Nat) (head : String) (body : List Line) (tail : List Line) : List Line :=
  ⟨level, head ++ "\x7b"⟩ :: body ++ tail

def closing (level : Nat) : List Line := [⟨level, "\x7d"⟩]

/-- The text if the expression is there. -/
def ifPresent (expr : Expr) (text : String) : Option String :=
  if expr.isAbsent then none else some text

/-! ### Printing -/

mutual

def exprText (options : EmitOptions) : Expr → String
  | .absent | .dangling => ""
  | .int _ value => intLiteral value
  | .float _ bits => floatLiteral bits
  | .bool _ value => if value then "true" else "false"
  | .char _ value => charLiteral value
  | .str _ text => callText (options.runtimeName "literal") [quoted text]
  | .null _ => callText (options.runtimeName "null") []
  | .localVar _ name => name
  | .field _ object name => arrow (exprText options object) name
  | .staticField _ className name => scope (options.structName className) name
  | .length _ array => arrow (exprText options array) "length"
  | .index _ array position =>
    parenthesized ("*" ++ exprText options array) ++ "[" ++ exprText options position ++ "]"
  | .assign _ target value => exprText options target ++ " = " ++ exprText options value
  | .binary _ op left right => binaryText op (exprText options left) (exprText options right)
  | .unary _ op operand => unaryText op (exprText options operand)
  | .cast _ type operand => castText options type (exprText options operand)
  | .instanceOf _ operand className =>
    callText (options.runtimeName "instanceOf")
      [exprText options operand, identityText options className]
  | .alloc _ className => callText ("new " ++ options.structName className) []
  | .initCall _ className args =>
    callText (scope (options.structName className) Reserved.init) (exprTexts options args)
  | .virtualCall _ receiver slot args =>
    callText (arrow (arrow (exprText options receiver) "__vptr") slot) (exprTexts options args)
  | .qualifiedCall _ className method args =>
    callText (scope (options.structName className) method) (exprTexts options args)
  | .directCall _ receiver method args =>
    callText (arrowIfPresent (ifPresent receiver (exprText options receiver)) method)
      (exprTexts options args)
  | .unresolvedCall _ receiver method args =>
    callText (arrowIfPresent (ifPresent receiver (exprText options receiver)) method)
      (exprTexts options args)
  | .check _ kind args =>
    callText (options.runtimeName kind.runtimeName) (exprTexts options args)
  | .arrayAlloc _ element size =>
    callText ("new " ++ options.arrayStruct element) [exprText options size]
  | .identity _ className => identityText options className
  | .print _ newline args => printText newline (exprTexts options args)
  | .block _ body result =>
    blockText (stmtsLines options 0 body) (ifPresent result (exprText options result))

/-- The texts of several expressions. -/
def exprTexts (options : EmitOptions) : List Expr → List String
  | [] => []
  | expr :: rest => exprText options expr :: exprTexts options rest

/-- The lines of a statement at a nesting level; a block that is not braced has only the lines of
its statements. -/
def stmtLines (options : EmitOptions) (level : Nat) (braced : Bool) : Stmt → List Line
  | .absent | .dangling => []
  | .eval expr => [⟨level, exprText options expr ++ ";"⟩]
  | .localVar type name init =>
    [⟨level, localText options type name (ifPresent init (exprText options init)) ++ ";"⟩]
  | .block body =>
    if braced then bracedLines level "" (stmtsLines options (level + 1) body) (closing level)
    else stmtsLines options level body
  | .branch cond yes no =>
    bracedLines level ("if " ++ parenthesized (exprText options cond) ++ " ")
      (stmtLines options (level + 1) false yes)
      (if no.isAbsent then closing level
       else bracedLines level "\x7d else " (stmtLines options (level + 1) false no) (closing level))
  | .whileLoop cond body =>
    bracedLines level ("while " ++ parenthesized (exprText options cond) ++ " ")
      (stmtLines options (level + 1) false body) (closing level)
  | .forLoop init cond update body =>
    let head := commas (clauseTexts options init) ++ "; " ++ exprText options cond ++ "; " ++
      commas (exprTexts options update)
    bracedLines level ("for " ++ parenthesized head ++ " ")
      (stmtLines options (level + 1) false body) (closing level)
  | .ret value =>
    if value.isAbsent then [⟨level, "return;"⟩]
    else [⟨level, "return " ++ exprText options value ++ ";"⟩]

/-- The lines of several statements. -/
def stmtsLines (options : EmitOptions) (level : Nat) : List Stmt → List Line
  | [] => []
  | stmt :: rest => stmtLines options level true stmt ++ stmtsLines options level rest

/-- The text of a statement within the head of a loop. -/
def clauseText (options : EmitOptions) : Stmt → String
  | .eval expr => exprText options expr
  | .localVar type name init =>
    localText options type name (ifPresent init (exprText options init))
  | _ => ""

/-- The texts of several statements within the head of a loop. -/
def clauseTexts (options : EmitOptions) : List Stmt → List String
  | [] => []
  | stmt :: rest => clauseText options stmt :: clauseTexts options rest

end

end ObjectLowering.Cpp
