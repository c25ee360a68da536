/-
**Operators of the source language, which the lowered form keeps.**
-/

namespace ObjectLowering

/-- An operator between two operands. -/
inductive BinaryOp where
  | add
  | sub
  | mul
  | div
  | rem
  | equal
  | notEqual
  | less
  | lessEqual
  | greater
  | greaterEqual
  | both
  | either
  deriving DecidableEq, Repr

namespace BinaryOp

/-- Whether the operator compares its operands. -/
def isComparison : BinaryOp → Bool
  | .equal | .notEqual | .less | .lessEqual | .greater | .greaterEqual => true
  | _ => false

/-- Whether the operator joins two truth values. -/
def isLogical : BinaryOp → Bool
  | .both | .either => true
  | _ => false

def symbol : BinaryOp → String
  | .add => "+"
  | .sub => "-"
  | .mul => "*"
  | .div => "/"
  | .rem => "%"
  | .equal => "=="
  | .notEqual => "!="
  | .less => "<"
  | .lessEqual => "<="
  | .greater => ">"
  | .greaterEqual => ">="
  | .both => "&&"
  | .either => "||"

def all : List BinaryOp :=
  [.add, .sub, .mul, .div, .rem, .equal, .notEqual, .less, .lessEqual, .greater, .greaterEqual,
    .both, .either]

/-- The operator that is written so. -/
def ofSymbol? (text : String) : Option BinaryOp := all.find? (·.symbol == text)

end BinaryOp

/-- An operator on one operand. -/
inductive UnaryOp where
  | negate
  | complement
  | preIncrement
  | preDecrement
  | postIncrement
  | postDecrement
  deriving DecidableEq, Repr

namespace UnaryOp

/-- Whether the operator writes its operand. -/
def mutates : UnaryOp → Bool
  | .negate | .complement => false
  | _ => true

/-- Whether the operator stands behind its operand. -/
def isPostfix : UnaryOp → Bool
  | .postIncrement | .postDecrement => true
  | _ => false

/-- The sign of the operator, wherever it stands. -/
def symbol : UnaryOp → String
  | .negate => "-"
  | .complement => "!"
  | .preIncrement | .postIncrement => "++"
  | .preDecrement | .postDecrement => "--"

end UnaryOp

/-- Which class a constructor hands the receiver on to. -/
inductive ChainTarget where
  /-- Another constructor of the same class. -/
  | this
  /-- A constructor of the direct superclass. -/
  | super
  deriving DecidableEq, Repr

end ObjectLowering
