/-
**Running lowered expressions that make arrays.**

An expression is evaluated in a memory: the locals in scope, the arrays that were made, and the rest
of the world, which is not looked into. Forms that have nothing to do with locals and new arrays are
left to a function that the evaluation is given. A loop may take a limited number of rounds; a run
that needs more has no result, nor has one that fails a check.

* `Value`, `Cells`, `Memory`: what a run works on.
* `Lowered.Expr.eval`, `Lowered.Stmt.exec`: the run of an expression and of a statement.
* `Memory.lookup_declare_of_ne`, `Memory.lookup_extend`, …: what reads see after writes.
* **`Lowered.Stmt.exec_forLoop`**: a loop, round by round.
-/

import Mathlib.Data.List.Forall2
import ObjectLowering.Hierarchy.Initializers
import ObjectLowering.Proofs.Temporaries.Declarations

namespace ObjectLowering

/-- A value at run time. An object is known by a number alone. -/
inductive Value where
  | int (value : Int)
  | float (bits : UInt64)
  | bool (value : Bool)
  | char (value : Char)
  | null
  | object (reference : Nat)
  | array (address : Nat)
  deriving DecidableEq, Repr

/-- The value before anything is stored. -/
def Value.initial : DefaultLiteral → Value
  | .int => .int 0
  | .float => .float 0
  | .bool => .bool false
  | .char => .char (Char.ofNat 0)
  | .null => .null

/-- An array: the type of its elements, and the elements. -/
structure Cells where
  element : Ty
  items : List Value
  deriving DecidableEq, Repr

/-- A new array. -/
def Cells.new (element : Ty) (length : Nat) : Cells :=
  ⟨element, List.replicate length (.initial (.ofType element))⟩

/-- The array with another element at a position, if there is one. -/
def Cells.put (cells : Cells) (position : Int) (value : Value) : Option Cells :=
  if 0 ≤ position ∧ position < cells.items.length then
    some { cells with items := cells.items.set position.toNat value }
  else none

/-- The locals in scope, the innermost first, the arrays by address, and the rest of the world. -/
structure Memory (ω : Type) where
  locals : List (Name × Value)
  arrays : List Cells
  world : ω

namespace Memory

variable {ω : Type}

def lookup (memory : Memory ω) (name : Name) : Option Value := memory.locals.lookup name

/-- Brings a local into scope. -/
def declare (memory : Memory ω) (name : Name) (value : Value) : Memory ω :=
  { memory with locals := (name, value) :: memory.locals }

/-- Gives the innermost local of a name another value. -/
def overwrite (name : Name) (value : Value) : List (Name × Value) → Option (List (Name × Value))
  | [] => none
  | (declared, held) :: around =>
    if declared == name then some ((declared, value) :: around)
    else (overwrite name value around).map ((declared, held) :: ·)

def assign (memory : Memory ω) (name : Name) (value : Value) : Option (Memory ω) :=
  (overwrite name value memory.locals).map fun locals => { memory with locals }

/-- Takes the locals out of scope that were declared around fewer others. -/
def leave (memory : Memory ω) (depth : Nat) : Memory ω :=
  { memory with locals := memory.locals.drop (memory.locals.length - depth) }

/-- The value of a local, which is then one more. -/
def increment (memory : Memory ω) (name : Name) : Option (Value × Memory ω) :=
  match memory.lookup name with
  | some (.int value) => (memory.assign name (.int (value + 1))).map (.int value, ·)
  | _ => none

def less (memory : Memory ω) (left right : Value) : Option (Value × Memory ω) :=
  match left, right with
  | .int left, .int right => some (.bool (left < right), memory)
  | _, _ => none

/-- A length, unless it is negative. -/
def checkLength (memory : Memory ω) : Value → Option (Value × Memory ω)
  | .int length => if length < 0 then none else some (.int length, memory)
  | _ => none

/-- A new array at the next address. -/
def allocate (memory : Memory ω) (element : Ty) : Value → Option (Value × Memory ω)
  | .int length =>
    if length < 0 then none
    else some (.array memory.arrays.length,
      { memory with arrays := memory.arrays ++ [.new element length.toNat] })
  | _ => none

/-- Stores an element of an array. -/
def store (memory : Memory ω) (array position value : Value) : Option (Memory ω) :=
  match array, position with
  | .array address, .int position => do
    let cells ← memory.arrays[address]?
    let cells ← cells.put position value
    return { memory with arrays := memory.arrays.set address cells }
  | _, _ => none

/-- Runs a loop for at most so many rounds. -/
def rounds (more : Memory ω → Option (Value × Memory ω)) (round : Memory ω → Option (Memory ω)) :
    Nat → Memory ω → Option (Memory ω)
  | 0, _ => none
  | limit + 1, memory =>
    match more memory with
    | some (.bool true, memory) => (round memory).bind (rounds more round limit)
    | some (.bool false, memory) => some memory
    | _ => none

end Memory

namespace Lowered

variable {ω : Type} (others : Expr → Memory ω → Option (Value × Memory ω)) (limit : Nat)

mutual

/-- Evaluates an expression. Operands are evaluated from left to right. -/
def Expr.eval : Expr → Memory ω → Option (Value × Memory ω)
  | .int _ value, memory => some (.int value, memory)
  | .float _ bits, memory => some (.float bits, memory)
  | .bool _ value, memory => some (.bool value, memory)
  | .char _ value, memory => some (.char value, memory)
  | .null _, memory => some (.null, memory)
  | .localVar _ name, memory => (memory.lookup name).map (·, memory)
  | .assign span target value, memory =>
    match target with
    | .localVar _ name => do
      let (result, memory) ← value.eval memory
      let memory ← memory.assign name result
      return (result, memory)
    | .index _ array position => do
      let (array, memory) ← array.eval memory
      let (position, memory) ← position.eval memory
      let (result, memory) ← value.eval memory
      let memory ← memory.store array position result
      return (result, memory)
    | target => others (.assign span target value) memory
  | .binary span op left right, memory =>
    match op with
    | .less => do
      let (left, memory) ← left.eval memory
      let (right, memory) ← right.eval memory
      memory.less left right
    | op => others (.binary span op left right) memory
  | .unary span op operand, memory =>
    match op, operand with
    | .postIncrement, .localVar _ name => memory.increment name
    | op, operand => others (.unary span op operand) memory
  | .check span kind args, memory =>
    match kind, args with
    | .negativeLength, [size] => do
      let (length, memory) ← size.eval memory
      memory.checkLength length
    | kind, args => others (.check span kind args) memory
  | .arrayAlloc _ element size, memory => do
    let (length, memory) ← size.eval memory
    memory.allocate element length
  | .block _ body result, memory => do
    let inside ← Stmt.execAll body memory
    let (value, after) ← result.eval inside
    return (value, after.leave memory.locals.length)
  | expr, memory => others expr memory

/-- Evaluates expressions one after the other for their effects. -/
def Expr.evalAll : List Expr → Memory ω → Option (Memory ω)
  | [], memory => some memory
  | expr :: rest, memory => ((expr.eval memory).map (·.2)).bind (Expr.evalAll rest)

/-- Runs a statement. Expressions are lowered to these four kinds only. -/
def Stmt.exec : Stmt → Memory ω → Option (Memory ω)
  | .eval expr, memory => (expr.eval memory).map (·.2)
  | .localVar _ name init, memory => (init.eval memory).map fun result =>
    result.2.declare name result.1
  | .block body, memory =>
    (Stmt.execAll body memory).map (·.leave memory.locals.length)
  | .forLoop init cond update body, memory =>
    ((Stmt.execAll init memory).bind (Memory.rounds (fun memory => cond.eval memory)
      (fun memory => (body.exec memory).bind (Expr.evalAll update)) limit)).map
        (·.leave memory.locals.length)
  | _, _ => none

def Stmt.execAll : List Stmt → Memory ω → Option (Memory ω)
  | [], memory => some memory
  | stmt :: rest, memory => do
    let memory ← stmt.exec memory
    Stmt.execAll rest memory

end

end Lowered

/-! ### Reads after writes -/

namespace Memory

variable {ω : Type} {memory : Memory ω} {name other : Name} {value held : Value}

theorem lookup_declare_self (memory : Memory ω) (name : Name) (value : Value) :
    (memory.declare name value).lookup name = some value := List.lookup_cons_self

theorem lookup_declare_of_ne (memory : Memory ω) (value : Value) (different : other ≠ name) :
    (memory.declare name value).lookup other = memory.lookup other := by
  show List.lookup other ((name, value) :: memory.locals) = _
  rw [List.lookup_cons, beq_eq_false_iff_ne.mpr different]
  rfl

/-- The innermost local is given a value where it stands. -/
theorem assign_declare_self (memory : Memory ω) (name : Name) (held value : Value) :
    (memory.declare name held).assign name value = some (memory.declare name value) := by
  unfold assign declare overwrite
  rw [if_pos (beq_self_eq_true name)]
  rfl

/-- More locals in scope, and more arrays. -/
def extend (memory : Memory ω) (front : List (Name × Value)) (cells : List Cells) : Memory ω :=
  ⟨front ++ memory.locals, memory.arrays ++ cells, memory.world⟩

theorem extend_nil (memory : Memory ω) : memory.extend [] [] = memory := by
  unfold extend
  rw [List.nil_append, List.append_nil]

theorem extend_append (memory : Memory ω) (front back : List (Name × Value)) :
    memory.extend (front ++ back) [] = (memory.extend back []).extend front [] := by
  unfold extend
  simp only [List.append_assoc, List.append_nil]

theorem lookup_extend {front : List (Name × Value)} (memory : Memory ω) (cells : List Cells)
    (apart : ∀ entry ∈ front, name ≠ entry.1) :
    (memory.extend front cells).lookup name = memory.lookup name := by
  show (front ++ memory.locals).lookup name = memory.locals.lookup name
  induction front with
  | nil => rfl
  | cons entry rest step =>
    rw [List.forall_mem_cons] at apart
    rw [List.cons_append, List.lookup_cons, beq_eq_false_iff_ne.mpr apart.1]
    exact step apart.2

/-- Behind a scope its locals are gone, and those around it are left. -/
theorem leave_append (front locals : List (Name × Value)) (arrays : List Cells) (world : ω) :
    (⟨front ++ locals, arrays, world⟩ : Memory ω).leave locals.length =
      ⟨locals, arrays, world⟩ := by
  unfold leave
  rw [List.length_append, Nat.add_sub_cancel, List.drop_left]

theorem allocate_ofNat (memory : Memory ω) (element : Ty) (length : Nat) :
    memory.allocate element (.int length) =
      some (.array memory.arrays.length, memory.extend [] [.new element length]) := by
  rw [allocate, if_neg (Int.not_lt.mpr (Int.natCast_nonneg length)), Int.toNat_natCast]
  rfl

theorem checkLength_ofNat (memory : Memory ω) (length : Nat) :
    memory.checkLength (.int length) = some (.int length, memory) := by
  rw [checkLength, if_neg (Int.not_lt.mpr (Int.natCast_nonneg length))]

/-- Stores an element of the first of some arrays. -/
theorem store_append {locals : List (Name × Value)} {arrays behind : List Cells} {cells : Cells}
    {world : ω} {position : Nat} (inside : position < cells.items.length) (value : Value) :
    (⟨locals, arrays ++ cells :: behind, world⟩ : Memory ω).store (.array arrays.length)
      (.int position) value =
        some ⟨locals, arrays ++ ⟨cells.element, cells.items.set position value⟩ :: behind,
          world⟩ := by
  have found : (arrays ++ cells :: behind)[arrays.length]? = some cells := by
    rw [List.getElem?_append_right (Nat.le_refl _), Nat.sub_self]
    rfl
  have put : cells.put position value = some ⟨cells.element, cells.items.set position value⟩ :=
    if_pos ⟨Int.natCast_nonneg position, Int.ofNat_lt.mpr inside⟩
  unfold store
  dsimp only
  rw [found, Option.bind_eq_bind, Option.bind_some, put, Option.bind_some,
    List.set_append_right _ _ (Nat.le_refl _), Nat.sub_self]
  rfl

variable {more : Memory ω → Option (Value × Memory ω)} {round : Memory ω → Option (Memory ω)}

theorem rounds_of_steps (states : Nat → Memory ω) {count limit : Nat} (below : count < limit)
    (goes : ∀ done < count, more (states done) = some (.bool true, states done))
    (steps : ∀ done < count, round (states done) = some (states (done + 1)))
    (stops : more (states count) = some (.bool false, states count)) :
    rounds more round limit (states 0) = some (states count) := by
  induction count generalizing states limit with
  | zero =>
    obtain ⟨limit, rfl⟩ := Nat.exists_eq_add_of_lt below
    rw [Nat.zero_add, rounds, stops]
  | succ count induct =>
    obtain ⟨limit, rfl⟩ := Nat.exists_eq_succ_of_ne_zero (Nat.ne_zero_of_lt below)
    rw [rounds, goes 0 (Nat.succ_pos count)]
    dsimp only
    rw [steps 0 (Nat.succ_pos count), Option.bind_some]
    exact induct (states <| · + 1) (Nat.lt_of_succ_lt_succ below)
      (fun done less => goes (done + 1) (Nat.succ_lt_succ less))
      (fun done less => steps (done + 1) (Nat.succ_lt_succ less)) stops

end Memory

namespace Lowered

variable {ω : Type} {others : Expr → Memory ω → Option (Value × Memory ω)} {limit : Nat}

/-! ### Forms -/

namespace Expr

variable {memory after last : Memory ω} {name : Name} {value : Value} {span : Span} {length : Int}

theorem eval_localVar (found : memory.lookup name = some value) :
    (localVar span name).eval others limit memory = some (value, memory) :=
  congrArg (Option.map (·, memory)) found

theorem eval_less {left right : Expr} {low high : Int}
    (first : left.eval others limit memory = some (.int low, after))
    (second : right.eval others limit after = some (.int high, last)) :
    (binary span .less left right).eval others limit memory =
      some (.bool (low < high), last) :=
  Option.bind_eq_some_iff.mpr ⟨_, first, Option.bind_eq_some_iff.mpr ⟨_, second, rfl⟩⟩

theorem eval_postIncrement (found : memory.lookup name = some (.int length))
    (assigned : memory.assign name (.int (length + 1)) = some after) :
    (unary span .postIncrement (localVar span name)).eval others limit memory =
      some (.int length, after) := by
  show memory.increment name = _
  rw [Memory.increment, found]
  exact congrArg (Option.map _) assigned

theorem eval_arrayAlloc {size : Expr} (element : Ty)
    (sized : size.eval others limit memory = some (value, after)) :
    (arrayAlloc span element size).eval others limit memory = after.allocate element value := by
  show Option.bind _ _ = _
  rw [sized]
  rfl

/-- A length that is not negative passes its check. -/
theorem eval_negativeLength {size : Expr} {length : Nat}
    (sized : size.eval others limit memory = some (.int length, after)) :
    (check span .negativeLength [size]).eval others limit memory = some (.int length, after) :=
  Option.bind_eq_some_iff.mpr ⟨_, sized, after.checkLength_ofNat length⟩

/-- An element is stored in an array that is at hand, at a position that is at hand. -/
theorem eval_assign_index (span : Span) {array position : Name} {stored : Expr}
    {address place : Value}
    (first : memory.lookup array = some address) (second : memory.lookup position = some place)
    (third : stored.eval others limit memory = some (value, after))
    (stores : after.store address place value = some last) :
    (assign span (index span (localVar span array) (localVar span position)) stored).eval others
      limit memory = some (value, last) := by
  refine Option.bind_eq_some_iff.mpr ⟨_, eval_localVar first, ?_⟩
  refine Option.bind_eq_some_iff.mpr ⟨_, eval_localVar second, ?_⟩
  refine Option.bind_eq_some_iff.mpr ⟨_, third, ?_⟩
  exact Option.bind_eq_some_iff.mpr ⟨_, stores, rfl⟩

theorem eval_block {body : List Stmt} {result : Expr}
    (runs : Stmt.execAll others limit body memory = some after)
    (ends : result.eval others limit after = some (value, last)) :
    (block span body result).eval others limit memory =
      some (value, last.leave memory.locals.length) :=
  Option.bind_eq_some_iff.mpr ⟨_, runs, Option.bind_eq_some_iff.mpr ⟨_, ends, rfl⟩⟩

theorem evalAll_cons {expr : Expr} {rest : List Expr}
    (first : expr.eval others limit memory = some (value, after)) :
    evalAll others limit (expr :: rest) memory = evalAll others limit rest after :=
  congrArg (fun run => (run.map (·.2)).bind (evalAll others limit rest)) first

end Expr

namespace Stmt

variable {memory middle after : Memory ω}

theorem execAll_nil : execAll others limit [] memory = some memory := rfl

theorem execAll_cons {stmt : Stmt} {rest : List Stmt}
    (first : stmt.exec others limit memory = some middle) :
    execAll others limit (stmt :: rest) memory = execAll others limit rest middle :=
  congrArg (Option.bind · (execAll others limit rest)) first

theorem execAll_append {stmts rest : List Stmt}
    (first : execAll others limit stmts memory = some middle) :
    execAll others limit (stmts ++ rest) memory = execAll others limit rest middle := by
  induction stmts generalizing memory with
  | nil =>
    cases first
    rfl
  | cons stmt stmts step =>
    obtain ⟨next, here, there⟩ := Option.bind_eq_some_iff.mp first
    exact (execAll_cons here).trans (step there)

theorem exec_localVar {init : Expr} {value : Value} (type : Ty) (name : Name)
    (given : init.eval others limit memory = some (value, after)) :
    (localVar type name init).exec others limit memory = some (after.declare name value) :=
  Option.map_eq_some_iff.mpr ⟨_, given, rfl⟩

theorem exec_eval {expr : Expr} {value : Value}
    (evaluated : expr.eval others limit memory = some (value, after)) :
    (eval expr).exec others limit memory = some after :=
  Option.map_eq_some_iff.mpr ⟨_, evaluated, rfl⟩

theorem exec_block {body : List Stmt} (runs : execAll others limit body memory = some after) :
    (block body).exec others limit memory = some (after.leave memory.locals.length) :=
  Option.map_eq_some_iff.mpr ⟨_, runs, rfl⟩

/-- **A loop that takes a known number of rounds**, each from one memory to the next. -/
theorem exec_forLoop {init : List Stmt} {cond : Expr} {update : List Expr} {body : Stmt}
    (states : Nat → Memory ω) {count : Nat} (below : count < limit)
    (opens : execAll others limit init memory = some (states 0))
    (goes : ∀ done < count,
      cond.eval others limit (states done) = some (.bool true, states done))
    (steps : ∀ done < count, (body.exec others limit (states done)).bind
      (Expr.evalAll others limit update) = some (states (done + 1)))
    (stops : cond.eval others limit (states count) = some (.bool false, states count)) :
    (forLoop init cond update body).exec others limit memory =
      some ((states count).leave memory.locals.length) := by
  refine Option.map_eq_some_iff.mpr ⟨_, Option.bind_eq_some_iff.mpr ⟨_, opens, ?_⟩, rfl⟩
  exact Memory.rounds_of_steps states below goes steps stops

end Stmt

end Lowered

end ObjectLowering
