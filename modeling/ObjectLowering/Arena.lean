/-
**Numbered nodes and windows of lists.**

An arena numbers expressions and statements in the order in which they are added. Lists of numbers
lie one behind the other in two flat stores; a list is then a window, its start and its length. A
window's length has 16 bits, so a longer list is refused, but only after its numbers went into the
store.

* `Arena.expr?_addExpr`, `Arena.expr?_addExpr_of_some`: a node is read back under its own number,
  and a later node changes no earlier one.
* `Arena.exprList?_addExprList`, `Arena.stmtList?_addStmtList`: a list within the limit is read back
  from its window.
* `Arena.exprList?_addExprList_of_some`, `Arena.stmtList?_addStmtList_of_some`: adding a list,
  refused or not, changes no earlier window.
-/

namespace ObjectLowering

abbrev NodeId := Nat

namespace NodeId

/-- The number that stands for an absent node. -/
def invalid : NodeId := 4294967295

/-- Whether the number is that of a node at all. -/
def isValid (id : NodeId) : Bool := id != invalid

end NodeId

/-- The four kinds of numbered nodes: those of the source and those of the lowered form. -/
inductive NodeKind where
  | expr
  | stmt
  | loweredExpr
  | loweredStmt
  deriving DecidableEq, Repr

namespace NodeKind

/-- Whether nodes of the kind belong to the source. -/
def isSource : NodeKind → Bool
  | .expr | .stmt => true
  | .loweredExpr | .loweredStmt => false

/-- Whether nodes of the kind are expressions. -/
def isExpr : NodeKind → Bool
  | .expr | .loweredExpr => true
  | .stmt | .loweredStmt => false

/-- What diagnostics call a number of the kind. -/
def idName : NodeKind → String
  | .expr => "ExprId"
  | .stmt => "StmtId"
  | .loweredExpr => "LowId"
  | .loweredStmt => "LowStmtId"

/-- What diagnostics call a window of the kind. -/
def windowName : NodeKind → String
  | .expr => "ExprRange"
  | .stmt => "StmtRange"
  | .loweredExpr => "LowRange"
  | .loweredStmt => "LowStmtRange"

/-- What diagnostics call a list of the kind. -/
def listName : NodeKind → String
  | .expr => "expression list"
  | .stmt => "statement list"
  | .loweredExpr => "lowered expression list"
  | .loweredStmt => "lowered statement list"

/-- What a diagnostic shows for a number. -/
def debugId (kind : NodeKind) (id : NodeId) : String :=
  if id.isValid then s!"{kind.idName}({id})" else s!"{kind.idName}::INVALID"

end NodeKind

/-- A list is longer than a window can say. -/
structure ListTooLong where
  kind : NodeKind
  count : Nat
  deriving DecidableEq, Repr

namespace ListTooLong

def message (refusal : ListTooLong) : String :=
  s!"{refusal.kind.listName} too long: {refusal.count} items"

end ListTooLong

/-- The most items a window can hold. -/
def maxListLength : Nat := 65535

/-- Passes a list on unless it is longer than a window can say. -/
def checkListLength (kind : NodeKind) (count : Nat) : Except ListTooLong Unit :=
  if count ≤ maxListLength then .ok () else .error ⟨kind, count⟩

/-- A stretch of a flat store of lists. -/
structure Window where
  start : Nat
  length : Nat
  deriving DecidableEq, Repr, Inhabited

namespace Window

/-- The window of every empty list. -/
def empty : Window := ⟨0, 0⟩

/-- The first position behind the window. -/
def stop (window : Window) : Nat := window.start + window.length

/-- Whether the window holds nothing. -/
def isEmpty (window : Window) : Bool := window.length == 0

/-- What a diagnostic shows for a window. -/
def debug (kind : NodeKind) (window : Window) : String :=
  s!"{kind.windowName}({window.start}..{window.stop})"

/-- The items of a store that the window shows, if it lies within the store. -/
def read? (window : Window) (store : Array NodeId) : Option (List NodeId) :=
  if window.stop ≤ store.size then
    some ((store.toList.drop window.start).take window.length)
  else
    none

end Window

/-- Numbered expressions and statements, with the two flat stores of their lists. -/
structure Arena (ε σ : Type) where
  exprs : Array ε := #[]
  stmts : Array σ := #[]
  exprLists : Array NodeId := #[]
  stmtLists : Array NodeId := #[]

namespace Arena

variable {ε σ : Type}

def empty : Arena ε σ := {}

/-- Adds an expression under the next number. -/
def addExpr (arena : Arena ε σ) (expr : ε) : NodeId × Arena ε σ :=
  (arena.exprs.size, { arena with exprs := arena.exprs.push expr })

/-- Adds a statement under the next number. -/
def addStmt (arena : Arena ε σ) (stmt : σ) : NodeId × Arena ε σ :=
  (arena.stmts.size, { arena with stmts := arena.stmts.push stmt })

def expr? (arena : Arena ε σ) (id : NodeId) : Option ε := arena.exprs[id]?

def stmt? (arena : Arena ε σ) (id : NodeId) : Option σ := arena.stmts[id]?

/-- Adds a list of expressions. An over-long one is refused after its numbers were stored. -/
def addExprList (kind : NodeKind) (arena : Arena ε σ) (ids : List NodeId) :
    Except ListTooLong Window × Arena ε σ :=
  if ids.isEmpty then
    (.ok .empty, arena)
  else
    ((checkListLength kind ids.length).map fun _ => ⟨arena.exprLists.size, ids.length⟩,
      { arena with exprLists := arena.exprLists ++ ids.toArray })

/-- Adds a list of statements. An over-long one is refused after its numbers were stored. -/
def addStmtList (kind : NodeKind) (arena : Arena ε σ) (ids : List NodeId) :
    Except ListTooLong Window × Arena ε σ :=
  if ids.isEmpty then
    (.ok .empty, arena)
  else
    ((checkListLength kind ids.length).map fun _ => ⟨arena.stmtLists.size, ids.length⟩,
      { arena with stmtLists := arena.stmtLists ++ ids.toArray })

/-- The expressions of a window, if it lies within the store. -/
def exprList? (arena : Arena ε σ) (window : Window) : Option (List NodeId) :=
  window.read? arena.exprLists

/-- The statements of a window, if it lies within the store. -/
def stmtList? (arena : Arena ε σ) (window : Window) : Option (List NodeId) :=
  window.read? arena.stmtLists

/-- Adds a list of nodes of a kind. -/
def addList (kind : NodeKind) (arena : Arena ε σ) (ids : List NodeId) :
    Except ListTooLong Window × Arena ε σ :=
  if kind.isExpr then arena.addExprList kind ids else arena.addStmtList kind ids

/-- The nodes of a window of a kind. -/
def list? (kind : NodeKind) (arena : Arena ε σ) (window : Window) : Option (List NodeId) :=
  if kind.isExpr then arena.exprList? window else arena.stmtList? window

/-- How many nodes of a kind there are. -/
def count (kind : NodeKind) (arena : Arena ε σ) : Nat :=
  if kind.isExpr then arena.exprs.size else arena.stmts.size

/-- How many numbers the store of a kind holds. -/
def storedCount (kind : NodeKind) (arena : Arena ε σ) : Nat :=
  if kind.isExpr then arena.exprLists.size else arena.stmtLists.size

/-! ### Reading back -/

theorem expr?_addExpr (arena : Arena ε σ) (expr : ε) :
    (arena.addExpr expr).2.expr? (arena.addExpr expr).1 = some expr := by
  simp [addExpr, expr?]

theorem expr?_addExpr_of_some (arena : Arena ε σ) (expr : ε) {id : NodeId} {old : ε}
    (taken : arena.expr? id = some old) : (arena.addExpr expr).2.expr? id = some old := by
  obtain ⟨inside, rfl⟩ := Array.getElem?_eq_some_iff.mp taken
  simp [addExpr, expr?, Array.getElem?_push, Nat.ne_of_lt inside, inside]

theorem stmt?_addStmt (arena : Arena ε σ) (stmt : σ) :
    (arena.addStmt stmt).2.stmt? (arena.addStmt stmt).1 = some stmt := by
  simp [addStmt, stmt?]

theorem stmt?_addStmt_of_some (arena : Arena ε σ) (stmt : σ) {id : NodeId} {old : σ}
    (taken : arena.stmt? id = some old) : (arena.addStmt stmt).2.stmt? id = some old := by
  obtain ⟨inside, rfl⟩ := Array.getElem?_eq_some_iff.mp taken
  simp [addStmt, stmt?, Array.getElem?_push, Nat.ne_of_lt inside, inside]

/-- A store that grew shows the same items in every window of the old store. -/
theorem read?_append_of_some {window : Window} {store : Array NodeId} {ids : List NodeId}
    (inside : window.read? store = some ids) (added : Array NodeId) :
    window.read? (store ++ added) = some ids := by
  unfold Window.read? at inside ⊢
  split at inside
  · rename_i fits
    have fits' : window.start + window.length ≤ store.size := fits
    rw [if_pos (by simp; omega), ← inside, Array.toList_append,
      List.drop_append_of_le_length (by simp; omega),
      List.take_append_of_le_length (by simp; omega)]
  · cases inside

/-- A list within the limit that goes to the end of a store is read back from its window. -/
theorem read?_append_self {kind : NodeKind} {store : Array NodeId} {ids : List NodeId}
    {window : Window} (stored : (checkListLength kind ids.length).map
      (fun _ => (⟨store.size, ids.length⟩ : Window)) = .ok window) :
    window.read? (store ++ ids.toArray) = some ids ∧ window.length = ids.length := by
  unfold checkListLength at stored
  split at stored
  · cases stored
    simp [Window.read?, Window.stop]
  · cases stored

theorem read?_empty (store : Array NodeId) : Window.empty.read? store = some [] := by
  simp [Window.read?, Window.empty, Window.stop]

theorem exprList?_addExprList_of_some (kind : NodeKind) (arena : Arena ε σ) (added : List NodeId)
    {window : Window} {ids : List NodeId} (inside : arena.exprList? window = some ids) :
    (arena.addExprList kind added).2.exprList? window = some ids := by
  unfold addExprList
  split
  · exact inside
  · exact read?_append_of_some inside _

theorem stmtList?_addStmtList_of_some (kind : NodeKind) (arena : Arena ε σ) (added : List NodeId)
    {window : Window} {ids : List NodeId} (inside : arena.stmtList? window = some ids) :
    (arena.addStmtList kind added).2.stmtList? window = some ids := by
  unfold addStmtList
  split
  · exact inside
  · exact read?_append_of_some inside _

/-- Storing a list, refused or not, changes the one store that it goes to. -/
theorem addExprList_parts (kind : NodeKind) (arena : Arena ε σ) (ids : List NodeId) :
    (arena.addExprList kind ids).2 =
      { arena with exprLists := arena.exprLists ++ ids.toArray } := by
  unfold addExprList
  split
  · rename_i none
    rw [List.isEmpty_iff.mp none]
    simp
  · rfl

theorem addStmtList_parts (kind : NodeKind) (arena : Arena ε σ) (ids : List NodeId) :
    (arena.addStmtList kind ids).2 =
      { arena with stmtLists := arena.stmtLists ++ ids.toArray } := by
  unfold addStmtList
  split
  · rename_i none
    rw [List.isEmpty_iff.mp none]
    simp
  · rfl

/-- **A list within the limit is read back from its window**, which has its length. -/
theorem exprList?_addExprList (kind : NodeKind) (arena : Arena ε σ) {ids : List NodeId}
    {window : Window} (stored : (arena.addExprList kind ids).1 = .ok window) :
    (arena.addExprList kind ids).2.exprList? window = some ids ∧ window.length = ids.length := by
  unfold addExprList at stored ⊢
  split at stored
  · rename_i none
    cases stored
    rw [if_pos none, List.isEmpty_iff.mp none]
    exact ⟨read?_empty _, rfl⟩
  · rename_i some
    rw [if_neg some]
    exact read?_append_self stored

theorem stmtList?_addStmtList (kind : NodeKind) (arena : Arena ε σ) {ids : List NodeId}
    {window : Window} (stored : (arena.addStmtList kind ids).1 = .ok window) :
    (arena.addStmtList kind ids).2.stmtList? window = some ids ∧ window.length = ids.length := by
  unfold addStmtList at stored ⊢
  split at stored
  · rename_i none
    cases stored
    rw [if_pos none, List.isEmpty_iff.mp none]
    exact ⟨read?_empty _, rfl⟩
  · rename_i some
    rw [if_neg some]
    exact read?_append_self stored

end Arena

end ObjectLowering
