/-
**Requests to an arena.**

An arena is asked for one thing after the other: to store a node, or to store a list. The answer is
the number or the window that was given out. Numbers and the starts of windows have 32 bits, so a
full store refuses what it is asked; an over-long list is refused as well, by then it is stored.

* `Arena.storeNode`, `Arena.storeList` store nodes and lists of either kind while there are numbers.
* `Arena.serve` answers a request with a place, or with the reason of a refusal.
* `Arena.run` serves one request after the other; after a refusal it goes on with the arena as the
  refused request left it.
-/

import ObjectLowering.Arena

namespace ObjectLowering

/-- How many numbers of 32 bits there are. -/
def numberCapacity : Nat := 4294967296

/-- What the nodes of an arena are. -/
inductive NodeForm where
  | source
  | lowered
  deriving DecidableEq, Repr

namespace NodeForm

def exprKind : NodeForm → NodeKind
  | source => .expr
  | lowered => .loweredExpr

def stmtKind : NodeForm → NodeKind
  | source => .stmt
  | lowered => .loweredStmt

end NodeForm

/-- What diagnostics call many nodes of a kind. -/
def NodeKind.nodesName : NodeKind → String
  | .expr => "expressions"
  | .stmt => "statements"
  | .loweredExpr => "lowered expressions"
  | .loweredStmt => "lowered statements"

/-- Something that an arena is to store. -/
inductive ArenaRequest (ε σ : Type) where
  | expr (expr : ε)
  | stmt (stmt : σ)
  | exprList (ids : List NodeId)
  | stmtList (ids : List NodeId)

/-- A place where an arena stored something. -/
inductive ArenaPlace where
  | expr (id : NodeId)
  | stmt (id : NodeId)
  | exprList (window : Window)
  | stmtList (window : Window)
  deriving DecidableEq, Repr

/-- Why an arena refuses a request. -/
inductive ArenaRefusal where
  /-- Every number of a node is taken. -/
  | nodesFull (kind : NodeKind) (count : Nat)
  /-- The store of lists goes on past the last number. -/
  | listsFull (kind : NodeKind) (count : Nat)
  | listTooLong (list : ListTooLong)
  deriving DecidableEq, Repr

namespace ArenaRefusal

def message : ArenaRefusal → String
  | nodesFull kind count => s!"too many {kind.nodesName}: {count}"
  | listsFull kind count => s!"too many {kind.listName}s: {count}"
  | listTooLong list => list.message

end ArenaRefusal

namespace Arena

variable {ε σ : Type}

/-- Goes on with a node of a kind that was stored, if a number was left for it. -/
def storeNode (kind : NodeKind) (arena : Arena ε σ) (stored : NodeId × Arena ε σ) :
    Except ArenaRefusal NodeId × Arena ε σ :=
  if arena.count kind < numberCapacity then
    (.ok stored.1, stored.2)
  else
    (.error (.nodesFull kind (arena.count kind)), arena)

/-- Stores a list of nodes of a kind, if it is empty or a number is left for its start. -/
def storeList (kind : NodeKind) (arena : Arena ε σ) (ids : List NodeId) :
    Except ArenaRefusal Window × Arena ε σ :=
  if ids.isEmpty ∨ arena.storedCount kind < numberCapacity then
    let (window, after) := arena.addList kind ids
    (window.mapError .listTooLong, after)
  else
    (.error (.listsFull kind (arena.storedCount kind)), arena)

/-- Answers a request. -/
def serve (form : NodeForm) (arena : Arena ε σ) :
    ArenaRequest ε σ → Except ArenaRefusal ArenaPlace × Arena ε σ
  | .expr expr => (arena.storeNode form.exprKind (arena.addExpr expr)).map (·.map .expr) id
  | .stmt stmt => (arena.storeNode form.stmtKind (arena.addStmt stmt)).map (·.map .stmt) id
  | .exprList ids => (arena.storeList form.exprKind ids).map (·.map .exprList) id
  | .stmtList ids => (arena.storeList form.stmtKind ids).map (·.map .stmtList) id

/-- Answers requests, the first one first. -/
def run (form : NodeForm) (arena : Arena ε σ) :
    List (ArenaRequest ε σ) → List (Except ArenaRefusal ArenaPlace) × Arena ε σ
  | [] => ([], arena)
  | request :: rest =>
    let (answer, next) := arena.serve form request
    let (answers, after) := next.run form rest
    (answer :: answers, after)

end Arena

end ObjectLowering
