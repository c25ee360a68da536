/-
**Units by path, and the units that an entry reaches.**

A store keeps one unit per canonical path. The source set of an entry are the units reached from it
along imports: the entry first, then breadth first, each unit once, where the imports of a unit
count in their written order.

* `UnitStore.insert` registers a unit under its own canonical path, in place of an earlier one.
* `UnitStore.load` compares paths by their components.
* `UnitStore.sourceSet` follows the imports; its first failure ends it.
-/

import ObjectLowering.Source.Decl
import ObjectLowering.Source.Path

namespace ObjectLowering.Source

/-- A unit could not be brought in. -/
inductive SourceError where
  /-- There is no unit with this path. -/
  | notFound (path : String)
  /-- A `..` of this path climbs above its start. -/
  | outsideRoot (path : String)
  deriving DecidableEq, Repr

namespace SourceError

def path : SourceError → String
  | notFound path | outsideRoot path => path

def message : SourceError → String
  | notFound path => "source not found: " ++ path
  | outsideRoot path => "import escapes the source root: " ++ path

end SourceError

/-- The canonical form of a written path. -/
def canonicalPath (path : String) : Except SourceError Path :=
  match (Path.components path).canonical? with
  | some canonical => .ok canonical
  | none => .error (.outsideRoot path)

/-- Units by canonical path. -/
structure UnitStore where
  entries : List (Path × SourceUnit) := []

namespace UnitStore

def size (store : UnitStore) : Nat := store.entries.length

def isEmpty (store : UnitStore) : Bool := store.entries.isEmpty

/-- Registers a unit under its own path. -/
def insert (store : UnitStore) (unit : SourceUnit) : Except SourceError UnitStore := do
  let path ← canonicalPath unit.path
  return ⟨store.entries.filter (·.1 != path) ++ [(path, unit)]⟩

def find? (store : UnitStore) (path : Path) : Option SourceUnit :=
  (store.entries.find? (·.1 == path)).map (·.2)

/-- The unit with a written path, which is taken as it is. -/
def load (store : UnitStore) (path : String) : Except SourceError SourceUnit :=
  match store.find? (Path.components path) with
  | some unit => .ok unit
  | none => .error (.notFound path)

/-- Canonicalizes imports from first to last and puts those not seen before behind the queue. -/
def enqueue : (seen queue : List Path) → List String → Except SourceError (List Path × List Path)
  | seen, queue, [] => .ok (seen, queue)
  | seen, queue, path :: rest => do
    let canonical ← canonicalPath path
    if canonical ∈ seen then enqueue seen queue rest
    else enqueue (canonical :: seen) (queue ++ [canonical]) rest

/-- Loads the queue from its front. A path enters the queue once, so after as many loads as there
are units the next path has none. -/
def follow (store : UnitStore) :
    Nat → (seen queue : List Path) → Except SourceError (List SourceUnit)
  | _, _, [] => .ok []
  | 0, _, path :: _ => .error (.notFound path.text)
  | loads + 1, seen, path :: queue =>
    match store.find? path with
    | none => .error (.notFound path.text)
    | some unit => do
      let (seen, queue) ← enqueue seen queue unit.imports
      let rest ← follow store loads seen queue
      return unit :: rest

/-- The units that an entry reaches, breadth first. -/
def sourceSet (store : UnitStore) (entry : String) : Except SourceError (List SourceUnit) := do
  let path ← canonicalPath entry
  store.follow store.size [path] [path]

end UnitStore

end ObjectLowering.Source
