/-
**Paths of units, compared and resolved by their components.**

A path is split at its slashes. Empty segments vanish, and so do `.` segments except at the very
front; a leading slash is the root component. A path is canonical when it has neither `.` nor `..`.

* `Path.components` splits a path; `Path.text` writes a canonical one.
* `Path.canonical?` drops `.` and lets `..` take back the name before it. It fails when there is no
  name to take back.
* `Path.stem?` is the last name without its extension.
-/

namespace ObjectLowering.Source

/-- One component of a path. -/
inductive Component where
  | root
  | current
  | parent
  | normal (name : String)
  deriving DecidableEq, Repr

/-- A path as the list of its components. -/
abbrev Path := List Component

namespace Path

/-- The stretches of a text between its slashes. -/
def segments : List Char → List (List Char)
  | [] => [[]]
  | char :: rest =>
    if char = '/' then
      [] :: segments rest
    else
      match segments rest with
      | [] => [[char]]
      | segment :: more => (char :: segment) :: more

/-- The component that a segment behind a slash stands for, if any. -/
def inner? (segment : List Char) : Option Component :=
  if segment = [] ∨ segment = ['.'] then none
  else if segment = ['.', '.'] then some .parent
  else some (.normal (String.ofList segment))

/-- The component that the first segment stands for, if any: a `.` counts here. -/
def first? (segment : List Char) : Option Component :=
  if segment = ['.'] then some .current else inner? segment

/-- The components of a written path. -/
def components (path : String) : Path :=
  match segments path.toList with
  | [] => []
  | [segment] => (first? segment).toList
  | [] :: rest => .root :: rest.filterMap inner?
  | segment :: rest => (first? segment).toList ++ rest.filterMap inner?

/-- Takes the components one by one onto a stack, whose top is the end of the path so far. -/
def settle : Path → Path → Option Path
  | stack, [] => some stack.reverse
  | stack, .current :: rest => settle stack rest
  | .normal _ :: stack, .parent :: rest => settle stack rest
  | _, .parent :: _ => none
  | stack, component :: rest => settle (component :: stack) rest

/-- The canonical form of a path, unless a `..` climbs above its start. -/
def canonical? (path : Path) : Option Path := settle [] path

/-- The text of a component within a path. -/
def componentText : Component → String
  | .root => ""
  | .current => "."
  | .parent => ".."
  | .normal name => name

def text : Path → String
  | [.root] => "/"
  | path => "/".intercalate (path.map componentText)

/-- A file name without its extension. The extension starts at the last dot, unless that is the
first character. -/
def withoutExtension (name : List Char) : List Char :=
  match name.reverse.dropWhile (· != '.') with
  | [] | [_] => name
  | _ :: before => before.reverse

/-- The last name of a written path without its extension; a path may not end in a name. -/
def stem? (path : String) : Option String :=
  match (components path).getLast? with
  | some (.normal name) => some (String.ofList (withoutExtension name.toList))
  | _ => none

/-! ### Canonical paths -/

/-- Names alone are taken onto the stack as they are. -/
theorem settle_normal (stack : Path) (names : List String) :
    settle stack (names.map .normal) = some (stack.reverse ++ names.map .normal) := by
  induction names generalizing stack with
  | nil => simp [settle]
  | cons name rest step => simp [settle, step]

end Path

end ObjectLowering.Source
