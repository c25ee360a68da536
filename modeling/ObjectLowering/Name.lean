/-
**Names and the table that numbers them.**

A name is its text. Every request also keeps one `NameTable`: the texts mentioned so far, each once,
in the order of their first mention, after the twelve names that are always there. A position in
that order is what a diagnostic shows for a name that is not one of the twelve.

* `NameTable.mention` adds a text unless it is there; `NameTable.text` reads a position back.
* `NameTable.text_index`: a text that is in the table is read back from its own position.
* `NameTable.text_mention_of_lt`: a mention changes no position that was already taken.
* `NameTable.debug` is the form a diagnostic uses.
-/

namespace ObjectLowering

/-- The name of a class, member, variable or package segment. -/
abbrev Name := String

/-! ### The names that are always there -/

namespace Reserved

/-- The empty name: the parent of a class that has none. -/
def empty : Name := ""

/-- The root of every complete parent chain. -/
def object : Name := "Object"

/-- The provided string class. -/
def string : Name := "String"

/-- The provided class of run-time class identities. -/
def classIdentity : Name := "Class"

/-- The usual entry point. -/
def main : Name := "main"

/-- The length of an array. -/
def length : Name := "length"

/-- `System` in `System.out.println(..)`. -/
def system : Name := "System"

/-- `out` in `System.out.println(..)`. -/
def out : Name := "out"

/-- Console output that ends the line. -/
def println : Name := "println"

/-- Console output that leaves the line open. -/
def print : Name := "print"

/-- The receiver parameter of every instance routine. -/
def self : Name := "__this"

/-- The second phase of construction. -/
def init : Name := "__init"

/-- The names that every table starts with, in order. -/
def all : List Name :=
  [empty, object, string, classIdentity, main, length, system, out, println, print, self, init]

end Reserved

/-- The texts mentioned so far, in the order of their first mention. -/
structure NameTable where
  texts : List String

/-- Numbering a text failed. -/
inductive NumberingError
  /-- The table already holds this many texts, one for each number. -/
  | overflow (count : Nat)

namespace NumberingError

/-- The wording of a failure to number a text. -/
def message : NumberingError → String
  | .overflow count =>
    s!"interner exceeded capacity: {count} strings, max is 4294967295"

end NumberingError

namespace NameTable

/-- The table before anything is mentioned. -/
def start : NameTable := ⟨Reserved.all⟩

/-- How many texts the table holds. -/
def size (table : NameTable) : Nat := table.texts.length

/-- Whether the table holds no text. -/
def isEmpty (table : NameTable) : Bool := table.texts.isEmpty

/-- The position of a text, if it was mentioned. -/
def index? (table : NameTable) (text : String) : Option Nat := table.texts.idxOf? text

/-- The text at a position; the empty text where there is none. -/
def text (table : NameTable) (index : Nat) : String := table.texts[index]?.getD ""

/-- Adds a text at the end unless it is already there. -/
def mention (table : NameTable) (text : String) : NameTable :=
  if text ∈ table.texts then table else ⟨table.texts ++ [text]⟩

/-- Mentions several texts, the first one first. -/
def mentionAll (table : NameTable) (texts : List String) : NameTable :=
  texts.foldl mention table

/-- The position of a text, which is mentioned if it was not yet. -/
def intern (table : NameTable) (text : String) : Nat × NameTable :=
  match table.index? text with
  | some index => (index, table)
  | none => (table.size, ⟨table.texts ++ [text]⟩)

/-- The position of a stem with a number behind it. -/
def internNumbered (table : NameTable) (stem : String) (number : Nat) : Nat × NameTable :=
  table.intern (stem ++ toString number)

/-- How many texts can have a number of 32 bits. -/
def capacity : Nat := 4294967296

/-- Like `intern`, and refuses a new text once every number is taken. -/
def intern? (table : NameTable) (text : String) : Except NumberingError (Nat × NameTable) :=
  if (table.index? text).isNone && capacity ≤ table.size then
    .error (.overflow table.size)
  else
    .ok (table.intern text)

/-- What a diagnostic shows for a position: the text of one of the first twelve, else the number. -/
def debugIndex (index : Nat) : String :=
  match Reserved.all[index]? with
  | some text => s!"Name(\"{text}\")"
  | none => s!"Name({index})"

/-- What a diagnostic shows for a name. A name that was never mentioned takes the next position. -/
def debug (table : NameTable) (name : Name) : String :=
  debugIndex ((table.index? name).getD table.size)

/-- The given names, each once, in the order in which they were first mentioned. -/
def inOrder (table : NameTable) (names : List Name) : List Name :=
  table.texts.filter (· ∈ names)

/-! ### Reading back -/

theorem mem_mention (table : NameTable) (text : String) : text ∈ (table.mention text).texts := by
  unfold mention
  split <;> simp_all

/-- The texts only grow. -/
theorem texts_mention (table : NameTable) (text : String) :
    ∃ added, (table.mention text).texts = table.texts ++ added := by
  unfold mention
  split
  · exact ⟨[], by simp⟩
  · exact ⟨[text], rfl⟩

theorem text_mention_of_lt (table : NameTable) (text : String) {index : Nat}
    (taken : index < table.size) : (table.mention text).text index = table.text index := by
  obtain ⟨added, grown⟩ := texts_mention table text
  have inside : index < table.texts.length := taken
  simp [NameTable.text, grown, List.getElem?_append_left inside]

/-- A text that is in the table is read back from its own position. -/
theorem text_index (table : NameTable) {text : String} {index : Nat}
    (found : table.index? text = some index) : table.text index = text := by
  unfold index? List.idxOf? at found
  have spec := List.findIdx?_eq_some_iff_getElem.mp found
  obtain ⟨inside, same, _⟩ := spec
  simp only [beq_iff_eq] at same
  simp [NameTable.text, inside, same]

end NameTable

end ObjectLowering
