/-
**Names found both ways.**

A table of names is read in two directions: a text has a number, and a number has a text. The index
keeps a map for the first and a list for the second, and adds to both at once. It starts with the
names that are always there.

* `NameIndex.number?` and `NameIndex.text` read the two directions.
* `NameIndex.intern?` gives the number of a text, which is added if it was not yet.
* `NameIndex.run` serves one request after the other; a refused one leaves the index as it is.
-/

import ObjectLowering.Name

namespace ObjectLowering

/-- Texts with their numbers, in both directions. -/
structure NameIndex where
  /-- The numbers of the texts, the latest first. -/
  numbers : List (String × Nat)
  /-- The texts in the order of their numbers. -/
  texts : Array String

/-- A request for the number of a text. -/
inductive NameRequest where
  /-- For a text that has to find room. -/
  | intern (text : String)
  /-- For a text that may find none. -/
  | tryIntern (text : String)
  /-- For a stem with a number behind it, which has to find room. -/
  | internNumbered (stem : String) (number : Nat)
  deriving DecidableEq, Repr

/-- The text that a number is requested for. -/
def NameRequest.text : NameRequest → String
  | intern text | tryIntern text => text
  | internNumbered stem number => stem ++ toString number

namespace NameIndex

def empty : NameIndex := ⟨[], #[]⟩

/-- How many texts the index holds. -/
def size (index : NameIndex) : Nat := index.texts.size

/-- The number of a text, if it has one. -/
def number? (index : NameIndex) (text : String) : Option Nat := index.numbers.lookup text

/-- The text of a number; the empty text where there is none. -/
def text (index : NameIndex) (number : Nat) : String := index.texts[number]?.getD ""

/-- Gives a text the next number. -/
def add (index : NameIndex) (text : String) : NameIndex where
  numbers := (text, index.size) :: index.numbers
  texts := index.texts.push text

/-- The index with the names that are always there. -/
def start : NameIndex := Reserved.all.foldl add empty

/-- The number of a text. A new text gets the next one, unless every number is taken. -/
def intern? (index : NameIndex) (text : String) : Except NumberingError (Nat × NameIndex) :=
  match index.number? text with
  | some number => .ok (number, index)
  | none =>
    if index.size < NameTable.capacity then .ok (index.size, index.add text)
    else .error (.overflow index.size)

/-- Answers a request. A text that has to find room and finds none stops its request with the same
error that one is given that may find none. -/
def serve (index : NameIndex) (request : NameRequest) : Except NumberingError Nat × NameIndex :=
  match index.intern? request.text with
  | .ok (number, after) => (.ok number, after)
  | .error error => (.error error, index)

/-- Answers requests, the first one first. -/
def run (index : NameIndex) : List NameRequest → List (Except NumberingError Nat) × NameIndex
  | [] => ([], index)
  | request :: rest =>
    let (answer, next) := index.serve request
    let (answers, after) := next.run rest
    (answer :: answers, after)

/-- The texts alone, in the order of their numbers. -/
def table (index : NameIndex) : NameTable := ⟨index.texts.toList⟩

end NameIndex

end ObjectLowering
