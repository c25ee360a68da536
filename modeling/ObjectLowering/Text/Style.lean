/-
**Line breaks and indentation of printed text.**

Text is either laid out in lines, each level indented by a fixed width, or put on one line, where a
line break is a space and nothing is indented.

* `Style.newline` and `Style.indent` are the two pieces that depend on the style.
* `Style.layOut` lays out lines, each with its nesting level.
* `trimBlankLines` takes characters off the end while the text ends in an empty line or in a space
  before a line break; `ensureNewline` ends the text with a line break.
-/

namespace ObjectLowering.Text

/-- How text is laid out. -/
inductive Style where
  | lines (indentWidth : Nat)
  | oneLine
  deriving DecidableEq, Repr

namespace Style

def newline : Style → String
  | lines _ => "\n"
  | oneLine => " "

/-- The indentation of a nesting level. -/
def indent : Style → Nat → String
  | lines width, level => "".pushn ' ' (level * width)
  | oneLine, _ => ""

end Style

/-- A line of text at a nesting level. -/
structure Line where
  level : Nat
  text : String
  deriving DecidableEq, Repr

namespace Line

def blank : Line := ⟨0, ""⟩

/-- An indented line with its break. -/
def layOut (style : Style) (line : Line) : String :=
  style.indent line.level ++ line.text ++ style.newline

end Line

def Style.layOut (style : Style) (lines : List Line) : String :=
  String.join (lines.map (·.layOut style))

theorem layOut_cons (style : Style) (line : Line) (lines : List Line) :
    style.layOut (line :: lines) = line.layOut style ++ style.layOut lines := by
  unfold Style.layOut
  rw [List.map_cons, String.join_cons]

theorem layOut_append (style : Style) (lines others : List Line) :
    style.layOut (lines ++ others) = style.layOut lines ++ style.layOut others := by
  induction lines with
  | nil => exact String.empty_append.symm
  | cons line rest step =>
    rw [List.cons_append, layOut_cons, layOut_cons, step, String.append_assoc]

/-- Takes characters off a text that is given backwards. -/
def trimBackwards : List Char → List Char
  | [] => []
  | char :: rest =>
    if char = '\n' ∧ (rest.head? = some '\n' ∨ rest.head? = some ' ') then trimBackwards rest
    else char :: rest

/-- Takes a text's last character off as long as the text ends in two line breaks or in a space and
a line break. -/
def trimBlankLines (text : String) : String :=
  String.ofList (trimBackwards text.toList.reverse).reverse

def ensureNewline (text : String) : String :=
  if text.toList.getLast? = some '\n' then text else text.push '\n'

end ObjectLowering.Text
