/-
**Nested brackets in printed text.**

Reading a text from left to right, an opening bracket is awaited to close, and a closing one has to
be the one that was awaited last. The text is nested if nothing is left to close at its end. All
three kinds of brackets are read together, so those of one kind are nested by themselves too.

* `readBrackets` reads a text with some closing brackets awaited, and `Nested` asks for none at
  both ends. `Nested.alone`: the brackets of one kind.
* `Moves` says how a piece of text changes what is awaited; `Moves.append` puts pieces together.
* `BracketFree` texts change nothing: literals of numbers, escaped texts, names of headers.
* `LinesMove` says the same of lines, however they are laid out.
* **`nested_fileText`**: nested lines make a nested file.
-/

import ObjectLowering.Cpp.Unit

namespace ObjectLowering.Text

/-! ### Reading brackets -/

/-- The bracket that closes an opening one. -/
def closing? : Char → Option Char
  | '(' => some ')'
  | '[' => some ']'
  | '\x7b' => some '\x7d'
  | _ => none

def isClosing (char : Char) : Bool := char == ')' || char == ']' || char == '\x7d'

def isBracket (char : Char) : Bool := (closing? char).isSome || isClosing char

/-- Reads a character. An opening bracket puts its closing one in front of those that are awaited; a
closing one has to be the first of them. -/
def readBracket (awaited : List Char) (char : Char) : Option (List Char) :=
  match closing? char with
  | some close => some (close :: awaited)
  | none =>
    if isClosing char then
      if awaited.head? = some char then some awaited.tail else none
    else some awaited

/-- Reads a text with some closing brackets awaited: those that are awaited behind it. -/
def readBrackets (awaited chars : List Char) : Option (List Char) :=
  chars.foldlM readBracket awaited

/-- The brackets of the text are properly nested and closed. -/
def Nested (text : String) : Prop := readBrackets [] text.toList = some []

/-- The text has no bracket. -/
def BracketFree (text : String) : Prop := ∀ char ∈ text.toList, isBracket char = false

instance (text : String) : Decidable (Nested text) :=
  inferInstanceAs (Decidable (readBrackets [] text.toList = some []))

instance (text : String) : Decidable (BracketFree text) :=
  List.decidableBAll (fun char => isBracket char = false) text.toList

variable {awaited before middle after : List Char} {text other : String} {char : Char}

theorem readBrackets_cons (rest : List Char) : readBrackets awaited (char :: rest) =
    (readBracket awaited char).bind (readBrackets · rest) := rfl

theorem readBrackets_append (front behind : List Char) :
    readBrackets awaited (front ++ behind) =
      (readBrackets awaited front).bind (readBrackets · behind) := List.foldlM_append

theorem readBrackets_singleton : readBrackets awaited [char] = readBracket awaited char := by
  rw [readBrackets_cons]
  exact Option.bind_fun_some _

theorem readBracket_opening {close : Char} (opens : closing? char = some close) :
    readBracket awaited char = some (close :: awaited) := by
  unfold readBracket
  rw [opens]

theorem readBracket_closing (closes : isClosing char = true) (opens : closing? char = none) :
    readBracket (char :: awaited) char = some awaited := by
  unfold readBracket
  rw [opens]
  dsimp only
  rw [if_pos closes]
  exact if_pos rfl

theorem readBracket_of_free (free : isBracket char = false) :
    readBracket awaited char = some awaited := by
  unfold isBracket at free
  rw [Bool.or_eq_false_iff, Option.isSome_eq_false_iff, Option.isNone_iff_eq_none] at free
  unfold readBracket
  rw [free.1, free.2]
  rfl

theorem readBrackets_of_free {chars : List Char} (free : ∀ char ∈ chars, isBracket char = false) :
    readBrackets awaited chars = some awaited := by
  induction chars with
  | nil => rfl
  | cons char rest step =>
    rw [List.forall_mem_cons] at free
    rw [readBrackets_cons, readBracket_of_free free.1]
    exact step free.2

/-- What is awaited at last does not matter to a character that reads without it. -/
theorem readBracket_behind (more : List Char) (read : readBracket before char = some after) :
    readBracket (before ++ more) char = some (after ++ more) := by
  unfold readBracket at read ⊢
  cases opens : closing? char with
  | some close =>
    rw [opens] at read
    cases read
    rfl
  | none =>
    rw [opens] at read
    dsimp only at read ⊢
    by_cases closes : isClosing char = true
    · rw [if_pos closes] at read ⊢
      split at read
      · rename_i first
        cases before with
        | nil => cases first
        | cons top rest =>
          cases read
          exact if_pos first
      · cases read
    · rw [if_neg closes] at read ⊢
      cases read
      rfl

theorem readBrackets_behind (more : List Char) {chars : List Char}
    (read : readBrackets before chars = some after) :
    readBrackets (before ++ more) chars = some (after ++ more) := by
  induction chars generalizing before with
  | nil =>
    cases read
    rfl
  | cons char rest step =>
    rw [readBrackets_cons] at read ⊢
    obtain ⟨between, first, others⟩ := Option.bind_eq_some_iff.mp read
    rw [readBracket_behind more first]
    exact step others

/-! ### Brackets of one kind -/

/-- Whether a character is the closing bracket or the one that it closes. -/
def isOfKind (close char : Char) : Bool := char == close || closing? char == some close

theorem eq_of_isClosing {close : Char} (closes : isClosing close = true) :
    close = ')' ∨ close = ']' ∨ close = '\x7d' := by
  unfold isClosing at closes
  rw [Bool.or_eq_true, Bool.or_eq_true, beq_iff_eq, beq_iff_eq, beq_iff_eq, or_assoc] at closes
  exact closes

/-- An opening bracket is of the kind of the one that closes it. -/
theorem isOfKind_closing? {close other : Char} (closes : isClosing close = true)
    (opens : closing? char = some other) : isOfKind close char = isOfKind close other := by
  unfold closing? at opens
  split at opens <;> cases opens <;> rcases eq_of_isClosing closes with rfl | rfl | rfl <;> rfl

theorem readBracket_ofKind {close : Char} (closes : isClosing close = true)
    (read : readBracket before char = some after) :
    readBrackets (before.filter (isOfKind close)) ([char].filter (isOfKind close)) =
      some (after.filter (isOfKind close)) := by
  unfold readBracket at read
  rw [List.filter_cons, List.filter_nil]
  cases opens : closing? char with
  | some other =>
    rw [opens] at read
    cases read
    rw [List.filter_cons, isOfKind_closing? closes opens]
    split
    · rw [readBrackets_singleton, readBracket_opening opens]
    · rfl
  | none =>
    rw [opens] at read
    dsimp only at read
    split at read
    · rename_i closing
      split at read
      · rename_i first
        cases before with
        | nil => cases first
        | cons top rest =>
          cases first
          cases read
          rw [List.filter_cons, List.tail_cons]
          split
          · rw [readBrackets_singleton, readBracket_closing closing opens]
          · rfl
      · cases read
    · rename_i plain
      cases read
      have other : isOfKind close char = false := by
        unfold isOfKind
        rw [opens, Bool.or_eq_false_iff, beq_eq_false_iff_ne]
        refine ⟨fun same => plain ?_, rfl⟩
        rw [same, closes]
      rw [other]
      rfl

theorem readBrackets_ofKind {close : Char} (closes : isClosing close = true) {chars : List Char}
    (read : readBrackets before chars = some after) :
    readBrackets (before.filter (isOfKind close)) (chars.filter (isOfKind close)) =
      some (after.filter (isOfKind close)) := by
  induction chars generalizing before with
  | nil =>
    cases read
    rfl
  | cons char rest step =>
    rw [readBrackets_cons] at read
    obtain ⟨between, first, others⟩ := Option.bind_eq_some_iff.mp read
    rw [← List.singleton_append, List.filter_append, readBrackets_append,
      readBracket_ofKind closes first]
    exact step others

/-- The brackets of the kind that a bracket closes are properly nested and closed, whatever the
others are. -/
def NestedIn (close : Char) (text : String) : Prop :=
  readBrackets [] (text.toList.filter (isOfKind close)) = some []

/-- **The brackets of one kind are nested by themselves.** -/
theorem Nested.alone (nested : Nested text) {close : Char} (closes : isClosing close = true) :
    NestedIn close text := readBrackets_ofKind closes nested

/-! ### Pieces of text -/

/-- Reading the text changes what is awaited so. -/
def Moves (before after : List Char) (text : String) : Prop :=
  readBrackets before text.toList = some after

theorem Moves.append (first : Moves before middle text) (second : Moves middle after other) :
    Moves before after (text ++ other) := by
  unfold Moves
  rw [String.toList_append, readBrackets_append, first]
  exact second

theorem Moves.behind (moves : Moves before after text) (more : List Char) :
    Moves (before ++ more) (after ++ more) text := readBrackets_behind more moves

theorem Nested.moves (nested : Nested text) (awaited : List Char) : Moves awaited awaited text :=
  Moves.behind nested awaited

theorem BracketFree.nested (free : BracketFree text) : Nested text := readBrackets_of_free free

theorem BracketFree.moves (free : BracketFree text) (awaited : List Char) :
    Moves awaited awaited text := free.nested.moves awaited

theorem Nested.append (first : Nested text) (second : Nested other) : Nested (text ++ other) :=
  Moves.append first second

@[simp]
theorem bracketFree_append :
    BracketFree (text ++ other) ↔ BracketFree text ∧ BracketFree other := by
  unfold BracketFree
  rw [String.toList_append]
  exact List.forall_mem_append

theorem BracketFree.append (free : BracketFree text) (freeToo : BracketFree other) :
    BracketFree (text ++ other) := bracketFree_append.mpr ⟨free, freeToo⟩

theorem nested_empty : Nested "" := rfl

/-- A text between two others, of which the second closes what the first opens. -/
theorem Nested.between {opening closing : String} (opens : Moves [] middle opening)
    (nested : Nested text) (closes : Moves middle [] closing) :
    Nested (opening ++ text ++ closing) :=
  (opens.append (nested.moves middle)).append closes

theorem nested_join {texts : List String} (each : ∀ text ∈ texts, Nested text) :
    Nested (String.join texts) := by
  induction texts with
  | nil => exact nested_empty
  | cons text rest step =>
    rw [List.forall_mem_cons] at each
    rw [String.join_cons]
    exact each.1.append (step each.2)

theorem nested_intercalate {separator : String} (separates : Nested separator)
    {texts : List String} (each : ∀ text ∈ texts, Nested text) :
    Nested (separator.intercalate texts) := by
  induction texts with
  | nil => exact nested_empty
  | cons text rest step =>
    rw [List.forall_mem_cons] at each
    cases rest with
    | nil =>
      rw [String.intercalate_singleton]
      exact each.1
    | cons next rest =>
      rw [String.intercalate_cons_cons]
      exact (each.1.append separates).append (step each.2)

theorem bracketFree_ofList {chars : List Char} :
    BracketFree (String.ofList chars) ↔ ∀ char ∈ chars, isBracket char = false := by
  unfold BracketFree
  rw [String.toList_ofList]

/-! ### Lines -/

/-- Reading the lines changes what is awaited so, however they are laid out. -/
def LinesMove (before after : List Char) (lines : List Line) : Prop :=
  ∀ style : Style, Moves before after (style.layOut lines)

/-- The lines are nested, however they are laid out. -/
def NestedLines (lines : List Line) : Prop := ∀ awaited, LinesMove awaited awaited lines

variable {lines others : List Line}

theorem bracketFree_push (free : BracketFree text) (plain : isBracket char = false) :
    BracketFree (text.push char) := by
  unfold BracketFree
  rw [String.toList_push, List.forall_mem_append]
  exact ⟨free, List.forall_mem_singleton.mpr plain⟩

theorem bracketFree_pushn (plain : isBracket char = false) (count : Nat) :
    BracketFree ("".pushn char count) := by
  rw [String.pushn_eq_repeat_push]
  induction count with
  | zero => exact fun _ inside => nomatch inside
  | succ count step => exact bracketFree_push step plain

theorem bracketFree_indent (style : Style) (level : Nat) : BracketFree (style.indent level) := by
  cases style with
  | lines width => exact bracketFree_pushn rfl _
  | oneLine => exact fun _ inside => nomatch inside

theorem bracketFree_newline (style : Style) : BracketFree style.newline := by
  cases style with
  | lines width =>
    show BracketFree "\n"
    decide
  | oneLine =>
    show BracketFree " "
    decide

namespace LinesMove

theorem nil : LinesMove awaited awaited [] := fun _ => rfl

theorem append (first : LinesMove before middle lines) (second : LinesMove middle after others) :
    LinesMove before after (lines ++ others) := by
  intro style
  rw [layOut_append]
  exact (first style).append (second style)

theorem cons {level : Nat} (first : Moves before middle text)
    (second : LinesMove middle after lines) : LinesMove before after (⟨level, text⟩ :: lines) := by
  intro style
  rw [layOut_cons]
  refine Moves.append ?_ (second style)
  exact (((bracketFree_indent style level).moves before).append first).append
    ((bracketFree_newline style).moves middle)

theorem single {level : Nat} (moves : Moves before after text) :
    LinesMove before after [⟨level, text⟩] := cons moves nil

theorem blank : LinesMove awaited awaited [.blank] := single rfl

end LinesMove

/-- Lines that are nested one by one. -/
theorem nestedLines_of_forall (each : ∀ line ∈ lines, Nested line.text) : NestedLines lines := by
  intro awaited
  induction lines with
  | nil => exact .nil
  | cons line rest step =>
    rw [List.forall_mem_cons] at each
    exact .cons (each.1.moves awaited) (step each.2)

theorem NestedLines.append (first : NestedLines lines) (second : NestedLines others) :
    NestedLines (lines ++ others) := fun awaited => (first awaited).append (second awaited)

theorem nestedLines_flatMap {α : Type} {items : List α} {shown : α → List Line}
    (each : ∀ item ∈ items, NestedLines (shown item)) : NestedLines (items.flatMap shown) := by
  induction items with
  | nil => exact fun _ => .nil
  | cons item rest step =>
    rw [List.forall_mem_cons] at each
    rw [List.flatMap_cons]
    exact each.1.append (step each.2)

/-! ### Files -/

/-- What is taken off the end of a text has no bracket. -/
theorem exists_of_trimBackwards (chars : List Char) :
    ∃ dropped, chars = dropped ++ trimBackwards chars ∧
      ∀ char ∈ dropped, isBracket char = false := by
  induction chars with
  | nil => exact ⟨[], rfl, List.forall_mem_nil _⟩
  | cons char rest step =>
    unfold trimBackwards
    split
    · rename_i breaks
      obtain ⟨dropped, shape, free⟩ := step
      refine ⟨char :: dropped, congrArg (char :: ·) shape, List.forall_mem_cons.mpr ⟨?_, free⟩⟩
      rw [breaks.1]
      rfl
    · exact ⟨[], rfl, List.forall_mem_nil _⟩

theorem nested_trimBlankLines (nested : Nested text) : Nested (trimBlankLines text) := by
  obtain ⟨dropped, shape, free⟩ := exists_of_trimBackwards text.toList.reverse
  have parts : text.toList =
      (trimBackwards text.toList.reverse).reverse ++ dropped.reverse := by
    rw [← List.reverse_append, ← shape, List.reverse_reverse]
  unfold Nested at nested ⊢
  rw [parts, readBrackets_append] at nested
  obtain ⟨between, kept, others⟩ := Option.bind_eq_some_iff.mp nested
  rw [readBrackets_of_free fun char inside => free char (List.mem_reverse.mp inside)] at others
  cases others
  unfold trimBlankLines
  rw [String.toList_ofList]
  exact kept

theorem nested_ensureNewline (nested : Nested text) : Nested (ensureNewline text) := by
  unfold ensureNewline
  split
  · exact nested
  · have ends : Nested "\n" := BracketFree.nested (by decide)
    exact nested.append ends

/-- **A file of nested lines is nested.** -/
theorem nested_fileText (options : Cpp.EmitOptions) (nested : NestedLines lines) :
    Nested (Cpp.fileText options lines) :=
  nested_ensureNewline (nested_trimBlankLines (nested [] _))

end ObjectLowering.Text
