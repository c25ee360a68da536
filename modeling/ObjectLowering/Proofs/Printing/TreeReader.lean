/-
**A reader of expression trees.**

Read from the left, the text of a tree says where each part ends: behind a name stands no character
of a name, behind an operand a parenthesis, a bracket, a comma or a space, and the operator that
follows a space is no assignment. What a parenthesis opens is told by the character behind it; only
a minus sign in front of an operand and a count downwards need the number of dashes.

* `Cpp.readTree` reads the tree of an expression from the start of a text. How deep it may descend
  is bounded; `Cpp.Reads` speaks of what it comes to once the bound is large enough, and
  `Cpp.Reads.unique` says that this is one tree.
* `Cpp.IsWord`: an operand that starts with a word is read by `Cpp.reads_word` and
  `Cpp.reads_called`.
* `Cpp.Tree.Named` says that all names of a tree are identifiers.
* **`Cpp.Tree.opening`**: what the text of such a tree starts with.
* `Cpp.reads_field`, `Cpp.reads_call`: what is read behind an operand.
-/

import ObjectLowering.Proofs.Printing.Grouping

namespace ObjectLowering

open Lowered (Expr)

namespace Cpp

/-! ### Characters of names -/

def isNameChar (char : Char) : Bool := char.isAlphanum || char == '_'

/-- A character of a name in the scope of another. -/
def isScopeChar (char : Char) : Bool := isNameChar char || char == ':'

/-- The name has letters, digits and underscores only, and does not start with a digit. -/
def IsIdentifier (name : Name) : Prop :=
  name.toList.all isNameChar = true ∧ name.toList.head?.any (!·.isDigit) = true

instance (name : Name) : Decidable (IsIdentifier name) := inferInstanceAs (Decidable (_ ∧ _))

theorem IsIdentifier.each {name : Name} (identifier : IsIdentifier name) :
    ∀ char ∈ name.toList, isNameChar char = true := List.all_eq_true.mp identifier.1

theorem IsIdentifier.exists_head {name : Name} (identifier : IsIdentifier name) :
    ∃ char rest, name.toList = char :: rest ∧ isNameChar char = true ∧ char.isDigit = false := by
  obtain ⟨all, first⟩ := identifier
  cases chars : name.toList with
  | nil =>
    rw [chars] at first
    cases first
  | cons char rest =>
    rw [chars] at first all
    rw [List.all_cons, Bool.and_eq_true] at all
    rw [List.head?_cons, Option.any_some, Bool.not_eq_true'] at first
    exact ⟨char, rest, rfl, all.1, first⟩

theorem isScopeChar_of_isNameChar {char : Char} (named : isNameChar char = true) :
    isScopeChar char = true := by
  unfold isScopeChar
  rw [named, Bool.true_or]

theorem isNameChar_of_isDigit {char : Char} (digit : char.isDigit = true) :
    isNameChar char = true := by
  unfold isNameChar Char.isAlphanum
  rw [digit, Bool.or_true, Bool.true_or]

/-- What the characters of a closed text have is checked one by one. -/
theorem forall_of_all {property : Char → Prop} [DecidablePred property] {chars : List Char}
    (all : chars.all (fun char => decide (property char)) = true) :
    ∀ char ∈ chars, property char :=
  fun char member => of_decide_eq_true (List.all_eq_true.mp all char member)

/-- A text is split where the first character comes that is not of the kind. -/
theorem takeWhile_stops {kind : Char → Bool} {front behind : List Char}
    (each : ∀ char ∈ front, kind char = true) (stops : ∀ char ∈ behind.head?, kind char = false) :
    (front ++ behind).takeWhile kind = front ∧ (front ++ behind).dropWhile kind = behind := by
  rw [List.takeWhile_append_of_pos each, List.dropWhile_append_of_pos each]
  cases behind with
  | nil => exact ⟨List.append_nil _, rfl⟩
  | cons char rest =>
    have stop : ¬kind char = true := Bool.eq_false_iff.mp (stops char rfl)
    rw [List.takeWhile_cons_of_neg stop, List.dropWhile_cons_of_neg stop]
    exact ⟨List.append_nil _, rfl⟩

/-! ### Reading -/

/-- Whether the text starts with the token. -/
def starts (token chars : List Char) : Bool := token.isPrefixOf chars

/-- What stands behind the token, if the text starts with it. -/
def after? (token chars : List Char) : Option (List Char) :=
  if starts token chars then some (chars.drop token.length) else none

/-- What stands behind the last colon. -/
def lastName (chars : List Char) : List Char := (chars.reverse.takeWhile (· != ':')).reverse

/-- The class of a struct. -/
def structClass (struct : List Char) : Name := .ofList ((lastName struct).drop 2)

/-- The call of a method that a word names with the scope of its class. -/
def scopedCall (word : List Char) (args : List Tree) : Tree :=
  .qualifiedCall (structClass (word.take (word.length - (lastName word).length - 2)))
    (.ofList (lastName word)) args

/-- The number or the local that a word is. -/
def wordTree (word : List Char) : Tree :=
  if word.head?.any Char.isDigit then
    .int (Nat.ofDigitChars 10 (word.takeWhile Char.isDigit) 0)
  else .localVar (.ofList word)

/-- The number of dashes that the text starts with. -/
def dashes (chars : List Char) : Nat := (chars.takeWhile (· == '-')).length

/-- The operator behind a parenthesis, if it is one that has its operand alone. Of several dashes,
two by two count the operand downwards. -/
def enclosing? (inside : List Char) : Option UnaryOp :=
  if inside.head? = some '!' then some .complement
  else if dashes inside % 2 = 1 then some .negate
  else none

/-- The method table's member that a tree reads: the receiver and the slot. -/
def slotRead? : Tree → Option (Tree × Name)
  | .field (.field receiver table) slot => if table = "__vptr" then some (receiver, slot) else none
  | _ => none

mutual

/-- Reads an operand and what is assigned to it. -/
def readTree : Nat → List Char → Option (Tree × List Char)
  | 0, _ => none
  | fuel + 1, chars => do
    let target ← readOperand fuel chars
    if starts [' ', '=', ' '] target.2 then
      let value ← readTree fuel (target.2.drop 3)
      some (.assign target.1 value.1, value.2)
    else some target

/-- Reads the operators in front of an operand, and the operand with its suffixes. -/
def readOperand : Nat → List Char → Option (Tree × List Char)
  | 0, _ => none
  | fuel + 1, chars =>
    if starts ['+', '+'] chars then do
      let operand ← readOperand fuel (chars.drop 2)
      some (.unary .preIncrement operand.1, operand.2)
    else if starts ['-', '-'] chars then do
      let operand ← readOperand fuel (chars.drop 2)
      some (.unary .preDecrement operand.1, operand.2)
    else do
      let atom ← readAtom fuel chars
      readSuffixes fuel atom.1 atom.2

/-- Reads an operand in parentheses or one that starts with a word. -/
def readAtom : Nat → List Char → Option (Tree × List Char)
  | 0, _ => none
  | fuel + 1, chars =>
    if starts ['(', '*'] chars then do
      let array ← readTree fuel (chars.drop 2)
      let position ← readTree fuel (← after? [')', '['] array.2)
      some (.index array.1 position.1, ← after? [']'] position.2)
    else if starts ['('] chars then readEnclosed fuel chars.tail
    else if starts ['('] (chars.dropWhile isScopeChar) then do
      let args ← readArgs fuel (chars.dropWhile isScopeChar).tail
      some (scopedCall (chars.takeWhile isScopeChar) args.1, args.2)
    else some (wordTree (chars.takeWhile isScopeChar), chars.dropWhile isScopeChar)

/-- Reads an operation to its closing parenthesis. -/
def readEnclosed : Nat → List Char → Option (Tree × List Char)
  | 0, _ => none
  | fuel + 1, inside =>
    match enclosing? inside with
    | some op => do
      let operand ← readTree fuel inside.tail
      some (.unary op operand.1, ← after? [')'] operand.2)
    | none => do
      let left ← readTree fuel inside
      let behind ← after? [' '] left.2
      let op ← BinaryOp.ofSymbol? (.ofList (behind.takeWhile (· != ' ')))
      let right ← readTree fuel (behind.dropWhile (· != ' ')).tail
      some (.binary op left.1 right.1, ← after? [')'] right.2)

/-- Reads what stands behind the operand. -/
def readSuffixes : Nat → Tree → List Char → Option (Tree × List Char)
  | 0, _, _ => none
  | fuel + 1, operand, chars =>
    if starts ['-', '>'] chars then
      readSuffixes fuel (.field operand (.ofList ((chars.drop 2).takeWhile isNameChar)))
        ((chars.drop 2).dropWhile isNameChar)
    else if starts ['+', '+'] chars then
      readSuffixes fuel (.unary .postIncrement operand) (chars.drop 2)
    else if starts ['-', '-'] chars then
      readSuffixes fuel (.unary .postDecrement operand) (chars.drop 2)
    else if starts ['('] chars then
      match slotRead? operand with
      | some slot => do
        let args ← readArgs fuel chars.tail
        readSuffixes fuel (.virtualCall slot.1 slot.2 args.1) args.2
      | none => some (operand, chars)
    else some (operand, chars)

/-- Reads arguments to the closing parenthesis. -/
def readArgs : Nat → List Char → Option (List Tree × List Char)
  | 0, _ => none
  | fuel + 1, chars =>
    if starts [')'] chars then some ([], chars.tail)
    else do
      let arg ← readTree fuel chars
      let others ← readMore fuel arg.2
      some (arg.1 :: others.1, others.2)

/-- Reads the arguments behind the first one. -/
def readMore : Nat → List Char → Option (List Tree × List Char)
  | 0, _ => none
  | fuel + 1, chars =>
    if starts [')'] chars then some ([], chars.tail)
    else do
      let arg ← readTree fuel (← after? [',', ' '] chars)
      let others ← readMore fuel arg.2
      some (arg.1 :: others.1, others.2)

end

/-- The reader comes to the result with any fuel from some bound on. -/
def Reads {α : Type} (reader : Nat → Option α) (result : α) : Prop :=
  ∃ bound, ∀ fuel, bound ≤ fuel → reader fuel = some result

namespace Reads

variable {α β : Type} {reader : Nat → Option α} {next : Nat → α → Option β} {result other : α}
  {last : β}

/-- **A reader comes to one result.** -/
theorem unique (reads : Reads reader result) (readsToo : Reads reader other) : result = other := by
  obtain ⟨bound, read⟩ := reads
  obtain ⟨boundToo, readToo⟩ := readsToo
  have same := read (max bound boundToo) (Nat.le_max_left ..)
  rw [readToo _ (Nat.le_max_right ..)] at same
  exact (Option.some.inj same).symm

theorem pure : Reads (fun _ => some result) result := ⟨0, fun _ _ => rfl⟩

/-- One reader behind another. -/
theorem bind (first : Reads reader result) (second : Reads (next · result) last) :
    Reads (fun fuel => (reader fuel).bind (next fuel)) last := by
  obtain ⟨bound, read⟩ := first
  obtain ⟨boundToo, readToo⟩ := second
  refine ⟨max bound boundToo, fun fuel enough => ?_⟩
  have here := read fuel (Nat.le_trans (Nat.le_max_left ..) enough)
  have there := readToo fuel (Nat.le_trans (Nat.le_max_right ..) enough)
  exact (congrArg (Option.bind · (next fuel)) here).trans there

/-- More fuel does no harm. -/
theorem later (reads : Reads reader result) (more : Nat) :
    Reads (fun fuel => reader (fuel + more)) result := by
  obtain ⟨bound, read⟩ := reads
  exact ⟨bound, fun fuel enough => read _ (Nat.le_add_right_of_le enough)⟩

/-- Steps of the reader that come to another one. -/
theorem after (steps : Nat) {stepped : Nat → Option α}
    (same : ∀ fuel, reader (fuel + steps) = stepped fuel) (reads : Reads stepped result) :
    Reads reader result := by
  obtain ⟨bound, read⟩ := reads
  refine ⟨bound + steps, fun fuel enough => ?_⟩
  have known := same (fuel - steps)
  rw [Nat.sub_add_cancel (Nat.le_of_add_left_le enough)] at known
  exact known.trans (read _ (Nat.le_sub_of_add_le enough))

end Reads

/-! ### The characters of a tree -/

variable {options : EmitOptions}

/-- The characters that are printed for a tree. -/
def Tree.chars (options : EmitOptions) (tree : Tree) : List Char := (tree.text options).toList

/-- The characters that are printed behind an operand. -/
def Suffix.chars (options : EmitOptions) (suffix : Suffix) : List Char :=
  (suffix.text options).toList

/-- The characters of arguments, without the parentheses around them. -/
def argChars (options : EmitOptions) : List Tree → List Char
  | [] => []
  | arg :: rest => arg.chars options ++ rest.flatMap fun other => ',' :: ' ' :: other.chars options

theorem toList_commas (args : List Tree) :
    (commas (args.map (·.text options))).toList = argChars options args := by
  cases args with
  | nil => rfl
  | cons arg rest =>
    induction rest generalizing arg with
    | nil => exact (List.append_nil _).symm
    | cons other rest step =>
      unfold commas at step ⊢
      rw [List.map_cons, List.map_cons, String.intercalate_cons_cons, String.toList_append,
        String.toList_append, ← List.map_cons, step other]
      simp [argChars, Tree.chars]

theorem toList_callText (callee : String) (args : List Tree) :
    (callText callee (args.map (·.text options))).toList =
      callee.toList ++ '(' :: (argChars options args ++ [')']) := by
  unfold callText parenthesized
  simp [toList_commas]

namespace Suffix

theorem chars_field (name : Name) :
    (field name).chars options = '-' :: '>' :: name.toList := by
  simp [chars, text]

theorem chars_call (slot : Name) (args : List Tree) :
    (call slot args).chars options = '-' :: '>' :: ("__vptr".toList ++
      '-' :: '>' :: (slot.toList ++ '(' :: (argChars options args ++ [')']))) := by
  simp [chars, text, parenthesized, toList_commas]

theorem chars_update (op : UnaryOp) (isPostfix : op.isPostfix = true) :
    (update op isPostfix).chars options = op.symbol.toList := rfl

end Suffix

namespace Tree

theorem chars_on (suffix : Suffix) (tree : Tree) :
    (suffix.on tree).chars options = tree.chars options ++ suffix.chars options := by
  unfold chars
  rw [Suffix.text_on, String.toList_append]
  rfl

theorem chars_localVar (name : Name) : (localVar name).chars options = name.toList := rfl

theorem chars_int (value : Nat) : (int value).chars options = Nat.toDigits 10 value ++
    if value ≤ 2147483647 then [] else ['L', 'L'] := by
  have digits : (toString (Int.ofNat value)).toList = Nat.toDigits 10 value := Nat.toList_repr
  show (intLiteral (Int.ofNat value)).toList = _
  unfold intLiteral
  rw [String.toList_append, digits]
  refine congrArg (Nat.toDigits 10 value ++ ·) ?_
  have small : (-2147483648 ≤ Int.ofNat value && Int.ofNat value ≤ 2147483647 : Bool) =
      decide (value ≤ 2147483647) := by
    rw [Bool.eq_iff_iff, Bool.and_eq_true, decide_eq_true_iff, decide_eq_true_iff,
      decide_eq_true_iff]
    show -2147483648 ≤ (value : Int) ∧ (value : Int) ≤ 2147483647 ↔ _
    omega
  rw [small]
  by_cases fits : value ≤ 2147483647
  · rw [if_pos (decide_eq_true fits), if_pos fits]
    rfl
  · rw [if_neg (mt of_decide_eq_true fits), if_neg fits]
    rfl

theorem chars_index (array position : Tree) : (index array position).chars options =
    '(' :: '*' :: (array.chars options ++ ')' :: '[' :: (position.chars options ++ [']'])) := by
  show (parenthesized ("*" ++ array.text options) ++ "[" ++ position.text options ++ "]").toList = _
  simp [parenthesized, chars]

theorem chars_assign (target value : Tree) : (assign target value).chars options =
    target.chars options ++ ' ' :: '=' :: ' ' :: value.chars options := by
  unfold chars
  rw [text_assign]
  simp

theorem chars_binary (op : BinaryOp) (left right : Tree) : (binary op left right).chars options =
    '(' :: (left.chars options ++
      ' ' :: (op.symbol.toList ++ ' ' :: (right.chars options ++ [')']))) := by
  show (binaryText op (left.text options) (right.text options)).toList = _
  simp [binaryText, parenthesized, chars]

theorem chars_counted {op : UnaryOp} (isPrefix : op.isPrefix = true) (operand : Tree) :
    (unary op operand).chars options = op.symbol.toList ++ operand.chars options := by
  unfold chars
  rw [text_counted isPrefix, String.toList_append]

theorem chars_enclosed {op : UnaryOp} (reads : op.mutates = false) (operand : Tree) :
    (unary op operand).chars options =
      '(' :: (op.symbol.toList ++ (operand.chars options ++ [')'])) := by
  have noPostfix : ¬op.isPostfix = true := by
    cases op <;> simp_all [UnaryOp.mutates, UnaryOp.isPostfix]
  unfold chars
  rw [text_unary, unaryText, if_neg noPostfix, if_neg (Bool.eq_false_iff.mp reads)]
  simp [parenthesized]

theorem chars_qualifiedCall (className method : Name) (args : List Tree) :
    (qualifiedCall className method args).chars options =
      (options.structName className).toList ++ ':' :: ':' :: method.toList ++
        '(' :: (argChars options args ++ [')']) := by
  show (callText (scope (options.structName className) method)
    (exprTexts options (exprs args))).toList = _
  rw [exprTexts_exprs]
  refine (toList_callText _ args).trans ?_
  simp [scope]

/-! ### The names of a tree -/

/-- The names of a node are identifiers. -/
def Names : Tree → Prop
  | localVar name | field _ name | virtualCall _ name _ => IsIdentifier name
  | qualifiedCall className method _ => IsIdentifier className ∧ IsIdentifier method
  | _ => True

/-- All names of the tree are identifiers. -/
def Named (tree : Tree) : Prop := tree.Each Names

end Tree

/-! ### Words -/

/-- What ends a word that is not called. -/
def Breaks (rest : List Char) : Prop :=
  ∀ char ∈ rest.head?, isScopeChar char = false ∧ char ≠ '('

/-- What ends an operand. -/
def Ends (rest : List Char) : Prop := ∀ char ∈ rest.head?, char ∈ [')', ']', ',', ' ']

/-- What ends a tree. -/
def Stops (rest : List Char) : Prop := Ends rest ∧ starts [' ', '=', ' '] rest = false

variable {char : Char} {token chars word inside rest : List Char} {tree : Tree}

theorem starts_of_head (other : ∀ head ∈ chars.head?, char ≠ head) :
    ¬starts (char :: token) chars = true := by
  cases chars with
  | nil => exact Bool.false_ne_true
  | cons head behind =>
    have apart : (char == head) = false := beq_eq_false_iff_ne.mpr (other head rfl)
    show ¬(char == head && token.isPrefixOf behind) = true
    rw [apart, Bool.false_and]
    exact Bool.false_ne_true

/-- Before what starts otherwise than with a sign stands no operator. -/
theorem readOperand_of_head (noPlus : ∀ head ∈ chars.head?, '+' ≠ head)
    (noDash : ∀ head ∈ chars.head?, '-' ≠ head) (fuel : Nat) :
    readOperand (fuel + 1) chars =
      (readAtom fuel chars).bind fun read => readSuffixes fuel read.1 read.2 := by
  rw [readOperand, if_neg (starts_of_head noPlus), if_neg (starts_of_head noDash)]
  rfl

/-- Where an operand ends, no suffix is read. -/
theorem reads_of_ends (ends : Ends rest) (operand : Tree) :
    Reads (readSuffixes · operand rest) (operand, rest) := by
  have apart {char : Char} {token : List Char} (other : char ∉ [')', ']', ',', ' ']) :
      ¬starts (char :: token) rest = true := by
    refine starts_of_head ?_
    rintro head here rfl
    exact other (ends _ here)
  refine .after 1 (fun fuel => ?_) .pure
  rw [readSuffixes, if_neg (apart (by decide)), if_neg (apart (by decide)),
    if_neg (apart (by decide)), if_neg (apart (by decide))]

/-- The word is made of names and colons and starts with a character of a name. -/
def IsWord (word : List Char) : Prop :=
  (∃ char behind, word = char :: behind ∧ isNameChar char = true) ∧
    ∀ char ∈ word, isScopeChar char = true

theorem IsWord.head_ne (isWord : IsWord word) (rest : List Char) {other : Char}
    (noName : isNameChar other = false) : ∀ head ∈ (word ++ rest).head?, other ≠ head := by
  obtain ⟨⟨char, behind, rfl, named⟩, _⟩ := isWord
  rintro head here rfl
  cases here
  cases named.symm.trans noName

theorem readAtom_word (isWord : IsWord word)
    (stops : ∀ char ∈ rest.head?, isScopeChar char = false) (fuel : Nat) :
    readAtom (fuel + 1) (word ++ rest) =
      if starts ['('] rest then
        (readArgs fuel rest.tail).bind fun args => some (scopedCall word args.1, args.2)
      else some (wordTree word, rest) := by
  obtain ⟨front, behind⟩ := takeWhile_stops isWord.2 stops
  rw [readAtom, if_neg (starts_of_head (isWord.head_ne rest (by decide))),
    if_neg (starts_of_head (isWord.head_ne rest (by decide))), front, behind]
  rfl

/-- A word that is not called is a local or a number. -/
theorem reads_word (isWord : IsWord word) (breaks : Breaks rest) {result : Tree × List Char}
    (reads : Reads (readSuffixes · (wordTree word) rest) result) :
    Reads (readOperand · (word ++ rest)) result := by
  refine .after 2 (fun fuel => ?_) (reads.later 1)
  rw [readOperand_of_head (isWord.head_ne rest (by decide)) (isWord.head_ne rest (by decide)),
    readAtom_word isWord fun char here => (breaks char here).1,
    if_neg (starts_of_head fun head here => (breaks head here).2.symm)]
  rfl

/-- A word that is called is a method in the scope of its class. -/
theorem reads_called (isWord : IsWord word) {args : List Tree} {result : Tree × List Char}
    (readArguments : Reads (readArgs · inside) (args, rest))
    (reads : Reads (readSuffixes · (scopedCall word args) rest) result) :
    Reads (readOperand · (word ++ '(' :: inside)) result := by
  have step (fuel : Nat) : readOperand (fuel + 2) (word ++ '(' :: inside) =
      (readArgs fuel inside).bind fun read =>
        readSuffixes (fuel + 1) (scopedCall word read.1) read.2 := by
    rw [readOperand_of_head (isWord.head_ne _ (by decide)) (isWord.head_ne _ (by decide)),
      readAtom_word isWord (by
        intro char here
        cases here
        decide)]
    exact Option.bind_assoc ..
  exact .after 2 step (readArguments.bind (reads.later 1))

/-- What a parenthesis encloses is an operand. -/
theorem reads_enclosed (other : ∀ head ∈ inside.head?, '*' ≠ head) {result : Tree × List Char}
    (enclosed : Reads (readEnclosed · inside) (tree, rest))
    (reads : Reads (readSuffixes · tree rest) result) :
    Reads (readOperand · ('(' :: inside)) result := by
  have noIndex : ¬starts ['(', '*'] ('(' :: inside) = true :=
    show ¬starts ['*'] inside = true from starts_of_head other
  have opens : starts ['('] ('(' :: inside) = true := rfl
  have step (fuel : Nat) : readOperand (fuel + 2) ('(' :: inside) =
      (readEnclosed fuel inside).bind fun read => readSuffixes (fuel + 1) read.1 read.2 := by
    rw [readOperand_of_head (by simp) (by simp), readAtom, if_neg noIndex, if_pos opens]
    rfl
  exact .after 2 step (enclosed.bind (reads.later 1))

/-! ### The words of a tree -/

theorem IsIdentifier.isWord {name : Name} (identifier : IsIdentifier name) :
    IsWord name.toList := by
  obtain ⟨char, behind, chars, named, _⟩ := identifier.exists_head
  exact ⟨⟨char, behind, chars, named⟩, fun _ member =>
    isScopeChar_of_isNameChar (identifier.each _ member)⟩

theorem wordTree_name {name : Name} (identifier : IsIdentifier name) :
    wordTree name.toList = .localVar name := by
  obtain ⟨char, behind, chars, _, noDigit⟩ := identifier.exists_head
  have noNumber : ¬name.toList.head?.any Char.isDigit = true := by
    rw [chars, List.head?_cons, Option.any_some, noDigit]
    exact Bool.false_ne_true
  unfold wordTree
  rw [if_neg noNumber, String.ofList_toList]

theorem toDigits_each (value : Nat) : ∀ char ∈ Nat.toDigits 10 value, char.isDigit = true :=
  fun _ member => Nat.isDigit_of_mem_toDigits (Nat.succ_pos 9) (Nat.le_refl 10) member

theorem digits_exists_head (value : Nat) :
    ∃ char behind, Nat.toDigits 10 value = char :: behind ∧ char.isDigit = true := by
  have each := toDigits_each value
  cases digits : Nat.toDigits 10 value with
  | nil => exact absurd digits Nat.toDigits_ne_nil
  | cons char behind =>
    rw [digits] at each
    exact ⟨char, behind, rfl, each char List.mem_cons_self⟩

theorem isWord_int (value : Nat) : IsWord ((Tree.int value).chars options) := by
  obtain ⟨char, behind, digits, digit⟩ := digits_exists_head value
  rw [Tree.chars_int]
  refine ⟨⟨char, _, congrArg (· ++ _) digits, isNameChar_of_isDigit digit⟩, ?_⟩
  rw [List.forall_mem_append]
  refine ⟨fun char member => isScopeChar_of_isNameChar
    (isNameChar_of_isDigit (toDigits_each value char member)), ?_⟩
  split <;> exact forall_of_all rfl

theorem wordTree_int (value : Nat) : wordTree ((Tree.int value).chars options) = .int value := by
  obtain ⟨char, behind, digits, digit⟩ := digits_exists_head value
  have number : ((Tree.int value).chars options).head?.any Char.isDigit = true := by
    rw [Tree.chars_int, digits]
    exact digit
  have split : ((Tree.int value).chars options).takeWhile Char.isDigit = Nat.toDigits 10 value := by
    rw [Tree.chars_int]
    refine (takeWhile_stops (toDigits_each value) ?_).1
    split <;> simp
  unfold wordTree
  rw [if_pos number, split, Nat.ofDigitChars_toDigits (by decide) (by decide)]

theorem apart_of_free {name : List Char} (free : ':' ∉ name) :
    ∀ char ∈ name.reverse, (char != ':') = true := by
  intro char member
  rw [bne_iff_ne]
  rintro rfl
  exact free (List.mem_reverse.mp member)

theorem lastName_of_free {name : List Char} (free : ':' ∉ name) : lastName name = name := by
  have ends : ∀ char ∈ ([] : List Char).head?, (char != ':') = false := by simp
  have split := (takeWhile_stops (apart_of_free free) ends).1
  rw [List.append_nil] at split
  unfold lastName
  rw [split, List.reverse_reverse]

theorem lastName_append (front : List Char) {name : List Char} (free : ':' ∉ name) :
    lastName (front ++ ':' :: name) = name := by
  unfold lastName
  rw [List.reverse_append, List.reverse_cons, List.append_assoc,
    (takeWhile_stops (apart_of_free free) (by simp)).1, List.reverse_reverse]

theorem IsIdentifier.free {name : Name} (identifier : IsIdentifier name) : ':' ∉ name.toList := by
  intro member
  cases (identifier.each _ member).symm.trans (by decide : isNameChar ':' = false)

/-- The text of a struct is that of its class behind two underscores, in the namespace of the
runtime for a class that is provided. -/
theorem toList_structName (className : Name) : (options.structName className).toList =
    (if EmitOptions.isRuntimeClass className then options.runtime.toList ++ [':', ':'] else []) ++
      '_' :: '_' :: className.toList := by
  unfold EmitOptions.structName EmitOptions.classScoped EmitOptions.runtimeName
  split <;> simp

/-- A struct's text shows its class. -/
theorem structClass_structName {className : Name} (identifier : IsIdentifier className) :
    structClass (options.structName className).toList = className := by
  have free : ':' ∉ '_' :: '_' :: className.toList := by simp [identifier.free]
  have own : lastName (options.structName className).toList = '_' :: '_' :: className.toList := by
    rw [toList_structName]
    split
    · refine (congrArg lastName ?_).trans (lastName_append (options.runtime.toList ++ [':']) free)
      simp
    · exact lastName_of_free free
  unfold structClass
  rw [own]
  exact String.ofList_toList

/-- The word that names a method in the scope of its class. -/
def scopedWord (options : EmitOptions) (className method : Name) : List Char :=
  (options.structName className).toList ++ ':' :: ':' :: method.toList

theorem isWord_scoped (runtime : IsWord options.runtime.toList) {className method : Name}
    (classNamed : IsIdentifier className) (methodNamed : IsIdentifier method) :
    IsWord (scopedWord options className method) := by
  have own : ∀ char ∈ '_' :: '_' :: className.toList, isScopeChar char = true := by
    rw [List.forall_mem_cons, List.forall_mem_cons]
    exact ⟨rfl, rfl, classNamed.isWord.2⟩
  obtain ⟨char, behind, chars, named⟩ := runtime.1
  unfold scopedWord
  rw [toList_structName]
  constructor
  · split
    · rw [chars]
      exact ⟨char, _, rfl, named⟩
    · exact ⟨'_', _, rfl, rfl⟩
  · have method : ∀ char ∈ ':' :: ':' :: method.toList, isScopeChar char = true := by
      rw [List.forall_mem_cons, List.forall_mem_cons]
      exact ⟨rfl, rfl, methodNamed.isWord.2⟩
    rw [List.forall_mem_append, List.forall_mem_append]
    refine ⟨⟨?_, own⟩, method⟩
    split
    · rw [List.forall_mem_append]
      exact ⟨runtime.2, forall_of_all rfl⟩
    · exact fun _ member => nomatch member

theorem scopedCall_scoped {className method : Name} (classNamed : IsIdentifier className)
    (methodNamed : IsIdentifier method) (args : List Tree) :
    scopedCall (scopedWord options className method) args =
      .qualifiedCall className method args := by
  have last : lastName (scopedWord options className method) = method.toList :=
    (congrArg lastName (List.append_cons ..)).trans (lastName_append _ methodNamed.free)
  have struct : (scopedWord options className method).take
      ((scopedWord options className method).length - method.toList.length - 2) =
        (options.structName className).toList := by
    unfold scopedWord
    rw [List.length_append, List.length_cons, List.length_cons,
      show ∀ front behind : Nat, front + (behind + 1 + 1) - behind - 2 = front by omega]
    exact List.take_left
  unfold scopedCall
  rw [last, struct, structClass_structName classNamed, String.ofList_toList]

/-! ### What a text opens with -/

/-- The text starts with a name, a number, a parenthesis or operators that count their operand. -/
def Opening (chars : List Char) : Prop :=
  (∃ char behind, chars = char :: behind ∧
    (isNameChar char = true ∨ char ∈ ['(', '+', '-'])) ∧ dashes chars % 2 = 0

theorem dashes_of_head (other : ∀ head ∈ chars.head?, '-' ≠ head) : dashes chars = 0 := by
  cases chars with
  | nil => rfl
  | cons head behind =>
    unfold dashes
    rw [List.takeWhile_cons_of_neg (by
      rw [beq_iff_eq]
      exact (other head rfl).symm)]
    rfl

theorem dashes_cons (chars : List Char) : dashes ('-' :: chars) = dashes chars + 1 := by
  unfold dashes
  rw [List.takeWhile_cons_of_pos rfl, List.length_cons]

theorem IsWord.opening (isWord : IsWord word) (rest : List Char) : Opening (word ++ rest) := by
  refine ⟨?_, ?_⟩
  · obtain ⟨⟨char, behind, rfl, named⟩, _⟩ := isWord
    exact ⟨char, _, rfl, .inl named⟩
  · rw [dashes_of_head (isWord.head_ne rest (by decide))]

theorem opening_parenthesis (inside : List Char) : Opening ('(' :: inside) := by
  refine ⟨⟨_, _, rfl, .inr (by decide)⟩, ?_⟩
  rw [dashes_of_head (by simp)]

/-- **What is printed for a grouped tree starts so, whatever stands behind it.** -/
theorem Tree.opening (runtime : IsWord options.runtime.toList) (grouped : tree.Grouped)
    (named : tree.Named) (rest : List Char) : Opening (tree.chars options ++ rest) := by
  induction tree using Tree.induct generalizing rest with
  | localVar name => exact (IsIdentifier.isWord named).opening rest
  | int value => exact (isWord_int value).opening rest
  | field object name step =>
    rw [show (field object name).chars options = _ from chars_on (.field name) object,
      List.append_assoc]
    exact step grouped.2 named.2 _
  | index array position _ _ =>
    rw [chars_index]
    exact opening_parenthesis _
  | assign target value step _ =>
    rw [chars_assign, List.append_assoc]
    exact step grouped.2.1 named.2.1 _
  | binary op left right _ _ =>
    rw [chars_binary]
    exact opening_parenthesis _
  | unary op operand step =>
    have inside := step grouped.2 named.2
    have suffix (isPostfix : op.isPostfix = true) :
        Opening ((unary op operand).chars options ++ rest) := by
      rw [show (unary op operand).chars options = _ from chars_on (.update op isPostfix) operand,
        List.append_assoc]
      exact inside _
    cases op with
    | negate | complement =>
      rw [chars_enclosed rfl]
      exact opening_parenthesis _
    | preIncrement =>
      rw [chars_counted rfl]
      have noDashes : dashes ('+' :: '+' :: (operand.chars options ++ rest)) = 0 :=
        dashes_of_head (by simp)
      exact ⟨⟨'+', _, rfl, .inr (by decide)⟩, congrArg (· % 2) noDashes⟩
    | preDecrement =>
      have even : dashes ('-' :: '-' :: (operand.chars options ++ rest)) % 2 = 0 := by
        rw [dashes_cons, dashes_cons]
        exact (Nat.add_mod_right ..).trans (inside rest).2
      rw [chars_counted rfl]
      exact ⟨⟨'-', _, rfl, .inr (by decide)⟩, even⟩
    | postIncrement | postDecrement => exact suffix rfl
  | virtualCall receiver slot args step _ =>
    rw [show (virtualCall receiver slot args).chars options = _ from
      chars_on (.call slot args) receiver, List.append_assoc]
    exact step grouped.2.1 named.2.1 _
  | qualifiedCall className method args _ =>
    rw [chars_qualifiedCall]
    exact (List.append_assoc .. ▸ (isWord_scoped runtime named.1.1 named.1.2).opening _)

theorem Opening.head_ne (opening : Opening chars) {other : Char}
    (noName : isNameChar other = false) (noSign : other ∉ ['(', '+', '-']) :
    ∀ head ∈ chars.head?, other ≠ head := by
  obtain ⟨⟨char, behind, rfl, kind⟩, _⟩ := opening
  rintro head here rfl
  cases here
  rcases kind with named | sign
  · cases named.symm.trans noName
  · exact noSign sign

/-- Before a tree stands no operator that has its operand alone. -/
theorem Opening.enclosing (opening : Opening chars) : enclosing? chars = none := by
  have noBang : chars.head? ≠ some '!' := fun here =>
    opening.head_ne (by decide) (by decide) '!' here rfl
  unfold enclosing?
  rw [if_neg noBang, if_neg (by
    rw [opening.2]
    decide)]

/-- A minus sign before a tree is told from a count downwards. -/
theorem Opening.enclosing_negate (opening : Opening chars) :
    enclosing? ('-' :: chars) = some .negate := by
  have odd : dashes ('-' :: chars) % 2 = 1 := by
    rw [dashes_cons, Nat.add_mod, opening.2]
  unfold enclosing?
  rw [if_neg (by simp), if_pos odd]

/-! ### Suffixes -/

theorem breaks_suffix (suffix : Suffix) (rest : List Char) :
    Breaks (suffix.chars options ++ rest) := by
  have sign (head : Char) (kind : head ∈ ['+', '-']) (behind : List Char) :
      Breaks (head :: behind) := by
    have all : ∀ head ∈ ['+', '-'], isScopeChar head = false ∧ head ≠ '(' :=
      forall_of_all (by decide)
    intro char here
    cases here
    exact all head kind
  cases suffix with
  | field name =>
    rw [Suffix.chars_field]
    exact sign '-' (by decide) _
  | call slot args =>
    rw [Suffix.chars_call]
    exact sign '-' (by decide) _
  | update op isPostfix =>
    rw [Suffix.chars_update]
    cases op with
    | postIncrement => exact sign '+' (by decide) _
    | postDecrement => exact sign '-' (by decide) _
    | _ => cases isPostfix

theorem reads_field {name : Name} (identifier : IsIdentifier name) {object : Tree}
    (stops : ∀ char ∈ rest.head?, isScopeChar char = false) {result : Tree × List Char}
    (reads : Reads (readSuffixes · (.field object name) rest) result) :
    Reads (readSuffixes · object ('-' :: '>' :: (name.toList ++ rest))) result := by
  have ends : ∀ char ∈ rest.head?, isNameChar char = false :=
    fun char here => (Bool.or_eq_false_iff.mp (stops char here)).1
  obtain ⟨front, behind⟩ := takeWhile_stops identifier.each ends
  have member : starts ['-', '>'] ('-' :: '>' :: (name.toList ++ rest)) = true := rfl
  refine .after 1 (fun fuel => ?_) reads
  rw [readSuffixes, if_pos member]
  show readSuffixes fuel (.field object (.ofList ((name.toList ++ rest).takeWhile isNameChar)))
    ((name.toList ++ rest).dropWhile isNameChar) = _
  rw [front, behind, String.ofList_toList]

/-- What is called behind a slot of the method table is the slot. -/
theorem reads_call {receiver : Tree} {slot : Name} {args : List Tree} {result : Tree × List Char}
    (readArguments : Reads (readArgs · inside) (args, rest))
    (reads : Reads (readSuffixes · (.virtualCall receiver slot args) rest) result) :
    Reads (readSuffixes · (.field (.field receiver "__vptr") slot) ('(' :: inside)) result := by
  have step (fuel : Nat) :
      readSuffixes (fuel + 1) (.field (.field receiver "__vptr") slot) ('(' :: inside) =
        (readArgs fuel inside).bind fun read =>
          readSuffixes fuel (.virtualCall receiver slot read.1) read.2 := rfl
  exact .after 1 step (readArguments.bind reads)

end Cpp

end ObjectLowering
