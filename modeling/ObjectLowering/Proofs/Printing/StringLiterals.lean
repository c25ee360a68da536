/-
**How string literals are read.**

A text is printed between double quotes, with a backslash in front of what cannot stand there. An
escape that names its character, such as `\n`, ends by itself. One that gives a number does not:
`\x` goes on over all hexadecimal digits, and a backslash with an octal digit over two more of them.
So a control character takes in the digits that happen to follow it.

* `Cpp.readLiteral?` reads a literal as C++ does, to the codes of its characters.
* `Cpp.Continues` says which characters the number of the one in front of them takes in.
* `Cpp.readDigits_literalBody`: a number takes in characters of the text, and no part of an escape.
* `Cpp.reads_literalBody`: the literals, by induction on their length.
* **`Cpp.quoted_reads_iff`**: every literal is read to its closing quote, and as the text that was
  printed exactly if no number goes on.
-/

import Mathlib.Data.List.Chain
import Mathlib.Data.List.Infix
import ObjectLowering.Cpp.Spelling

namespace ObjectLowering.Cpp

open Text (escapeChar hexByte hexDigit isControl)

/-! ### Reading a literal -/

/-- The value of a digit of a base. -/
def digit? (base : Nat) (char : Char) : Option Nat :=
  Option.filter (· < base) <|
    if char.isDigit then some (char.toNat - '0'.toNat)
    else if 'a' ≤ char ∧ char ≤ 'f' then some (char.toNat - 'a'.toNat + 10)
    else if 'A' ≤ char ∧ char ≤ 'F' then some (char.toNat - 'A'.toNat + 10)
    else none

/-- Reads on a number while digits follow, up to a limit: the number and what is behind it. -/
def readDigits (base : Nat) : Nat → Nat → List Char → Nat × List Char
  | limit + 1, number, char :: rest =>
    match digit? base char with
    | some digit => readDigits base limit (base * number + digit) rest
    | none => (number, char :: rest)
  | _, number, chars => (number, chars)

/-- Reads a number of at least one digit. -/
def readNumber? (base limit : Nat) (chars : List Char) : Option (Nat × List Char) :=
  if chars.head?.any fun char => (digit? base char).isSome then some (readDigits base limit 0 chars)
  else none

/-- What a letter behind a backslash stands for. -/
def named? : Char → Option Char
  | '\\' => some '\\'
  | '"' => some '"'
  | 'n' => some '\n'
  | 'r' => some '\r'
  | 't' => some '\t'
  | _ => none

/-- Reads an escape sequence behind its backslash: the code of a character and what is behind it. -/
def readEscape? : List Char → Option (Nat × List Char)
  | [] => none
  | char :: rest =>
    match named? char with
    | some named => some (named.toNat, rest)
    | none =>
      if char = 'x' then readNumber? 16 rest.length rest
      else readNumber? 8 3 (char :: rest)

theorem length_readDigits_le (base limit number : Nat) (chars : List Char) :
    (readDigits base limit number chars).2.length ≤ chars.length := by
  fun_induction readDigits base limit number chars with
  | case1 limit number char rest digit found step => exact Nat.le_succ_of_le step
  | case2 => exact Nat.le_refl _
  | case3 => exact Nat.le_refl _

theorem length_readEscape?_le {chars behind : List Char} {code : Nat}
    (read : readEscape? chars = some (code, behind)) : behind.length ≤ chars.length := by
  have number {base limit : Nat} {chars : List Char}
      (read : readNumber? base limit chars = some (code, behind)) :
      behind.length ≤ chars.length := by
    unfold readNumber? at read
    split at read
    · rw [Option.some.injEq] at read
      have shorter := length_readDigits_le base limit 0 chars
      rwa [read] at shorter
    · cases read
  unfold readEscape? at read
  split at read
  · cases read
  · split at read
    · cases read
      exact Nat.le_succ _
    · split at read
      · exact Nat.le_succ_of_le (number read)
      · exact number read

/-- Reads the codes of the characters up to the closing quote, which has to be the last character. A
line may not end within a literal. -/
def readCodes? (chars : List Char) : Option (List Nat) :=
  match chars with
  | [] => none
  | char :: rest =>
    if char = '"' then (if rest.isEmpty then some [] else none)
    else if char = '\n' ∨ char = '\r' then none
    else if char = '\\' then
      match _ : readEscape? rest with
      | none => none
      | some (code, behind) => (readCodes? behind).map (code :: ·)
    else (readCodes? rest).map (char.toNat :: ·)
termination_by chars.length
decreasing_by
  · exact Nat.lt_succ_of_le (length_readEscape?_le ‹_›)
  · exact Nat.lt_succ_self _

/-- Reads a literal between double quotes: the codes of its characters. -/
def readLiteral? : List Char → Option (List Nat)
  | '"' :: rest => readCodes? rest
  | _ => none

section Steps

variable {char : Char} {rest behind : List Char} {code : Nat}

theorem readCodes?_plain (opens : char ≠ '\\') (closes : char ≠ '"') (feeds : char ≠ '\n')
    (returns : char ≠ '\r') :
    readCodes? (char :: rest) = (readCodes? rest).map (char.toNat :: ·) := by
  rw [readCodes?, if_neg closes, if_neg (not_or.mpr ⟨feeds, returns⟩), if_neg opens]

theorem readCodes?_escape (read : readEscape? rest = some (code, behind)) :
    readCodes? ('\\' :: rest) = (readCodes? behind).map (code :: ·) := by
  rw [readCodes?, if_neg (by decide), if_neg (by decide), if_pos rfl, read]

theorem readCodes?_close : readCodes? ['"'] = some [] := by
  rw [readCodes?, if_pos rfl]
  rfl

end Steps

/-! ### Escaped characters -/

/-- The base of the number that a character is escaped to, if it is. -/
def numberBase? (char : Char) : Option Nat :=
  if char.toNat = 0 then some 8
  else if isControl char && !(['\n', '\r', '\t'].contains char) then some 16
  else none

/-- Whether the number of an escaped character goes on into the next character. -/
def Continues (char next : Char) : Prop :=
  ∃ base, numberBase? char = some base ∧ (digit? base next).isSome = true

theorem digit?_hexDigit {value : Nat} (below : value < 16) :
    digit? 16 (hexDigit value) = some value := by
  have each : ∀ value : Fin 16, digit? 16 (hexDigit value) = some value.1 := by decide
  exact each ⟨value, below⟩

/-- How a character is written between double quotes. -/
inductive CharForm (char : Char) : Prop where
  | named (letter : Char) (written : escapeChar '"' char = ['\\', letter])
    (means : named? letter = some char) (whole : numberBase? char = none)
  | numbered (base : Nat) (digits : List Char) (isNumber : numberBase? char = some base)
    (written : escapeChar '"' char = '\\' :: digits)
    (reads : ∀ behind ≠ [], ∃ limit, readEscape? (digits ++ behind) =
      some (readDigits base (limit + 1) char.toNat behind))
  | plain (written : escapeChar '"' char = [char]) (whole : numberBase? char = none)
    (opens : char ≠ '\\') (closes : char ≠ '"') (feeds : char ≠ '\n') (returns : char ≠ '\r')

theorem readEscape?_hexByte {code : Nat} (byte : code < 256) {behind : List Char}
    (more : behind ≠ []) : ∃ limit,
      readEscape? ('x' :: hexByte code ++ behind) =
        some (readDigits 16 (limit + 1) code behind) := by
  obtain ⟨limit, long⟩ := Nat.exists_eq_add_one.mpr (List.length_pos_of_ne_nil more)
  have high := digit?_hexDigit (Nat.mod_lt (code / 16) (by decide : 16 > 0))
  have low := digit?_hexDigit (Nat.mod_lt code (by decide : 16 > 0))
  have value : 16 * (16 * 0 + code / 16 % 16) + code % 16 = code := by omega
  refine ⟨limit, ?_⟩
  unfold hexByte
  show readNumber? 16 (behind.length + 2) (hexDigit _ :: hexDigit _ :: behind) = _
  unfold readNumber?
  rw [List.head?_cons, Option.any_some, high, Option.isSome_some, if_pos rfl, readDigits, high]
  dsimp only
  rw [readDigits, low, long]
  dsimp only
  rw [value]

theorem charForm (char : Char) : CharForm char := by
  by_cases special : char ∈ ['\\', '\n', '\r', '\t', '"']
  · simp only [List.mem_cons, List.not_mem_nil, or_false] at special
    rcases special with rfl | rfl | rfl | rfl | rfl
    · exact .named '\\' rfl rfl rfl
    · exact .named 'n' rfl rfl rfl
    · exact .named 'r' rfl rfl rfl
    · exact .named 't' rfl rfl rfl
    · exact .named '"' rfl rfl rfl
  · simp only [List.mem_cons, List.not_mem_nil, or_false, not_or] at special
    obtain ⟨opens, feeds, returns, tabs, closes⟩ := special
    have outside : ['\n', '\r', '\t'].contains char = false := by
      simp [feeds, returns, tabs]
    by_cases zero : char.toNat = 0
    · refine .numbered 8 ['0'] (if_pos zero) ?_ fun behind _ => ⟨1, ?_⟩
      · unfold escapeChar
        rw [if_neg opens, if_neg feeds, if_neg returns, if_neg tabs, if_pos zero]
      · rw [zero]
        rfl
    · cases control : isControl char with
      | true =>
        refine .numbered 16 ('x' :: hexByte char.toNat) ?_ ?_ fun behind more => ?_
        · unfold numberBase?
          rw [if_neg zero, control, outside]
          rfl
        · unfold escapeChar
          rw [if_neg opens, if_neg feeds, if_neg returns, if_neg tabs, if_neg zero,
            if_neg closes, if_pos control]
        · refine readEscape?_hexByte ?_ more
          unfold isControl at control
          simp only [Bool.or_eq_true, Bool.and_eq_true, decide_eq_true_eq] at control
          omega
      | false =>
        refine .plain ?_ ?_ opens closes feeds returns
        · unfold escapeChar
          rw [if_neg opens, if_neg feeds, if_neg returns, if_neg tabs, if_neg zero,
            if_neg closes, control]
          rfl
        · unfold numberBase?
          rw [if_neg zero, control]
          rfl

/-! ### Numbers in front of an escaped text -/

/-- A text as it is written behind the opening quote. -/
def literalBody (text : List Char) : List Char := text.flatMap (escapeChar '"') ++ ['"']

theorem literalBody_cons (char : Char) (rest : List Char) :
    literalBody (char :: rest) = escapeChar '"' char ++ literalBody rest := by
  unfold literalBody
  rw [List.flatMap_cons, List.append_assoc]

theorem literalBody_ne_nil (text : List Char) : literalBody text ≠ [] :=
  List.append_ne_nil_of_right_ne_nil _ (List.cons_ne_nil _ _)

section Digits

variable {base : Nat} {char : Char} {text : List Char}

/-- A digit stands for itself. -/
theorem escapeChar_of_digit? (isDigit : (digit? base char).isSome = true) :
    escapeChar '"' char = [char] := by
  have range : 48 ≤ char.toNat ∧ char.toNat ≤ 102 := by
    unfold digit? at isDigit
    rw [Option.isSome_filter] at isDigit
    split at isDigit
    · rename_i decimal
      rw [Char.isDigit, Bool.and_eq_true, decide_eq_true_iff, decide_eq_true_iff] at decimal
      have low : 48 ≤ char.toNat := decimal.1
      have high : char.toNat ≤ 57 := decimal.2
      omega
    · split at isDigit
      · rename_i letter
        have low : 97 ≤ char.toNat := letter.1
        have high : char.toNat ≤ 102 := letter.2
        omega
      · split at isDigit
        · rename_i letter
          have low : 65 ≤ char.toNat := letter.1
          have high : char.toNat ≤ 70 := letter.2
          omega
        · cases isDigit
  have plain : isControl char = false := by
    unfold isControl
    simp only [Bool.or_eq_false_iff, Bool.and_eq_false_iff, decide_eq_false_iff_not]
    omega
  have other {special : Char} (none : digit? base special = none) : char ≠ special := by
    rintro rfl
    rw [none] at isDigit
    cases isDigit
  unfold escapeChar
  rw [if_neg (other rfl), if_neg (other rfl), if_neg (other rfl), if_neg (other rfl),
    if_neg (Nat.ne_of_gt (Nat.lt_of_lt_of_le (by decide) range.1)), if_neg (other rfl), plain]
  rfl

/-- A number ends where no digit follows. -/
theorem readDigits_of_head {chars : List Char}
    (stops : ∀ next ∈ chars.head?, digit? base next = none) (limit number : Nat) :
    readDigits base limit number chars = (number, chars) := by
  cases limit with
  | zero => rfl
  | succ limit =>
    cases chars with
    | nil => rfl
    | cons next rest =>
      unfold readDigits
      rw [stops next rfl]

/-- Only a digit of the text is a digit of its escaped form. -/
theorem head?_literalBody (stops : ∀ next ∈ text.head?, digit? base next = none) :
    ∀ next ∈ (literalBody text).head?, digit? base next = none := by
  intro next first
  cases text with
  | nil =>
    cases first
    rfl
  | cons char rest =>
    rw [literalBody_cons] at first
    cases charForm char with
    | named letter written =>
      rw [written] at first
      cases first
      rfl
    | numbered _ digits _ written =>
      rw [written] at first
      cases first
      rfl
    | plain written =>
      rw [written] at first
      exact stops next first

/-- **A number takes in characters of the text and leaves the rest as it is escaped.** -/
theorem readDigits_literalBody (base limit number : Nat) (text : List Char) :
    ∃ code behind, behind <:+ text ∧
      readDigits base limit number (literalBody text) = (code, literalBody behind) := by
  induction limit generalizing number text with
  | zero => exact ⟨number, text, List.suffix_rfl, rfl⟩
  | succ limit step =>
    cases text with
    | nil =>
      have stops : ∀ next ∈ ([] : List Char).head?, digit? base next = none := by simp
      exact ⟨number, [], List.suffix_rfl, readDigits_of_head (head?_literalBody stops) _ _⟩
    | cons next rest =>
      cases found : digit? base next with
      | none =>
        have stops : ∀ char ∈ (next :: rest).head?, digit? base char = none := by
          rintro _ ⟨⟩
          exact found
        exact ⟨number, next :: rest, List.suffix_rfl,
          readDigits_of_head (head?_literalBody stops) _ _⟩
      | some digit =>
        obtain ⟨code, behind, ends, read⟩ := step (base * number + digit) rest
        refine ⟨code, behind, ends.trans (List.suffix_cons next rest), ?_⟩
        have plain := escapeChar_of_digit? (Option.isSome_iff_exists.mpr ⟨digit, found⟩)
        rw [literalBody_cons, plain, List.singleton_append, readDigits, found]
        exact read

/-- A digit that follows is taken in. -/
theorem readDigits_literalBody_cons (isDigit : (digit? base char).isSome = true)
    (limit number : Nat) (rest : List Char) : ∃ code behind, behind <:+ rest ∧
      readDigits base (limit + 1) number (literalBody (char :: rest)) =
        (code, literalBody behind) := by
  obtain ⟨digit, found⟩ := Option.isSome_iff_exists.mp isDigit
  obtain ⟨code, behind, ends, read⟩ :=
    readDigits_literalBody base limit (base * number + digit) rest
  refine ⟨code, behind, ends, ?_⟩
  rw [literalBody_cons, escapeChar_of_digit? isDigit, List.singleton_append, readDigits, found]
  exact read

end Digits

/-! ### Whole literals -/

/-- The codes that a text reads as: there are no more of them than the text has characters, and they
are its own exactly if no number goes on. -/
structure Reading (text : List Char) (codes : List Nat) : Prop where
  short : codes.length ≤ text.length
  same : codes = text.map Char.toNat ↔ text.IsChain fun char next => ¬Continues char next

theorem Reading.cons {char : Char} {rest : List Char} {codes : List Nat}
    (reading : Reading rest codes) (ends : ∀ next ∈ rest.head?, ¬Continues char next) :
    Reading (char :: rest) (char.toNat :: codes) where
  short := Nat.succ_le_succ reading.short
  same := by
    rw [List.map_cons, List.cons.injEq, and_iff_right rfl, reading.same, List.isChain_cons]
    exact (and_iff_right ends).symm

/-- A number that goes on takes in a character. -/
theorem Reading.shorter {char next : Char} {rest behind : List Char} {codes : List Nat}
    (reading : Reading behind codes) (ends : behind <:+ rest) (continues : Continues char next)
    (code : Nat) : Reading (char :: next :: rest) (code :: codes) := by
  have fewer : (code :: codes).length < (char :: next :: rest).length :=
    Nat.succ_lt_succ (Nat.lt_succ_of_le (reading.short.trans ends.length_le))
  refine ⟨fewer.le, iff_of_false (fun same => ?_) fun chain => ?_⟩
  · rw [same, List.length_map] at fewer
    exact Nat.lt_irrefl _ fewer
  · exact (List.isChain_cons_cons.mp chain).1 continues

theorem not_continues_of_whole {char : Char} (whole : numberBase? char = none) (next : Char) :
    ¬Continues char next := by
  rintro ⟨_, number, _⟩
  rw [whole] at number
  cases number

/-- **Every escaped text is read to its end, and as itself exactly if no number goes on.** -/
theorem reads_literalBody (text : List Char) :
    ∃ codes, readCodes? (literalBody text) = some codes ∧ Reading text codes := by
  -- A number takes in characters, so what is read behind it is a shorter text.
  induction length : text.length using Nat.strongRecOn generalizing text with
  | _ _ step =>
    cases text with
    | nil => exact ⟨[], readCodes?_close, Nat.le_refl _, iff_of_true rfl .nil⟩
    | cons char rest =>
      have shorter {behind : List Char} (ends : behind <:+ rest) :=
        step behind.length (by rw [← length]; exact Nat.lt_succ_of_le ends.length_le) behind rfl
      obtain ⟨codes, read, reading⟩ := shorter List.suffix_rfl
      rw [literalBody_cons]
      cases charForm char with
      | named letter written means whole =>
        refine ⟨_, ?_, reading.cons fun next _ => not_continues_of_whole whole next⟩
        rw [written]
        have escape : readEscape? (letter :: literalBody rest) =
            some (char.toNat, literalBody rest) := by
          dsimp only [readEscape?]
          rw [means]
        exact (readCodes?_escape escape).trans (by rw [read]; rfl)
      | plain written whole opens closes feeds returns =>
        refine ⟨_, ?_, reading.cons fun next _ => not_continues_of_whole whole next⟩
        rw [written, List.singleton_append, readCodes?_plain opens closes feeds returns, read]
        rfl
      | numbered base digits isNumber written reads =>
        obtain ⟨limit, escape⟩ := reads _ (literalBody_ne_nil rest)
        rw [written, List.cons_append]
        by_cases goesOn : ∃ next ∈ rest.head?, (digit? base next).isSome = true
        · obtain ⟨next, first, isDigit⟩ := goesOn
          obtain ⟨rest, rfl⟩ := List.head?_eq_some_iff.mp first
          obtain ⟨code, behind, ends, number⟩ :=
            readDigits_literalBody_cons isDigit limit char.toNat rest
          obtain ⟨codes, read, reading⟩ := shorter (ends.trans (List.suffix_cons next rest))
          refine ⟨code :: codes, ?_, reading.shorter ends ⟨base, isNumber, isDigit⟩ code⟩
          rw [number] at escape
          exact (readCodes?_escape escape).trans (by rw [read]; rfl)
        · have stops : ∀ next ∈ rest.head?, digit? base next = none := fun next first =>
            Option.not_isSome_iff_eq_none.mp fun isDigit => goesOn ⟨next, first, isDigit⟩
          refine ⟨char.toNat :: codes, ?_, reading.cons ?_⟩
          · rw [readDigits_of_head (head?_literalBody stops)] at escape
            exact (readCodes?_escape escape).trans (by rw [read]; rfl)
          · rintro next first ⟨other, isNumberToo, isDigit⟩
            cases isNumber.symm.trans isNumberToo
            exact goesOn ⟨next, first, isDigit⟩

/-- **Every string literal is read to its closing quote, and gives back the text that was printed
exactly if no escaped number goes on into the next character**: a NUL has no octal digit behind it,
and any other control character without a letter of its own no hexadecimal digit. -/
theorem quoted_reads_iff (text : String) :
    ∃ codes, readLiteral? (quoted text).toList = some codes ∧
      (codes = text.toList.map Char.toNat ↔
        text.toList.IsChain fun char next => ¬Continues char next) := by
  obtain ⟨codes, read, reading⟩ := reads_literalBody text.toList
  refine ⟨codes, ?_, reading.same⟩
  unfold quoted Text.escape
  simp only [String.toList_append, String.toList_ofList]
  exact read

/-- **The letter behind a control character is lost.** -/
theorem quoted_loses_letter :
    readLiteral? (quoted "\x01a").toList = some [26] ∧
      [26] ≠ "\x01a".toList.map Char.toNat := by
  constructor
  · decide +kernel
  · decide

end ObjectLowering.Cpp
