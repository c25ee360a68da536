/-
**Trimmed text.**

Trimming takes characters off the end of a text, one at a time, while the text ends in two line
breaks or in a space and a line break. It stops in front of the last character that is no line
break: behind a visible character it leaves one line break, behind a space it leaves none. So it
tidies a text, down to the end of its last line that is not blank, exactly if there is no space in
front of the line breaks at its end.

* `Text.Trims`: the rounds of trimming; `Text.trims_iff`: they come to an end, with the trimmed
  text.
* `Text.tidied`: a text up to its last line that is not blank, and one line break.
* `Text.toList_trimBlankLines`: what trimming leaves of a text that ends in a line break.
* **`Text.trimmed_tidy_iff`**: when trimming tidies a text; trimming again changes nothing.
-/

import Mathlib.Data.List.DropRight
import ObjectLowering.Text.Style

namespace ObjectLowering.Text

/-! ### Rounds -/

/-- Whether a text ends in two line breaks or in a space and a line break. -/
def EndsBlank (text : List Char) : Prop := ['\n', '\n'] <:+ text ∨ [' ', '\n'] <:+ text

/-- What trimming comes to, round after round. -/
inductive Trims : List Char → List Char → Prop where
  | stop {text : List Char} (clean : ¬ EndsBlank text) : Trims text text
  | round {text result : List Char} (ends : EndsBlank text) (rest : Trims text.dropLast result) :
      Trims text result

/-- The ends of a text, read backwards. -/
theorem endsBlank_reverse (char : Char) (rest : List Char) : EndsBlank (char :: rest).reverse ↔
    char = '\n' ∧ (rest.head? = some '\n' ∨ rest.head? = some ' ') := by
  have ends (last : Char) : [last, '\n'] <:+ (char :: rest).reverse ↔
      char = '\n' ∧ rest.head? = some last := by
    rw [← List.reverse_prefix, List.reverse_reverse]
    cases rest with
    | nil => simp
    | cons second rest => simp [List.cons_prefix_cons, eq_comm]
  unfold EndsBlank
  rw [ends, ends, ← and_or_left]

/-- **Trimming comes to an end**, with the text that is given out. -/
theorem trims_reverse (chars : List Char) : Trims chars.reverse (trimBackwards chars).reverse := by
  induction chars with
  | nil => exact .stop (by simp [EndsBlank])
  | cons char rest step =>
    unfold trimBackwards
    split
    · rename_i ends
      refine .round ((endsBlank_reverse char rest).mpr ends) ?_
      rwa [List.reverse_cons, List.dropLast_concat]
    · rename_i clean
      exact .stop (mt (endsBlank_reverse char rest).mp clean)

/-- The rounds come to one text only. -/
theorem Trims.unique {text first second : List Char} (one : Trims text first)
    (other : Trims text second) : first = second := by
  induction one with
  | stop clean =>
    cases other with
    | stop _ => rfl
    | round ends _ => exact absurd ends clean
  | round ends _ step =>
    cases other with
    | stop clean => exact absurd ends clean
    | round _ rest => exact step rest

theorem trims_iff (text : String) (result : List Char) :
    Trims text.toList result ↔ result = (trimBlankLines text).toList := by
  have reached := trims_reverse text.toList.reverse
  rw [List.reverse_reverse] at reached
  unfold trimBlankLines
  rw [String.toList_ofList]
  exact ⟨fun trims => trims.unique reached, fun same => same ▸ reached⟩

/-! ### What is left -/

/-- A text without the line breaks at its end. -/
def withoutBreaks (text : String) : List Char := text.toList.rdropWhile (· == '\n')

theorem trimBackwards_of_ne {char : Char} (solid : char ≠ '\n') (rest : List Char) :
    trimBackwards (char :: rest) = char :: rest := if_neg fun ends => solid ends.1

/-- Going back over line breaks, trimming stops at the first other character. It leaves a line break
behind it unless it is a space. -/
theorem trimBackwards_break (chars : List Char) : trimBackwards ('\n' :: chars) =
    if (chars.dropWhile (· == '\n')).head? = some ' ' then chars.dropWhile (· == '\n')
    else '\n' :: chars.dropWhile (· == '\n') := by
  induction chars with
  | nil => rfl
  | cons char rest step =>
    by_cases breaks : char = '\n'
    · subst breaks
      rw [List.dropWhile_cons_of_pos (by rfl), ← step]
      exact if_pos ⟨rfl, .inl rfl⟩
    · rw [List.dropWhile_cons_of_neg (by simpa using breaks)]
      by_cases space : (char :: rest).head? = some ' '
      · rw [if_pos space]
        exact (if_pos ⟨rfl, .inr space⟩).trans (trimBackwards_of_ne breaks rest)
      · rw [if_neg space]
        refine if_neg ?_
        rintro ⟨_, same | same⟩
        · exact breaks (Option.some.inj same)
        · exact space same

/-- **What trimming leaves of a text that ends in a line break.** -/
theorem toList_trimBlankLines {text : String} (ended : text.toList.getLast? = some '\n') :
    (trimBlankLines text).toList =
      if (withoutBreaks text).getLast? = some ' ' then withoutBreaks text
      else withoutBreaks text ++ ['\n'] := by
  obtain ⟨front, parts⟩ := List.getLast?_eq_some_iff.mp ended
  have backwards : text.toList.reverse = '\n' :: front.reverse := by
    rw [parts, List.reverse_concat]
  have solid : withoutBreaks text = (front.reverse.dropWhile (· == '\n')).reverse := by
    unfold withoutBreaks List.rdropWhile
    rw [backwards]
    rfl
  unfold trimBlankLines
  rw [String.toList_ofList, backwards, trimBackwards_break, solid, List.getLast?_reverse]
  split
  · rfl
  · exact List.reverse_cons

theorem trimBackwards_trimBackwards (chars : List Char) :
    trimBackwards (trimBackwards chars) = trimBackwards chars := by
  induction chars with
  | nil => rfl
  | cons char rest step =>
    by_cases ends : char = '\n' ∧ (rest.head? = some '\n' ∨ rest.head? = some ' ')
    · have shorter : trimBackwards (char :: rest) = trimBackwards rest := if_pos ends
      rw [shorter, step]
    · have same : trimBackwards (char :: rest) = char :: rest := if_neg ends
      rw [same, same]

/-- **Trimming again changes nothing.** -/
theorem trimBlankLines_trimBlankLines (text : String) :
    trimBlankLines (trimBlankLines text) = trimBlankLines text := by
  unfold trimBlankLines
  rw [String.toList_ofList, List.reverse_reverse, trimBackwards_trimBackwards]

/-! ### Lines -/

/-- Whether there is nothing in a line but spaces. -/
def isBlankLine (line : List Char) : Bool := line.all (· == ' ')

/-- A text up to its last line that is not blank, and one line break. -/
def tidied (text : String) : String :=
  String.ofList (['\n'].intercalate ((text.toList.splitOn '\n').rdropWhile isBlankLine) ++ ['\n'])

/-- The last line of a text goes back to its last line break. -/
theorem exists_splitOn_concat (chars : List Char) :
    ∃ earlier, chars.splitOn '\n' = earlier ++ [chars.rtakeWhile (· != '\n')] := by
  have parts : chars.rdropWhile (· != '\n') ++ chars.rtakeWhile (· != '\n') = chars :=
    List.rdropWhile_append_rtakeWhile
  have unbroken : '\n' ∉ chars.rtakeWhile (· != '\n') := fun inside => by
    cases List.mem_rtakeWhile_imp inside
  have ends := List.rdropWhile_last_not (· != '\n') chars
  generalize chars.rdropWhile (· != '\n') = front at parts ends
  generalize chars.rtakeWhile (· != '\n') = line at parts unbroken ⊢
  rcases List.eq_nil_or_concat front with rfl | ⟨front, char, rfl⟩
  · refine ⟨[], ?_⟩
    rw [← parts, List.nil_append, List.nil_append, List.splitOn_eq_singleton unbroken]
  · refine ⟨front.splitOn '\n', ?_⟩
    have breaks : char = '\n' := by simpa using ends
    rw [← parts, breaks, List.concat_eq_append, List.append_assoc, List.singleton_append,
      List.splitOn_append_cons_self, List.splitOn_eq_singleton unbroken]

/-- A text that ends visibly ends in a line that is not blank. -/
theorem rdropWhile_lines_of_ink {front : List Char} {ink : Char} (noBreak : ink ≠ '\n')
    (noSpace : ink ≠ ' ') : ((front ++ [ink]).splitOn '\n').rdropWhile isBlankLine =
      (front ++ [ink]).splitOn '\n' := by
  obtain ⟨earlier, lines⟩ := exists_splitOn_concat (front ++ [ink])
  have last : isBlankLine ((front ++ [ink]).rtakeWhile (· != '\n')) = false := by
    rw [List.rtakeWhile_concat_pos _ _ _ (by simpa using noBreak)]
    simp [isBlankLine, noSpace]
  rw [lines]
  exact List.rdropWhile_concat_neg _ _ _ (by rw [last]; exact Bool.false_ne_true)

/-- Line breaks part empty lines. -/
theorem all_isBlankLine_splitOn {breaks : List Char} (each : ∀ char ∈ breaks, char = '\n') :
    ∀ line ∈ breaks.splitOn '\n', isBlankLine line = true := by
  induction breaks with
  | nil => simp [isBlankLine]
  | cons char rest step =>
    obtain ⟨rfl, others⟩ := List.forall_mem_cons.mp each
    have lines : ('\n' :: rest).splitOn '\n' = [] :: rest.splitOn '\n' :=
      List.splitOn_append_cons_self [] rest
    rw [lines]
    exact List.forall_mem_cons.mpr ⟨rfl, step others⟩

theorem rdropWhile_append_of_all {α : Type} {p : α → Bool} (front : List α) {behind : List α}
    (each : ∀ item ∈ behind, p item = true) :
    (front ++ behind).rdropWhile p = front.rdropWhile p := by
  unfold List.rdropWhile
  rw [List.reverse_append, List.dropWhile_append_of_pos fun item inside =>
    each item (List.mem_reverse.mp inside)]

/-- A text that ends in a line break has the lines of the text without the line breaks at its end,
and empty ones behind them. -/
theorem exists_lines_of_ended {text : String} (ended : text.toList.getLast? = some '\n') :
    ∃ blank, text.toList.splitOn '\n' = (withoutBreaks text).splitOn '\n' ++ blank ∧
      ∀ line ∈ blank, isBlankLine line = true := by
  have parts : withoutBreaks text ++ text.toList.rtakeWhile (· == '\n') = text.toList :=
    List.rdropWhile_append_rtakeWhile
  have breaks : ∀ char ∈ text.toList.rtakeWhile (· == '\n'), char = '\n' := fun char inside => by
    simpa using List.mem_rtakeWhile_imp inside
  have some : text.toList.rtakeWhile (· == '\n') ≠ [] := by
    obtain ⟨front, shape⟩ := List.getLast?_eq_some_iff.mp ended
    rw [shape, List.rtakeWhile_concat_pos _ _ _ (by rfl)]
    exact List.append_ne_nil_of_right_ne_nil _ (List.cons_ne_nil _ _)
  obtain ⟨char, more, shape⟩ := List.exists_cons_of_ne_nil some
  rw [shape] at parts breaks
  obtain ⟨rfl, others⟩ := List.forall_mem_cons.mp breaks
  exact ⟨more.splitOn '\n', by rw [← parts, List.splitOn_append_cons_self],
    all_isBlankLine_splitOn others⟩

/-- A text that ends in a line break, in front of which there is no space, is tidied by leaving one
of the line breaks at its end. -/
theorem toList_tidied {text : String} (ended : text.toList.getLast? = some '\n')
    (noSpace : (withoutBreaks text).getLast? ≠ some ' ') :
    (tidied text).toList = withoutBreaks text ++ ['\n'] := by
  obtain ⟨blank, lines, each⟩ := exists_lines_of_ended ended
  unfold tidied
  rw [String.toList_ofList, lines, rdropWhile_append_of_all _ each]
  have noBreak := List.rdropWhile_last_not (· == '\n') text.toList
  unfold withoutBreaks at noSpace ⊢
  generalize text.toList.rdropWhile (· == '\n') = solid at noSpace noBreak ⊢
  rcases List.eq_nil_or_concat solid with rfl | ⟨front, ink, rfl⟩
  · rfl
  · rw [List.concat_eq_append] at noSpace noBreak ⊢
    have inkNoBreak : ink ≠ '\n' := by simpa using noBreak
    have inkNoSpace : ink ≠ ' ' := by simpa using noSpace
    rw [rdropWhile_lines_of_ink inkNoBreak inkNoSpace, List.intercalate_splitOn]

theorem getLast?_tidied (text : String) : (tidied text).toList.getLast? = some '\n' := by
  unfold tidied
  rw [String.toList_ofList, List.getLast?_concat]

theorem getLast?_ensureNewline (text : String) :
    (ensureNewline text).toList.getLast? = some '\n' := by
  unfold ensureNewline
  split
  · assumption
  · rw [String.toList_push, List.getLast?_concat]

theorem ensureNewline_eq_self_iff {text : String} :
    ensureNewline text = text ↔ text.toList.getLast? = some '\n' :=
  ⟨fun same => same ▸ getLast?_ensureNewline text, fun ended => if_pos ended⟩

/-- Trimming leaves a line break at the end exactly if it left no space. -/
theorem getLast?_trimBlankLines_iff {text : String} (ended : text.toList.getLast? = some '\n') :
    (trimBlankLines text).toList.getLast? = some '\n' ↔
      (withoutBreaks text).getLast? ≠ some ' ' := by
  rw [toList_trimBlankLines ended]
  by_cases space : (withoutBreaks text).getLast? = some ' '
  · rw [if_pos space, space]
    exact iff_of_false (by decide) (not_not_intro rfl)
  · rw [if_neg space]
    exact iff_of_true List.getLast?_concat space

/-- **Trimmed text.** Trimming comes to an end on every text, and trimming again changes nothing. A
text that ends in a line break is left with its content up to its last line that is not blank and
one line break, so that no line break is missing at its end, if and only if there is no space in
front of the line breaks at its end; otherwise it is left with that space and no line break. -/
theorem trimmed_tidy_iff {text : String} (ended : text.toList.getLast? = some '\n') :
    (∀ result, Trims text.toList result ↔ result = (trimBlankLines text).toList) ∧
      (trimBlankLines text = tidied text ↔ (withoutBreaks text).getLast? ≠ some ' ') ∧
      (ensureNewline (trimBlankLines text) = trimBlankLines text ↔
        (withoutBreaks text).getLast? ≠ some ' ') ∧
      ((withoutBreaks text).getLast? = some ' ' →
        (trimBlankLines text).toList = withoutBreaks text) ∧
      trimBlankLines (trimBlankLines text) = trimBlankLines text := by
  refine ⟨trims_iff text, ⟨fun same => ?_, fun noSpace => ?_⟩, ?_, fun space => ?_,
    trimBlankLines_trimBlankLines text⟩
  · exact (getLast?_trimBlankLines_iff ended).mp (same ▸ getLast?_tidied text)
  · rw [← String.toList_inj, toList_trimBlankLines ended, toList_tidied ended noSpace,
      if_neg noSpace]
  · exact ensureNewline_eq_self_iff.trans (getLast?_trimBlankLines_iff ended)
  · rw [toList_trimBlankLines ended, if_pos space]

/-- A space inside a line stays, and one line break behind the last line. -/
theorem trimmed_tidy_iff_header :
    "#pragma once\n  \nstruct A;\n\n\n".toList.getLast? = some '\n' ∧
      trimBlankLines "#pragma once\n  \nstruct A;\n\n\n" =
      tidied "#pragma once\n  \nstruct A;\n\n\n" := by
  have ended : "#pragma once\n  \nstruct A;\n\n\n".toList.getLast? = some '\n' := by decide
  exact ⟨ended, (trimmed_tidy_iff ended).2.1.mpr (by decide)⟩

/-- A last line of spaces loses its line break and stays. -/
theorem trimmed_keeps_spaces :
    trimBlankLines "a\n  \n" = "a\n  " ∧ tidied "a\n  \n" = "a\n" ∧
      ensureNewline (trimBlankLines "a\n  \n") = "a\n  \n" := by
  decide

end ObjectLowering.Text
