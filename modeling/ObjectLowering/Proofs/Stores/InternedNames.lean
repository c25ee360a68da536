/-
**Interned names.**

An index of names only grows, and it grows by texts that it does not hold: every text has one number
and every number one text, in both directions, whatever was requested before. So the texts of an
index are the distinct ones of all requests in the order of their first request, as long as there
are numbers for them.

* `NameIndex.Inverse`: the two directions of an index undo each other; `NameIndex.inverse_serve`,
  `NameIndex.inverse_run`: every request keeps it so.
* `NameIndex.number?_run`, `NameIndex.text_run`: a number that was given stays, and keeps its text.
* `NameIndex.Holds`: the texts of an index are those of the requests; `NameIndex.Holds.serve`,
  `NameIndex.Holds.run`: while there is room, every answer is the number that the text keeps.
* `NameIndex.intern?_table`: the index answers as the table of names does.
* **`interned_names`**: what holds after requests for fewer texts than there are numbers.
-/

import ObjectLowering.NameIndex
import ObjectLowering.Proofs.Lowering.Success

namespace ObjectLowering

namespace NameIndex

variable {index : NameIndex} {text : String} {number : Nat}

/-! ### Two directions -/

/-- A text has a number exactly if the number has the text. -/
def Inverse (index : NameIndex) : Prop :=
  ∀ text number, index.number? text = some number ↔ index.texts[number]? = some text

theorem inverse_empty : empty.Inverse := fun _ _ => ⟨nofun, nofun⟩

theorem Inverse.mem_iff (inverse : index.Inverse) :
    text ∈ index.texts.toList ↔ (index.number? text).isSome := by
  rw [List.mem_iff_getElem?, Option.isSome_iff_exists]
  refine exists_congr fun number => ?_
  rw [inverse, Array.getElem?_toList]

theorem number?_add (other : String) :
    (index.add text).number? other =
      if other = text then some index.size else index.number? other := by
  unfold number? add
  rw [List.lookup_cons]
  by_cases same : other = text
  · rw [if_pos same, same, beq_self_eq_true]
  · rw [if_neg same, beq_eq_false_iff_ne.mpr same]

theorem getElem?_texts_add : (index.add text).texts[number]? =
    if number = index.size then some text else index.texts[number]? := Array.getElem?_push

/-- **A new text keeps the directions inverse.** -/
theorem Inverse.add (inverse : index.Inverse) (fresh : index.number? text = none) :
    (index.add text).Inverse := by
  intro other number
  have outside : index.texts[index.size]? = none := Array.getElem?_eq_none (Nat.le_refl _)
  have unused (number : Nat) : index.texts[number]? ≠ some text := by
    rw [Ne, ← inverse, fresh]
    exact nofun
  rw [number?_add, getElem?_texts_add]
  by_cases same : other = text
  · subst same
    by_cases last : number = index.size
    · exact iff_of_true (by rw [if_pos rfl, last]) (if_pos last)
    · rw [if_pos rfl, if_neg last, iff_false_right (unused number), Option.some.injEq]
      exact Ne.symm last
  · rw [if_neg same, inverse]
    by_cases last : number = index.size
    · subst last
      rw [outside, if_pos rfl, Option.some.injEq]
      exact iff_of_false nofun (Ne.symm same)
    · rw [if_neg last]

/-- **What a request for a number can come to**: the text has one, it gets the next one, or every
number is taken. -/
theorem intern?_cases (index : NameIndex) (text : String) :
    (∃ number, index.number? text = some number ∧ index.intern? text = .ok (number, index)) ∨
    (index.number? text = none ∧ index.size < NameTable.capacity ∧
      index.intern? text = .ok (index.size, index.add text)) ∨
    (index.number? text = none ∧ NameTable.capacity ≤ index.size ∧
      index.intern? text = .error (.overflow index.size)) := by
  unfold intern?
  cases known : index.number? text with
  | some number => exact .inl ⟨number, rfl, rfl⟩
  | none =>
    by_cases room : index.size < NameTable.capacity
    · exact .inr (.inl ⟨rfl, room, if_pos room⟩)
    · exact .inr (.inr ⟨rfl, Nat.le_of_not_lt room, if_neg room⟩)

/-- **A request keeps the directions inverse.** -/
theorem inverse_serve (inverse : index.Inverse) (request : NameRequest) :
    (index.serve request).2.Inverse := by
  unfold serve
  rcases index.intern?_cases request.text with
    ⟨_, _, done⟩ | ⟨fresh, _, done⟩ | ⟨_, _, refused⟩
  · rwa [done]
  · rw [done]
    exact inverse.add fresh
  · rwa [refused]

theorem inverse_run (inverse : index.Inverse) (requests : List NameRequest) :
    (index.run requests).2.Inverse := by
  induction requests generalizing index with
  | nil => exact inverse
  | cons request rest step => exact step (inverse_serve inverse request)

/-! ### Numbers stay -/

theorem number?_serve (known : index.number? text = some number) (request : NameRequest) :
    (index.serve request).2.number? text = some number := by
  unfold serve
  rcases index.intern?_cases request.text with
    ⟨_, _, done⟩ | ⟨fresh, _, done⟩ | ⟨_, _, refused⟩
  · rwa [done]
  · rw [done, number?_add, if_neg, known]
    rintro rfl
    cases fresh.symm.trans known
  · rwa [refused]

/-- **A number that was given stays.** -/
theorem number?_run (known : index.number? text = some number) (requests : List NameRequest) :
    (index.run requests).2.number? text = some number := by
  induction requests generalizing index with
  | nil => exact known
  | cons request rest step => exact step (number?_serve known request)

theorem run_append (index : NameIndex) (earlier later : List NameRequest) :
    (index.run (earlier ++ later)).2 = ((index.run earlier).2.run later).2 := by
  induction earlier generalizing index with
  | nil => rfl
  | cons request rest step => exact step _

theorem text_of_number? (inverse : index.Inverse) (known : index.number? text = some number) :
    index.text number = text := by
  unfold NameIndex.text
  rw [(inverse _ _).mp known]
  rfl

/-- Numbers are as different as their texts. -/
theorem number_eq_iff (inverse : index.Inverse) {other : String} {otherNumber : Nat}
    (known : index.number? text = some number) (knownToo : index.number? other = some otherNumber) :
    number = otherNumber ↔ text = other := by
  constructor
  · rintro rfl
    rw [← text_of_number? inverse known, text_of_number? inverse knownToo]
  · rintro rfl
    exact Option.some.inj (known.symm.trans knownToo)

/-- **A number keeps its text.** -/
theorem text_run (inverse : index.Inverse) (inside : number < index.size)
    (requests : List NameRequest) : (index.run requests).2.text number = index.text number := by
  have held : index.texts[number]? = some _ := Array.getElem?_eq_getElem inside
  have known := (inverse _ _).mpr held
  rw [text_of_number? (inverse_run inverse requests) (number?_run known requests),
    text_of_number? inverse known]

/-! ### The texts of an index -/

/-- The index holds the distinct texts of the requests so far, in the order of their first
requests. -/
structure Holds (index : NameIndex) (requested : List String) : Prop where
  inverse : index.Inverse
  texts : index.texts.toList = requested.eraseDups

theorem eraseDups_concat (texts : List String) (text : String) :
    (texts ++ [text]).eraseDups =
      if text ∈ texts then texts.eraseDups else texts.eraseDups ++ [text] := by
  rw [List.eraseDups_append, List.cons_removeAll]
  by_cases known : text ∈ texts
  · rw [if_pos known, List.contains_iff_mem.mpr known]
    exact List.append_nil _
  · rw [if_neg known, Bool.eq_false_iff.mpr (mt List.contains_iff_mem.mp known)]
    rfl

/-- More requests only add texts. -/
theorem length_eraseDups_le (requested : List String) (more : List String) :
    requested.eraseDups.length ≤ (requested ++ more).eraseDups.length := by
  rw [List.eraseDups_append, List.length_append]
  exact Nat.le_add_right _ _

namespace Holds

variable {requested : List String}

theorem mem_iff (holds : index.Holds requested) :
    text ∈ requested ↔ (index.number? text).isSome := by
  rw [← holds.inverse.mem_iff, holds.texts, List.mem_eraseDups]

theorem size_eq (holds : index.Holds requested) : index.size = requested.eraseDups.length := by
  rw [← holds.texts, Array.length_toList]
  rfl

/-- **While there is room, a request is answered with the number of its text.** -/
theorem serve (holds : index.Holds requested) {request : NameRequest}
    (room : (requested ++ [request.text]).eraseDups.length ≤ NameTable.capacity) :
    (index.serve request).2.Holds (requested ++ [request.text]) ∧
      ∃ number, (index.serve request).1 = .ok number ∧
        (index.serve request).2.number? request.text = some number := by
  have inverse := inverse_serve holds.inverse request
  have known_iff : request.text ∈ requested ↔ (index.number? request.text).isSome := holds.mem_iff
  unfold NameIndex.serve at inverse ⊢
  rcases index.intern?_cases request.text with
    ⟨number, known, done⟩ | ⟨fresh, _, done⟩ | ⟨fresh, full, _⟩
  · rw [known] at known_iff
    rw [done] at inverse ⊢
    refine ⟨⟨inverse, ?_⟩, number, rfl, known⟩
    rw [eraseDups_concat, if_pos (known_iff.mpr rfl), holds.texts]
  · rw [fresh] at known_iff
    rw [done] at inverse ⊢
    refine ⟨⟨inverse, ?_⟩, index.size, rfl, ?_⟩
    · rw [eraseDups_concat, if_neg (mt known_iff.mp nofun), ← holds.texts]
      exact Array.toList_push
    · rw [number?_add, if_pos rfl]
  · rw [fresh] at known_iff
    rw [eraseDups_concat, if_neg (mt known_iff.mp nofun), List.length_append, ← holds.size_eq]
      at room
    exact absurd room (Nat.not_le_of_lt (Nat.lt_succ_of_le full))

/-- **While there is room, every request is answered with the number that its text keeps**, and the
index holds the distinct texts of all requests. -/
theorem run (holds : index.Holds requested) {requests : List NameRequest}
    (room : (requested ++ requests.map (·.text)).eraseDups.length ≤ NameTable.capacity) :
    (index.run requests).2.Holds (requested ++ requests.map (·.text)) ∧
      List.Forall₂ (fun request answer => ∃ number, answer = .ok number ∧
        (index.run requests).2.number? request.text = some number)
        requests (index.run requests).1 := by
  induction requests generalizing index requested with
  | nil =>
    rw [List.map_nil, List.append_nil]
    exact ⟨holds, .nil⟩
  | cons request rest step =>
    have split : requested ++ (request :: rest).map (·.text) =
        requested ++ [request.text] ++ rest.map (·.text) := by
      rw [List.append_assoc]
      rfl
    rw [split] at room ⊢
    obtain ⟨next, number, answer, known⟩ :=
      holds.serve (Nat.le_trans (length_eraseDups_le _ _) room)
    obtain ⟨last, answers⟩ := step next room
    exact ⟨last, .cons ⟨number, answer, number?_run known rest⟩ answers⟩

end Holds

/-- The index starts as if the names that are always there had been requested. -/
theorem holds_start : start.Holds Reserved.all := by
  have requested : start = (empty.run (Reserved.all.map .intern)).2 := by rfl
  refine ⟨requested ▸ inverse_run inverse_empty _, ?_⟩
  decide

/-! ### The index and the table of names -/

/-- The table of names finds a text under its number. -/
theorem index?_table (inverse : index.Inverse) : index.table.index? text = index.number? text := by
  unfold NameTable.index? table
  cases found : index.texts.toList.idxOf? text with
  | none =>
    rw [List.idxOf?_eq_none_iff, inverse.mem_iff, Option.not_isSome_iff_eq_none] at found
    exact found.symm
  | some number =>
    obtain ⟨inside, same, _⟩ := List.idxOf?_eq_some_iff.mp found
    refine ((inverse text number).mpr ?_).symm
    rw [← Array.getElem?_toList, List.getElem?_eq_getElem inside, same]

/-- **The index answers as the table of names does**, and comes to the same texts. -/
theorem intern?_table (inverse : index.Inverse) (text : String) :
    (index.intern? text).map (fun result => (result.1, result.2.table)) =
      index.table.intern? text := by
  have same : index.table.index? text = index.number? text := index?_table inverse
  have size : index.table.size = index.size := Array.length_toList
  unfold NameTable.intern? NameTable.intern
  rw [same, size]
  rcases index.intern?_cases text with
    ⟨number, known, done⟩ | ⟨fresh, room, done⟩ | ⟨fresh, full, done⟩
  · rw [known, done]
    rfl
  · have longer : (index.add text).table = ⟨index.table.texts ++ [text]⟩ :=
      congrArg NameTable.mk Array.toList_push
    rw [fresh, done, decide_eq_false (Nat.not_le_of_lt room), Bool.and_false]
    exact congrArg (fun table => Except.ok (index.size, table)) longer
  · rw [fresh, done, decide_eq_true full]
    rfl

theorem texts_mentionAll {names : NameTable} {mentioned : List String}
    (distinct : names.texts = mentioned.eraseDups) (texts : List String) :
    (names.mentionAll texts).texts = (mentioned ++ texts).eraseDups := by
  induction texts generalizing names mentioned with
  | nil => rw [List.append_nil, ← distinct]; rfl
  | cons text rest step =>
    have next : (names.mention text).texts = (mentioned ++ [text]).eraseDups := by
      have known : text ∈ names.texts ↔ text ∈ mentioned := distinct ▸ List.mem_eraseDups
      unfold NameTable.mention
      rw [eraseDups_concat, ← distinct]
      by_cases member : text ∈ mentioned
      · rw [if_pos (known.mpr member), if_pos member]
      · rw [if_neg (mt known.mp member), if_neg member]
    refine (step next).trans ?_
    rw [List.append_assoc]
    rfl

end NameIndex

open NameIndex

theorem eraseDups_reserved (texts : List String) :
    (Reserved.all ++ texts).eraseDups =
      Reserved.all ++ (texts.removeAll Reserved.all).eraseDups := by
  have distinct : Reserved.all.eraseDups = Reserved.all := by decide
  rw [List.eraseDups_append, distinct]

/-- **Interned names.** After requests for fewer distinct texts than there are numbers, each of them
was answered with a number, under which the text is read ever after, and two of them with the same
number exactly if they were for the same text. The two directions of the index undo each other; what
it held before more requests it holds under the same numbers; the names that are always there come
first, and the other texts that were requested are counted once. The table of names that the rest of
a run uses has the same texts under the same numbers. -/
theorem interned_names (requests : List NameRequest)
    (room : Reserved.all.length +
      ((requests.map (·.text)).removeAll Reserved.all).eraseDups.length ≤ NameTable.capacity) :
    ∃ answers after, start.run requests = (answers, after) ∧
      (∀ text number, after.number? text = some number ↔ after.texts[number]? = some text) ∧
      List.Forall₂ (fun request answer => ∃ number, answer = .ok number ∧
        after.number? request.text = some number ∧ after.text number = request.text)
        requests answers ∧
      (∀ (first second : Nat) (one other : NameRequest), requests[first]? = some one →
        requests[second]? = some other →
          (answers[first]? = answers[second]? ↔ one.text = other.text)) ∧
      (∀ earlier later, requests = earlier ++ later →
        ∀ number < (start.run earlier).2.size,
          after.text number = (start.run earlier).2.text number) ∧
      after.texts.toList.take 12 = Reserved.all ∧
      after.size = 12 + ((requests.map (·.text)).removeAll Reserved.all).eraseDups.length ∧
      after.table = NameTable.start.mentionAll (requests.map (·.text)) ∧
      ∀ text, after.table.index? text = after.number? text := by
  rw [← List.length_append, ← eraseDups_reserved] at room
  obtain ⟨holds, each⟩ := holds_start.run room
  have texts := holds.texts
  rw [eraseDups_reserved] at texts
  refine ⟨_, _, rfl, holds.inverse, each.imp ?_, ?_, ?_, ?_, ?_, ?_,
    fun _ => index?_table holds.inverse⟩
  · rintro request answer ⟨number, given, known⟩
    exact ⟨number, given, known, text_of_number? holds.inverse known⟩
  · intro first second one other here there
    obtain ⟨_, answer, number, rfl, known⟩ := getElem?_of_forall₂ each here
    obtain ⟨_, answerToo, numberToo, rfl, knownToo⟩ := getElem?_of_forall₂ each there
    rw [answer, answerToo, Option.some.injEq, Except.ok.injEq]
    exact number_eq_iff holds.inverse known knownToo
  · rintro earlier later rfl number inside
    rw [run_append]
    exact text_run (inverse_run holds_start.inverse earlier) inside later
  · rw [texts]
    exact List.take_left' rfl
  · rw [holds.size_eq, eraseDups_reserved, List.length_append]
    rfl
  · have distinct : NameTable.start.texts = Reserved.all.eraseDups := by decide
    have mentioned := texts_mentionAll distinct (requests.map (·.text))
    exact congrArg NameTable.mk (holds.texts.trans mentioned.symm)

/-- Texts that are requested again, always there, or made of a stem and a number. -/
theorem interned_names_repeated :
    ∃ answers after, start.run [.intern "speak", .tryIntern "main", .internNumbered "f_" 3,
        .tryIntern "f_3", .intern "speak"] = (answers, after) ∧
      Reserved.all.length + (["speak", "main", "f_3", "f_3", "speak"].removeAll
        Reserved.all).eraseDups.length ≤ NameTable.capacity ∧
      answers[0]? = answers[4]? ∧ answers[2]? = answers[3]? ∧ answers[0]? ≠ answers[1]? ∧
      after.size = 14 := by
  have room : Reserved.all.length + (["speak", "main", "f_3", "f_3", "speak"].removeAll
      Reserved.all).eraseDups.length ≤ NameTable.capacity := by decide
  obtain ⟨answers, after, runs, _, _, alike, _, _, size, _⟩ :=
    interned_names [.intern "speak", .tryIntern "main", .internNumbered "f_" 3,
      .tryIntern "f_3", .intern "speak"] room
  exact ⟨answers, after, runs, room, (alike 0 4 _ _ rfl rfl).mpr rfl,
    (alike 2 3 _ _ rfl rfl).mpr rfl, mt (alike 0 1 _ _ rfl rfl).mp (by decide), size⟩

end ObjectLowering
