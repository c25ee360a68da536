/-
**Spellings of a path.**

A written path is followed from its first segment to its last, so the canonical form of a path with
more behind it is found by going on from the canonical form of the path. A piece of text that comes
back to where it started may therefore stand between any two segments, or behind the last one.

* `Path.steps` are the components of a written path without those that stay in place, and
  `canonicalPath_eq`: they alone make its canonical form.
* `Path.settle_append`: a path that is followed piece by piece.
* `Path.Settled` says which paths are canonical, `Path.Settled.steps_text` that their text is read
  back.
* `Path.Detour` are the pieces that lead back, `SpellAlike` says that two written paths have one
  canonical form or none.
* **`canonical_forms_compose`**: canonical forms are their own, compose, and see no detour.
-/

import ObjectLowering.Source.UnitStore

namespace ObjectLowering.Source

namespace Path

/-! ### The segments of a text -/

theorem segments_ne_nil (chars : List Char) : segments chars ≠ [] := by
  cases chars with
  | nil => exact List.cons_ne_nil _ _
  | cons char rest =>
    unfold segments
    split
    · exact List.cons_ne_nil _ _
    · split <;> exact List.cons_ne_nil _ _

/-- **A slash ends a segment**: what stands on both sides of it is split alone. -/
theorem segments_slash (front behind : List Char) :
    segments (front ++ '/' :: behind) = segments front ++ segments behind := by
  induction front with
  | nil => rfl
  | cons char rest step =>
    rw [List.cons_append, segments, segments, step]
    split
    · rfl
    · cases split : segments rest with
      | nil => exact absurd split (segments_ne_nil rest)
      | cons => rfl

theorem segments_of_slash_free {chars : List Char} (free : '/' ∉ chars) :
    segments chars = [chars] := by
  induction chars with
  | nil => rfl
  | cons char rest step =>
    rw [List.mem_cons, not_or] at free
    rw [segments, if_neg (Ne.symm free.1), step free.2]

theorem slash_free_of_mem {chars segment : List Char} (member : segment ∈ segments chars) :
    '/' ∉ segment := by
  induction chars generalizing segment with
  | nil =>
    rw [List.mem_singleton.mp member]
    exact List.not_mem_nil
  | cons char rest step =>
    rw [segments] at member
    split at member
    · rcases List.mem_cons.mp member with rfl | member
      · exact List.not_mem_nil
      · exact step member
    · rename_i other
      cases split : segments rest with
      | nil => exact absurd split (segments_ne_nil rest)
      | cons first more =>
        rw [split] at member step
        rcases List.mem_cons.mp member with rfl | member
        · rw [List.mem_cons, not_or]
          exact ⟨Ne.symm other, step List.mem_cons_self⟩
        · exact step (List.mem_cons_of_mem _ member)

/-! ### Components that move -/

/-- The path starts at the root. -/
def IsAbsolute (path : String) : Prop := path.toList.head? = some '/'

instance (path : String) : Decidable (IsAbsolute path) := inferInstanceAs (Decidable (_ = _))

/-- A text that stands for one name in a path. -/
def IsName (name : String) : Prop := '/' ∉ name.toList ∧ name ∉ ["", ".", ".."]

instance (name : String) : Decidable (IsName name) := inferInstanceAs (Decidable (_ ∧ _))

/-- The components that the segments of a text stand for behind a slash. -/
def inners (text : String) : Path := (segments text.toList).filterMap inner?

/-- The components of a written path, but for a `.` at its front. -/
def steps (path : String) : Path := (if IsAbsolute path then [.root] else []) ++ inners path

theorem isAbsolute_append {front : String} (some : front ≠ "") (behind : String) :
    IsAbsolute (front ++ behind) ↔ IsAbsolute front := by
  unfold IsAbsolute
  rw [String.toList_append, List.head?_append]
  cases chars : front.toList with
  | nil => exact absurd (String.toList_eq_nil_iff.mp chars) some
  | cons => rfl

theorem inners_slash (front behind : String) :
    inners (front ++ "/" ++ behind) = inners front ++ inners behind := by
  unfold inners
  rw [String.append_assoc, String.toList_append, String.toList_append]
  exact (congrArg _ (segments_slash front.toList behind.toList)).trans List.filterMap_append

/-- A slash at the end brings no component. -/
theorem inners_trailing_slash (text : String) : inners (text ++ "/") = inners text := by
  have split := inners_slash text ""
  rw [String.append_empty] at split
  exact split.trans (List.append_nil _)

/-- **A slash parts the steps.** -/
theorem steps_slash (front behind : String) :
    steps (front ++ "/" ++ behind) = steps (front ++ "/") ++ inners behind := by
  have nonempty : front ++ "/" ≠ "" := by
    intro empty
    have chars := congrArg String.toList empty
    rw [String.toList_append] at chars
    exact List.append_ne_nil_of_right_ne_nil _ (List.cons_ne_nil '/' []) chars
  unfold steps
  rw [inners_slash, inners_trailing_slash, List.append_assoc]
  simp only [isAbsolute_append nonempty]

/-- A name is none of the texts that stand for no name. -/
theorem IsName.chars {name : String} (named : IsName name) :
    name.toList ≠ [] ∧ name.toList ≠ ['.'] ∧ name.toList ≠ ['.', '.'] := by
  have other := named.2
  simp only [List.mem_cons, List.not_mem_nil, or_false, not_or, ← String.toList_inj] at other
  exact other

theorem inners_of_isName {name : String} (named : IsName name) :
    inners name = [.normal name] := by
  obtain ⟨notEmpty, notCurrent, notParent⟩ := named.chars
  have here : inner? name.toList = some (.normal name) := by
    unfold inner?
    rw [if_neg (not_or.mpr ⟨notEmpty, notCurrent⟩), if_neg notParent, String.ofList_toList]
  unfold inners
  rw [segments_of_slash_free named.1]
  exact List.filterMap_cons_some here

theorem isName_of_inner? {segment : List Char} {name : String} (free : '/' ∉ segment)
    (named : inner? segment = some (.normal name)) : IsName name := by
  unfold inner? at named
  split at named
  · cases named
  · rename_i short
    split at named
    · cases named
    · rename_i double
      cases named
      refine ⟨by rwa [String.toList_ofList], ?_⟩
      simp only [List.mem_cons, List.not_mem_nil, or_false, not_or, ← String.toList_inj,
        String.toList_ofList]
      exact ⟨(not_or.mp short).1, (not_or.mp short).2, double⟩

/-- Behind a slash a segment takes a name back or brings one. -/
theorem mem_inners {text : String} {component : Component} (member : component ∈ inners text) :
    component = .parent ∨ ∃ name, IsName name ∧ component = .normal name := by
  obtain ⟨segment, inside, here⟩ := List.mem_filterMap.mp member
  cases component with
  | parent => exact .inl rfl
  | normal name => exact .inr ⟨name, isName_of_inner? (slash_free_of_mem inside) here, rfl⟩
  | root | current =>
    unfold inner? at here
    split at here
    · cases here
    · split at here <;> cases here

/-! ### Following a path -/

/-- **A path is followed piece by piece.** -/
theorem settle_append (stack front behind : Path) :
    settle stack (front ++ behind) =
      (settle stack front).bind fun reached => settle reached.reverse behind := by
  induction stack, front using settle.induct with
  | case1 stack => rw [List.nil_append, settle, Option.bind_some, List.reverse_reverse]
  | case2 stack rest step => exact step
  | case3 _ stack rest step => exact step
  | case4 stack rest climbs =>
    cases stack with
    | nil => rfl
    | cons top stack =>
      cases top with
      | normal name => exact absurd rfl (climbs name stack)
      | root | current | parent => rfl
  | case5 stack component rest notCurrent _ notParent step =>
    cases component with
    | root | normal => exact step
    | current => exact absurd rfl notCurrent
    | parent => exact absurd rfl notParent

/-- A `.` at the front stays in place. -/
theorem settle_first? (segment : List Char) (rest : Path) :
    settle [] ((first? segment).toList ++ rest) = settle [] ((inner? segment).toList ++ rest) := by
  unfold first?
  split
  · rename_i here
    rw [here]
    rfl
  · rfl

theorem filterMap_inner?_cons (segment : List Char) (rest : List (List Char)) :
    (segment :: rest).filterMap inner? = (inner? segment).toList ++ rest.filterMap inner? := by
  cases known : inner? segment with
  | none => exact List.filterMap_cons_none known
  | some => exact List.filterMap_cons_some known

/-- The components of a written path settle like its steps. -/
theorem canonical?_components (path : String) :
    (components path).canonical? = settle [] (steps path) := by
  unfold canonical? components steps inners
  by_cases absolute : IsAbsolute path
  · obtain ⟨rest, chars⟩ := List.head?_eq_some_iff.mp absolute
    rw [if_pos absolute, chars, segments, if_pos rfl]
    cases split : segments rest with
    | nil => exact absurd split (segments_ne_nil rest)
    | cons => rfl
  · rw [if_neg absolute, List.nil_append]
    cases chars : path.toList with
    | nil => rfl
    | cons char rest =>
      have other : char ≠ '/' := by
        rintro rfl
        exact absolute (List.head?_eq_some_iff.mpr ⟨rest, chars⟩)
      rw [segments, if_neg other]
      cases split : segments rest with
      | nil => exact absurd split (segments_ne_nil rest)
      | cons segment more =>
        rw [filterMap_inner?_cons, ← settle_first?]
        cases more with
        | nil => rw [List.filterMap_nil, List.append_nil]
        | cons => rfl

/-! ### Canonical paths -/

/-- A path of names, behind the root or not. -/
def Settled (path : Path) : Prop :=
  ∃ (front : Path) (names : List String), (front = [] ∨ front = [.root]) ∧
    (∀ name ∈ names, IsName name) ∧ path = front ++ names.map .normal

/-- Names and steps back leave names above the front of the stack. -/
theorem settled_of_settle {front : Path} (top : front = [] ∨ front = [.root]) {names : List String}
    (named : ∀ name ∈ names, IsName name) {rest reached : Path}
    (inner : ∀ component ∈ rest, component = .parent ∨
      ∃ name, IsName name ∧ component = .normal name)
    (done : settle (names.map .normal ++ front) rest = some reached) : Settled reached := by
  induction rest generalizing names with
  | nil =>
    have turned : ∀ name ∈ names.reverse, IsName name :=
      fun name member => named name (List.mem_reverse.mp member)
    refine ⟨front, names.reverse, top, turned, ?_⟩
    have same : front.reverse = front := by rcases top with rfl | rfl <;> rfl
    rw [settle, Option.some.injEq] at done
    rw [← done, List.reverse_append, same, List.map_reverse]
  | cons component rest step =>
    rw [List.forall_mem_cons] at inner
    rcases inner.1 with rfl | ⟨name, isName, rfl⟩
    · cases names with
      | nil => rcases top with rfl | rfl <;> cases done
      | cons last names => exact step (List.forall_mem_cons.mp named).2 inner.2 done
    · exact step (List.forall_mem_cons.mpr ⟨isName, named⟩) inner.2 done

theorem settled_of_steps {path : String} {reached : Path}
    (done : settle [] (steps path) = some reached) : Settled reached := by
  have inner : ∀ component ∈ inners path, component = .parent ∨
      ∃ name, IsName name ∧ component = .normal name := fun _ member => mem_inners member
  have none : ∀ name ∈ ([] : List String), IsName name := fun _ member => (nomatch member)
  unfold steps at done
  split at done
  · exact settled_of_settle (.inr rfl) none inner done
  · exact settled_of_settle (.inl rfl) none inner done

theorem Settled.plain {path : Path} (settled : Settled path) :
    ∀ component ∈ path, component ≠ .current ∧ component ≠ .parent := by
  obtain ⟨front, names, top, _, rfl⟩ := settled
  intro component member
  rcases List.mem_append.mp member with first | later
  · rcases top with rfl | rfl
    · cases first
    · rw [List.mem_singleton.mp first]
      exact ⟨nofun, nofun⟩
  · obtain ⟨name, _, rfl⟩ := List.mem_map.mp later
    exact ⟨nofun, nofun⟩

/-- A canonical path is followed as it stands. -/
theorem Settled.settle_eq {path : Path} (settled : Settled path) : settle [] path = some path := by
  obtain ⟨front, names, top, _, rfl⟩ := settled
  rcases top with rfl | rfl
  · exact settle_normal [] names
  · exact settle_normal [.root] names

/-- Names between slashes are read back. -/
theorem inners_intercalate {names : List String} (named : ∀ name ∈ names, IsName name) :
    inners ("/".intercalate names) = names.map .normal := by
  induction names with
  | nil => rfl
  | cons name rest step =>
    rw [List.forall_mem_cons] at named
    cases rest with
    | nil => exact inners_of_isName named.1
    | cons next more =>
      rw [String.intercalate_cons_cons, inners_slash, inners_of_isName named.1, step named.2]
      rfl

theorem IsName.not_isAbsolute {name : String} (isName : IsName name) (behind : String) :
    ¬IsAbsolute (name ++ behind) := by
  rw [isAbsolute_append fun empty => isName.chars.1 (String.toList_eq_nil_iff.mpr empty)]
  exact fun first => isName.1 (List.mem_of_mem_head? first)

/-- Names between slashes do not start at the root. -/
theorem not_isAbsolute_intercalate {names : List String} (named : ∀ name ∈ names, IsName name) :
    ¬IsAbsolute ("/".intercalate names) := by
  cases names with
  | nil => exact nofun
  | cons name rest =>
    have isName := named name List.mem_cons_self
    cases rest with
    | nil =>
      have relative := isName.not_isAbsolute ""
      rwa [String.append_empty] at relative
    | cons next more =>
      rw [String.intercalate_cons_cons, String.append_assoc]
      exact isName.not_isAbsolute _

theorem text_eq {path : Path} (other : path ≠ [.root]) :
    text path = "/".intercalate (path.map componentText) := by
  unfold text
  split
  · exact absurd rfl other
  · rfl

theorem map_componentText (names : List String) :
    (names.map Component.normal).map componentText = names := by
  rw [List.map_map]
  exact List.map_id _

/-- **The text of a canonical path has its components as steps.** -/
theorem Settled.steps_text {path : Path} (settled : Settled path) : steps (text path) = path := by
  obtain ⟨front, names, top, named, rfl⟩ := settled
  rcases top with rfl | rfl
  · have other : names.map Component.normal ≠ [.root] := by
      cases names <;> exact nofun
    rw [List.nil_append, text_eq other, map_componentText]
    unfold steps
    rw [if_neg (not_isAbsolute_intercalate named), inners_intercalate named]
    rfl
  · cases names with
    | nil => rfl
    | cons name rest =>
      have other : [Component.root] ++ (name :: rest).map .normal ≠ [.root] := nofun
      rw [text_eq other, List.map_append, map_componentText]
      show steps ("/".intercalate ("" :: name :: rest)) = _
      rw [String.intercalate_cons_cons, steps_slash, inners_intercalate named]
      rfl

/-! ### Paths behind paths -/

/-- A path as it is seen from another one. -/
def join (path rest : String) : String :=
  if IsAbsolute rest then rest
  else if path = "" ∨ path.toList.getLast? = some '/' then path ++ rest
  else path ++ "/" ++ rest

/-- **The steps of a path behind another one come last.** -/
theorem steps_join (path : String) {rest : String} (relative : ¬IsAbsolute rest) :
    steps (join path rest) = steps path ++ inners rest := by
  unfold join
  rw [if_neg relative]
  by_cases empty : path = ""
  · rw [if_pos (.inl empty), empty, String.empty_append]
    unfold steps
    exact congrArg (· ++ _) (if_neg relative)
  · split
    · rename_i ends
      obtain ⟨front, shape⟩ := List.getLast?_eq_some_iff.mp (ends.resolve_left empty)
      obtain rfl : path = String.ofList front ++ "/" := by
        rw [← String.toList_inj, shape, String.toList_append, String.toList_ofList]
        rfl
      exact steps_slash _ rest
    · rw [steps_slash]
      have same : steps (path ++ "/") = steps path := by
        unfold steps
        simp only [inners_trailing_slash, isAbsolute_append empty]
      rw [same]

/-- A piece of a path that leads back to where it starts: none, a `.`, or a name and a `..`. -/
inductive Detour : String → Prop
  | nothing : Detour ""
  | current : Detour "."
  | back {name : String} (isName : IsName name) : Detour (name ++ "/" ++ "..")

namespace Detour

variable {detour : String}

theorem not_isAbsolute (leads : Detour detour) : ¬IsAbsolute detour := by
  cases leads with
  | nothing => exact nofun
  | current => decide
  | @back name isName =>
    rw [String.append_assoc]
    exact isName.not_isAbsolute _

/-- **A detour leaves the stack as it was.** -/
theorem settle_inners (leads : Detour detour) (stack : Path) :
    settle stack (inners detour) = some stack.reverse := by
  cases leads with
  | nothing => rfl
  | current => rfl
  | @back name isName =>
    rw [inners_slash, inners_of_isName isName]
    rfl

end Detour

/-- **What comes behind a detour is reached without it.** -/
theorem Detour.settle_append {detour : String} (leads : Detour detour) (stack front behind : Path) :
    settle stack (front ++ inners detour ++ behind) = settle stack (front ++ behind) := by
  rw [List.append_assoc, Path.settle_append, Path.settle_append stack front]
  refine congrArg _ (funext fun reached => ?_)
  rw [Path.settle_append, leads.settle_inners, Option.bind_some, List.reverse_reverse]

end Path

open ObjectLowering.Source.Path

/-- **The canonical form of a written path comes from its steps.** -/
theorem canonicalPath_eq (path : String) :
    canonicalPath path = (settle [] (steps path)).elim (.error (.outsideRoot path)) .ok := by
  unfold canonicalPath
  rw [canonical?_components]
  cases settle [] (steps path) <;> rfl

theorem canonicalPath_eq_ok_iff {path : String} {canonical : Path} :
    canonicalPath path = .ok canonical ↔ settle [] (steps path) = some canonical := by
  rw [canonicalPath_eq]
  cases settle [] (steps path) with
  | none => exact ⟨nofun, nofun⟩
  | some reached => exact ⟨fun same => congrArg some (Except.ok.inj same),
      fun same => congrArg Except.ok (Option.some.inj same)⟩

/-- Two written paths have one canonical form, or both climb above their start. -/
def SpellAlike (path other : String) : Prop :=
  (∃ canonical, canonicalPath path = .ok canonical ∧ canonicalPath other = .ok canonical) ∨
    canonicalPath path = .error (.outsideRoot path) ∧
      canonicalPath other = .error (.outsideRoot other)

theorem spellAlike_of_settle {path other : String}
    (same : settle [] (steps path) = settle [] (steps other)) : SpellAlike path other := by
  unfold SpellAlike
  rw [canonicalPath_eq, canonicalPath_eq, same]
  cases settle [] (steps other) with
  | none => exact .inr ⟨rfl, rfl⟩
  | some canonical => exact .inl ⟨canonical, rfl, rfl⟩

/-- **Canonical forms compose.** A canonical form has neither `.` nor `..` and is its own, and what
is seen from a path is what is seen from its canonical form. So a detour between two segments of a
path or behind the last one changes nothing. -/
theorem canonical_forms_compose (path : String) :
    (∀ canonical, canonicalPath path = .ok canonical →
      (∀ component ∈ canonical, component ≠ .current ∧ component ≠ .parent) ∧
      canonicalPath canonical.text = .ok canonical ∧
      ∀ rest, ¬IsAbsolute rest → SpellAlike (join path rest) (join canonical.text rest)) ∧
    ∀ detour, Detour detour →
      SpellAlike path (join path detour) ∧
      ∀ front behind, path = front ++ "/" ++ behind →
        SpellAlike path (front ++ "/" ++ detour ++ "/" ++ behind) := by
  constructor
  · intro canonical resolved
    have reached := canonicalPath_eq_ok_iff.mp resolved
    have settled := settled_of_steps reached
    refine ⟨settled.plain, ?_, fun rest relative => spellAlike_of_settle ?_⟩
    · rw [canonicalPath_eq_ok_iff, settled.steps_text, settled.settle_eq]
    · rw [steps_join path relative, steps_join _ relative, settle_append, settle_append, reached,
        settled.steps_text, settled.settle_eq]
  · intro detour leads
    constructor
    · refine spellAlike_of_settle ?_
      have around := leads.settle_append [] (steps path) []
      rw [List.append_nil, List.append_nil] at around
      rw [steps_join path leads.not_isAbsolute, around]
    · rintro front behind rfl
      refine spellAlike_of_settle ?_
      have longer : front ++ "/" ++ detour ++ "/" ++ behind =
          front ++ "/" ++ (detour ++ "/" ++ behind) := by
        simp only [String.append_assoc]
      rw [longer, steps_slash, steps_slash, inners_slash, ← List.append_assoc, leads.settle_append]

/-- A unit next to another one, imported along a detour. -/
theorem canonical_forms_compose_main :
    canonicalPath "src/./a/../Main" = .ok [.normal "src", .normal "Main"] ∧
      canonicalPath "src/Main" = .ok [.normal "src", .normal "Main"] ∧
      SpellAlike "src/./a/../Main/../Lib" "src/Main/../Lib" ∧
      SpellAlike "src/./a/../Main" "src/b/.././a/../Main" := by
  have resolved : canonicalPath "src/./a/../Main" = .ok [.normal "src", .normal "Main"] := rfl
  have detour : Detour ("b" ++ "/" ++ "..") := .back (by decide)
  obtain ⟨composes, detours⟩ := canonical_forms_compose "src/./a/../Main"
  obtain ⟨_, again, behind⟩ := composes _ resolved
  exact ⟨resolved, again, behind "../Lib" (by decide),
    (detours _ detour).2 "src" "./a/../Main" rfl⟩

end ObjectLowering.Source
