/-
**Rules for walks that annotate.**

A walk over some expressions writes under their numbers only, and finds nothing there. What it
learned from an annotation therefore still holds in every later state that says the same about these
expressions. So a rule for a sequence of walks needs no word about what comes between.

* `Walks` states this for a walk over whole trees, `Fills` for the part of the walk of a tree that
  comes before the type of its root is kept.
* `Walks.bind`, `Fills.bind`: one walk after the other.
* **`Walks.typed`**: a tree is walked by filling its root in.
-/

import ObjectLowering.Proofs.Resolution.Numbering
import ObjectLowering.Typing.Infer

namespace ObjectLowering

open Source (Expr IsNumbered)

theorem NodeMap.bound_empty {α : Type} (count : Nat) : (empty count : NodeMap α).bound = count :=
  Array.size_replicate

/-- A number keeps what it has when another takes a value, even one that has no room. -/
theorem NodeMap.get?_insert_of_ne {α : Type} (map : NodeMap α) (value : α) {id other : NodeId}
    (different : other ≠ id) : (map.insert id value).get? other = map.get? other := by
  unfold insert get?
  rw [Array.getElem?_setIfInBounds_ne different.symm]

namespace Annotations

/-- Two annotations say the same about an expression. -/
structure AgreeAt (notes later : Annotations) (id : NodeId) : Prop where
  type : later.type? id = notes.type? id
  meaning : later.meaning? id = notes.meaning? id
  call : later.call? id = notes.call? id

/-- Nothing is known about an expression. -/
structure Blank (notes : Annotations) (id : NodeId) : Prop where
  type : notes.type? id = none
  meaning : notes.meaning? id = none
  call : notes.call? id = none

/-- There is room for a count of expressions. -/
structure Fits (notes : Annotations) (count : Nat) : Prop where
  types : notes.types.bound = count
  meanings : notes.meanings.bound = count
  calls : notes.calls.bound = count

/-- The annotations with a type, if there is one, kept for an expression. -/
def keepType (notes : Annotations) (id : NodeId) : Option Ty → Annotations
  | none => notes
  | some type => { notes with types := notes.types.insert id type }

theorem type?_keepType {notes : Annotations} {id : NodeId} {type : Option Ty}
    (untyped : notes.type? id = none) (inside : id < notes.types.bound) :
    (notes.keepType id type).type? id = type := by
  cases type with
  | none => exact untyped
  | some type => exact (NodeMap.get?_insert _ _ _ inside).trans (if_pos rfl)

theorem type?_keepType_of_ne (notes : Annotations) (type : Option Ty) {id other : NodeId}
    (different : other ≠ id) : (notes.keepType id type).type? other = notes.type? other := by
  cases type with
  | none => rfl
  | some type => exact NodeMap.get?_insert_of_ne _ _ different

theorem meaning?_keepType (notes : Annotations) (type : Option Ty) {id : NodeId} (other : NodeId) :
    (notes.keepType id type).meaning? other = notes.meaning? other := by
  cases type <;> rfl

theorem call?_keepType (notes : Annotations) (type : Option Ty) {id : NodeId} (other : NodeId) :
    (notes.keepType id type).call? other = notes.call? other := by
  cases type <;> rfl

theorem Fits.keepType {notes : Annotations} {count : Nat} (fits : notes.Fits count) {id : NodeId}
    (type : Option Ty) : (notes.keepType id type).Fits count := by
  cases type with
  | none => exact fits
  | some type => exact ⟨(NodeMap.bound_insert _ _ _).trans fits.types, fits.meanings, fits.calls⟩

theorem AgreeAt.refl (notes : Annotations) (id : NodeId) : notes.AgreeAt notes id := ⟨rfl, rfl, rfl⟩

theorem AgreeAt.trans {notes middle later : Annotations} {id : NodeId}
    (first : notes.AgreeAt middle id) (second : middle.AgreeAt later id) : notes.AgreeAt later id :=
  ⟨second.type.trans first.type, second.meaning.trans first.meaning,
    second.call.trans first.call⟩

theorem Blank.of_agreeAt {notes later : Annotations} {id : NodeId} (blank : notes.Blank id)
    (same : notes.AgreeAt later id) : later.Blank id :=
  ⟨same.type.trans blank.type, same.meaning.trans blank.meaning, same.call.trans blank.call⟩

end Annotations

namespace Inference

/-- After a walk over the nodes: nothing changed elsewhere, and what was learned holds for good. -/
structure Walked (count : Nat) (nodes : List Expr) (notes after : Annotations)
    (learned : Annotations → Prop) : Prop where
  fits : after.Fits count
  frame : ∀ id, id ∉ nodes.map (·.id) → notes.AgreeAt after id
  lasts : ∀ later, (∀ node ∈ nodes, after.AgreeAt later node.id) → learned later

/-- The step is a walk over the nodes that learns something about its result. -/
def Walks {α : Type} (count : Nat) (nodes : List Expr) (step : Step α)
    (learned : α → Annotations → Prop) : Prop :=
  IsNumbered count nodes → ∀ state : Inference, state.notes.Fits count →
    (∀ node ∈ nodes, state.notes.Blank node.id) →
    Walked count nodes state.notes (step.run state).2.notes (learned (step.run state).1)

/-- Before the type of a root is kept: its children were walked, and its meaning and its target are
what they stay. -/
structure Filled (count : Nat) (root : Expr) (children : List Expr) (notes after : Annotations)
    (learned : Annotations → Prop) : Prop where
  fits : after.Fits count
  frame : ∀ id, id ∉ (root :: children).map (·.id) → notes.AgreeAt after id
  untyped : after.type? root.id = none
  lasts : ∀ later, (∀ node ∈ children, after.AgreeAt later node.id) →
    later.meaning? root.id = after.meaning? root.id → later.call? root.id = after.call? root.id →
    learned later

/-- The step walks the children of a root and may say what the root means or calls. -/
def Fills {α : Type} (count : Nat) (root : Expr) (children : List Expr) (step : Step α)
    (learned : α → Annotations → Prop) : Prop :=
  IsNumbered count (root :: children) → ∀ state : Inference, state.notes.Fits count →
    (∀ node ∈ root :: children, state.notes.Blank node.id) →
    Filled count root children state.notes (step.run state).2.notes (learned (step.run state).1)

section Rules

variable {α β : Type} {count : Nat} {nodes rest children : List Expr} {root : Expr}
  {step : Step α} {next : α → Step β} {learned learned' : α → Annotations → Prop}
  {then' : α → β → Annotations → Prop}

/-! ### Whole trees -/

theorem Walks.mono (walks : Walks count nodes step learned)
    (weaker : ∀ value later, learned value later → learned' value later) :
    Walks count nodes step learned' := fun numbered state fits blank =>
  let walked := walks numbered state fits blank
  ⟨walked.fits, walked.frame, fun later same => weaker _ _ (walked.lasts later same)⟩

theorem Walks.silent (same : ∀ (state : Inference) (id : NodeId),
      state.notes.AgreeAt (step.run state).2.notes id)
    (room : ∀ state : Inference, state.notes.Fits count → (step.run state).2.notes.Fits count)
    (known : ∀ state later, learned (step.run state).1 later) : Walks count [] step learned :=
  fun _ state fits _ => ⟨room state fits, fun id _ => same state id, fun _ _ => known state _⟩

theorem Walks.pure (value : α) :
    Walks count [] (pure value) fun result _ => result = value :=
  .silent (fun _ _ => .refl _ _) (fun _ fits => fits) fun _ _ => rfl

/-- One walk after the other: what the first learned outlasts the second. -/
theorem Walks.bind (first : Walks count nodes step learned)
    (second : ∀ value, Walks count rest (next value) (then' value)) :
    Walks count (nodes ++ rest) (step >>= next) fun result later =>
      ∃ value, learned value later ∧ then' value result later := by
  intro numbered state fits blank
  have walked := first numbered.left state fits fun node member =>
    blank node (List.mem_append_left _ member)
  have onward := second (step.run state).1 numbered.right (step.run state).2 walked.fits
    fun node member => (blank node (List.mem_append_right _ member)).of_agreeAt
      (walked.frame _ (numbered.apart' member))
  refine ⟨onward.fits, fun id outside => ?_, fun later same => ⟨(step.run state).1, ?_, ?_⟩⟩
  · rw [List.map_append, List.mem_append, not_or] at outside
    exact (walked.frame id outside.1).trans (onward.frame id outside.2)
  · refine walked.lasts later ?_
    intro node member
    exact (onward.frame _ (numbered.apart member)).trans
      (same node (List.mem_append_left _ member))
  · exact onward.lasts later fun node member => same node (List.mem_append_right _ member)

theorem Walks.last (first : Walks count nodes step learned)
    (second : ∀ value, Walks count [] (next value) (then' value)) :
    Walks count nodes (step >>= next) fun result later =>
      ∃ value, learned value later ∧ then' value result later := by
  have both := first.bind second
  rwa [List.append_nil] at both

theorem Walks.forM {ι : Type} {items : List ι} {parts : ι → List Expr} {walk : ι → Step PUnit}
    {known : ι → Annotations → Prop}
    (each : ∀ item ∈ items, Walks count (parts item) (walk item) fun _ => known item) :
    Walks count (items.flatMap parts) (items.forM walk) fun _ later =>
      ∀ item ∈ items, known item later := by
  induction items with
  | nil => exact (Walks.pure PUnit.unit).mono fun _ _ _ _ member => nomatch member
  | cons item others step =>
    have first := each item List.mem_cons_self
    have onward := step fun other member => each other (List.mem_cons_of_mem _ member)
    show Walks count (_ ++ _) (walk item >>= fun _ => others.forM walk) _
    refine (first.bind fun _ => onward).mono fun _ later => ?_
    rintro ⟨_, here, there⟩ other member
    rcases List.mem_cons.mp member with rfl | member
    · exact here
    · exact there other member

theorem Walks.discard (walks : Walks count nodes step learned) :
    Walks count nodes (discard step) fun _ later => ∃ value, learned value later :=
  fun numbered state fits blank =>
    let walked := walks numbered state fits blank
    ⟨walked.fits, walked.frame, fun later same => ⟨_, walked.lasts later same⟩⟩

/-- Frames hold no annotation. -/
theorem Walks.inFrame (walks : Walks count nodes step learned) :
    Walks count nodes (inFrame step) learned :=
  fun numbered state fits blank =>
    walks numbered { state with frames := [] :: state.frames } fits blank

theorem Walks.declare (place : Place) (name : Name) (type : Ty) :
    Walks count [] (declare place name type) fun _ _ => True := by
  have same (state : Inference) : ∃ locals,
      ((Inference.declare place name type).run state).2.notes =
        { state.notes with locals := locals } := by
    obtain ⟨notes, frames⟩ := state
    obtain ⟨table, owner, method⟩ := place
    cases method <;> cases frames <;> exact ⟨_, rfl⟩
  refine .silent (fun state id => ?_) (fun state fits => ?_) fun _ _ => trivial
  · obtain ⟨locals, after⟩ := same state
    rw [after]
    exact ⟨rfl, rfl, rfl⟩
  · obtain ⟨locals, after⟩ := same state
    rw [after]
    exact ⟨fits.types, fits.meanings, fits.calls⟩

theorem Walks.setFrames (frames : List (List (Name × Ty))) :
    Walks count [] (modify fun state : Inference => { state with frames := frames }) fun _ _ =>
      True :=
  .silent (fun _ _ => .refl _ _) (fun _ fits => fits) fun _ _ => trivial

/-! ### Below a root -/

theorem Fills.mono (fills : Fills count root nodes step learned)
    (weaker : ∀ value later, learned value later → learned' value later) :
    Fills count root nodes step learned' := fun numbered state fits blank =>
  let filled := fills numbered state fits blank
  ⟨filled.fits, filled.frame, filled.untyped, fun later same meaning call =>
    weaker _ _ (filled.lasts later same meaning call)⟩

/-- A step that does no more than to say what the root means or calls. -/
theorem Fills.own
    (room : ∀ state : Inference, state.notes.Fits count → (step.run state).2.notes.Fits count)
    (elsewhere : ∀ (state : Inference) (id : NodeId), id ≠ root.id →
      state.notes.AgreeAt (step.run state).2.notes id)
    (untyped : ∀ state : Inference,
      (step.run state).2.notes.type? root.id = state.notes.type? root.id)
    (known : ∀ state : Inference, state.notes.Fits count → root.id < count →
      state.notes.Blank root.id → ∀ later,
        later.meaning? root.id = (step.run state).2.notes.meaning? root.id →
        later.call? root.id = (step.run state).2.notes.call? root.id →
        learned (step.run state).1 later) :
    Fills count root [] step learned := by
  intro numbered state fits blank
  have here := blank root List.mem_cons_self
  refine ⟨room state fits, fun id outside => elsewhere state id ?_, ?_, fun later _ => ?_⟩
  · exact fun same => outside (List.mem_singleton.mpr same)
  · exact (untyped state).trans here.type
  · exact known state fits (numbered.inside root List.mem_cons_self) here later

theorem Fills.pure (value : α) : Fills count root [] (pure value) fun result later =>
    result = value ∧ later.meaning? root.id = none ∧ later.call? root.id = none :=
  .own (fun _ fits => fits) (fun _ _ _ => .refl _ _) (fun _ => rfl)
    fun _ _ _ blank _ meaning call => ⟨rfl, meaning.trans blank.meaning, call.trans blank.call⟩

theorem Fills.setMeaning (meaning : Meaning) (value : α) :
    Fills count root [] (setMeaning root.id meaning >>= fun _ => Pure.pure value)
      fun result later => result = value ∧ later.meaning? root.id = some meaning ∧
        later.call? root.id = none := by
  refine .own (fun _ fits => ?_) (fun _ _ other => ?_) (fun _ => rfl)
    fun state fits inside blank _ same call => ⟨rfl, same.trans ?_, call.trans blank.call⟩
  · exact ⟨fits.types, (NodeMap.bound_insert _ _ _).trans fits.meanings, fits.calls⟩
  · exact ⟨rfl, NodeMap.get?_insert_of_ne _ _ other, rfl⟩
  · refine (NodeMap.get?_insert _ _ _ ?_).trans (if_pos rfl)
    rwa [fits.meanings]

theorem Fills.setCall (call : CallInfo) (value : α) :
    Fills count root [] (setCall root.id call >>= fun _ => Pure.pure value)
      fun result later => result = value ∧ later.meaning? root.id = none ∧
        later.call? root.id = some call := by
  refine .own (fun _ fits => ?_) (fun _ _ other => ?_) (fun _ => rfl)
    fun state fits inside blank _ meaning same => ⟨rfl, meaning.trans blank.meaning, same.trans ?_⟩
  · exact ⟨fits.types, fits.meanings, (NodeMap.bound_insert _ _ _).trans fits.calls⟩
  · exact ⟨rfl, rfl, NodeMap.get?_insert_of_ne _ _ other⟩
  · refine (NodeMap.get?_insert _ _ _ ?_).trans (if_pos rfl)
    rwa [fits.calls]

theorem Fills.localInScope {name : Name} {next : Option Ty → Step β}
    {learned : β → Annotations → Prop}
    (onward : ∀ type, Fills count root nodes (next type) learned) :
    Fills count root nodes (localInScope name >>= next) learned :=
  fun numbered state fits blank => onward _ numbered state fits blank

/-- Walks of children come before what is found about the root. -/
theorem Fills.bind (first : Walks count nodes step learned)
    (second : ∀ value, Fills count root rest (next value) (then' value)) :
    Fills count root (nodes ++ rest) (step >>= next) fun result later =>
      ∃ value, learned value later ∧ then' value result later := by
  intro numbered state fits blank
  have below : IsNumbered count (nodes ++ rest) := numbered.sublist (List.sublist_cons_self _ _)
  have top : IsNumbered count (root :: rest) :=
    numbered.sublist ((List.sublist_append_right nodes rest).cons_cons root)
  have walked := first below.left state fits fun node member =>
    blank node (List.mem_cons_of_mem _ (List.mem_append_left _ member))
  have outside (node : Expr) (member : node ∈ root :: rest) : node.id ∉ nodes.map (·.id) := by
    rcases List.mem_cons.mp member with rfl | member
    · exact (numbered.sublist ((List.sublist_append_left nodes rest).cons_cons _)).root_apart
    · exact below.apart' member
  have filled := second (step.run state).1 top (step.run state).2 walked.fits fun node member =>
    (blank node
      (List.cons_subset_cons root (List.subset_append_right nodes rest) member)).of_agreeAt
        (walked.frame _ (outside node member))
  refine ⟨filled.fits, fun id away => ?_, filled.untyped, fun later same meaning call =>
    ⟨(step.run state).1, ?_, ?_⟩⟩
  · rw [List.map_cons, List.map_append, List.mem_cons, List.mem_append, not_or, not_or] at away
    refine (walked.frame id away.2.1).trans (filled.frame id ?_)
    rw [List.map_cons, List.mem_cons, not_or]
    exact ⟨away.1, away.2.2⟩
  · refine walked.lasts later ?_
    intro node member
    refine (filled.frame _ fun behind => ?_).trans (same node (List.mem_append_left _ member))
    obtain ⟨other, inside, equal⟩ := List.mem_map.mp behind
    refine outside other inside ?_
    rw [equal]
    exact List.mem_map_of_mem member
  · exact filled.lasts later (fun node member => same node (List.mem_append_right _ member))
      meaning call

theorem Fills.last (first : Walks count nodes step learned)
    (second : ∀ value, Fills count root [] (next value) (then' value)) :
    Fills count root nodes (step >>= next) fun result later =>
      ∃ value, learned value later ∧ then' value result later := by
  have both := Fills.bind first second
  rwa [List.append_nil] at both

theorem Walks.meaningOf (walks : Walks count nodes step learned) {node : Expr}
    (member : node ∈ nodes) :
    Walks count nodes (step >>= fun value => Inference.meaningOf node.id >>= fun meaning =>
      Pure.pure (value, meaning)) fun result later =>
        learned result.1 later ∧ later.meaning? node.id = result.2 :=
  fun numbered state fits blank =>
    let walked := walks numbered state fits blank
    ⟨walked.fits, walked.frame, fun later same =>
      ⟨walked.lasts later same, (same node member).meaning⟩⟩

theorem Fills.bindMeaning {node : Expr} (first : Walks count nodes step learned)
    (member : node ∈ nodes) {next : α → Option Meaning → Step β}
    {then' : α → Option Meaning → β → Annotations → Prop}
    (second : ∀ value meaning, Fills count root rest (next value meaning) (then' value meaning)) :
    Fills count root (nodes ++ rest)
      (step >>= fun value => Inference.meaningOf node.id >>= next value) fun result later =>
        ∃ value, learned value later ∧ then' value (later.meaning? node.id) result later := by
  have both := Fills.bind (first.meaningOf member) fun pair => second pair.1 pair.2
  refine both.mono ?_
  rintro result later ⟨⟨value, _⟩, ⟨here, rfl⟩, there⟩
  exact ⟨value, here, there⟩

theorem run_typed (id : NodeId) (body : Step (Option Ty)) (state : Inference) :
    (typed id body).run state = ((body.run state).1,
      { (body.run state).2 with
        notes := (body.run state).2.notes.keepType id (body.run state).1 }) := by
  unfold typed
  rw [StateT.run_bind]
  obtain ⟨_ | type, after⟩ := body.run state <;> rfl

/-- **A tree is walked by filling its root in and keeping the type.** -/
theorem Walks.typed {body : Step (Option Ty)} {learned : Option Ty → Annotations → Prop}
    (fills : Fills count root children body learned) :
    Walks count (root :: children) (typed root.id body) fun type later =>
      later.type? root.id = type ∧ learned type later := by
  intro numbered state fits blank
  have filled := fills numbered state fits blank
  rw [run_typed]
  generalize body.run state = result at filled ⊢
  obtain ⟨type, after⟩ := result
  have elsewhere (id : NodeId) (other : id ≠ root.id) :
      after.notes.AgreeAt (after.notes.keepType root.id type) id :=
    ⟨Annotations.type?_keepType_of_ne _ type other, Annotations.meaning?_keepType _ type id,
      Annotations.call?_keepType _ type id⟩
  refine ⟨filled.fits.keepType type, fun id outside => ?_, fun later same => ⟨?_, ?_⟩⟩
  · rw [List.map_cons, List.mem_cons, not_or] at outside
    refine (filled.frame id ?_).trans (elsewhere id outside.1)
    rw [List.map_cons, List.mem_cons, not_or]
    exact outside
  · rw [(same root List.mem_cons_self).type]
    exact Annotations.type?_keepType filled.untyped
      (by rw [filled.fits.types]; exact numbered.inside root List.mem_cons_self)
  · have here := same root List.mem_cons_self
    refine filled.lasts later (fun node member => ?_)
      (here.meaning.trans (Annotations.meaning?_keepType _ type _))
      (here.call.trans (Annotations.call?_keepType _ type _))
    refine (elsewhere _ fun equal => ?_).trans (same node (List.mem_cons_of_mem _ member))
    apply numbered.root_apart
    rw [← equal]
    exact List.mem_map_of_mem member

end Rules

end Inference

end ObjectLowering
