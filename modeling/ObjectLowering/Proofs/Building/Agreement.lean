/-
**Building and lowering step by step.**

A step that builds and a step that lowers agree if, started with what the first assertion owns, both
come to results and the arena then meets the assertion about them, or both stop with the same
failure. Building may also stop because the arena is full, whatever lowering does.

* `Building.Agrees` compares steps outside of routines, `Building.Mirrors` steps within one, which
  count their temporaries alike.
* `Building.Makes` is about a step that only adds to the arena; what it makes is a part of a tree.
* `Agrees.bind`, `Agrees.frame`: steps agree one after the other and beside anything else that is
  owned. `Mirrors.seq`, `Mirrors.step`, `Mirrors.make` are the forms in which proofs use them.
-/

import ObjectLowering.Proofs.Building.Assertions

namespace ObjectLowering

open Lowered (Assertion FlatArena Reference each)
open Lowered.Assertion (Entails known)

variable {α β γ δ : Type}

/-- The outcomes of lowering that a failure of building goes with: the same failure under the name
that it has there, or any if the arena is full. -/
def BuildFailure.Answers {ε : Type} (failure : BuildFailure) (rename : LoweringFailure → ε)
    (lower : Except ε β) : Prop :=
  match failure with
  | .error failed => lower = .error (rename (.error failed))
  | .refused (.listTooLong refusal) => lower = .error (rename (.listTooLong refusal))
  | .refused _ => True
  | .violation _ => False

namespace BuildFailure.Answers

variable {ε : Type} {failure : BuildFailure} {rename : LoweringFailure → ε} {lower : Except ε β}

/-- A failure is still that of a run that goes on. -/
theorem bind (answers : failure.Answers rename lower) (next : β → Except ε δ) :
    failure.Answers rename (lower >>= next) := by
  unfold Answers at answers ⊢
  split <;> simp_all only <;> rfl

theorem mapError {ε' : Type} (answers : failure.Answers rename lower) (again : ε → ε') :
    failure.Answers (again ∘ rename) (lower.mapError again) := by
  unfold Answers at answers ⊢
  split <;> simp_all only <;> rfl

end BuildFailure.Answers

namespace Building

/-- Building agrees with lowering, from one assertion to another. -/
def Agrees (before : Assertion) (build : ArenaM α) (lower : Except LoweringFailure β)
    (after : α → β → Assertion) : Prop :=
  ∀ (arena : FlatArena) rest, arena.Meets before rest →
    match build.run arena with
    | .ok (made, later) => arena.Extends later ∧
        ∃ tree, lower = .ok tree ∧ later.Meets (after made tree) rest
    | .error failure => failure.Answers id lower

/-- A step that only adds to the arena. -/
abbrev Makes (before : Assertion) (build : ArenaM α) (after : α → Assertion) : Prop :=
  Agrees before build (.ok ()) fun made _ => after made

/-- Building within a routine mirrors lowering, with the same count of temporaries. -/
def Mirrors (before : Assertion) (build : BuildM α) (lower : LowerM β)
    (after : α → β → Assertion) : Prop :=
  ∀ count, Agrees before (build.run count) (lower.run count) fun made tree =>
    after made.1 tree.1 + known (made.2 = tree.2)

namespace Agrees

variable {first before extra : Assertion} {build : ArenaM α}
  {lower : Except LoweringFailure β} {after : α → β → Assertion}

theorem pure {made : α} {tree : β} (entails : before.Entails (after made tree)) :
    Agrees before (pure made) (.ok tree) after :=
  fun arena rest meets => ⟨.refl arena, tree, rfl, entails arena rest meets⟩

theorem fail {error : LoweringError} :
    Agrees before (throw (.error error) : ArenaM α) (.error (.error error)) after :=
  fun _ _ _ => rfl

theorem entails (agrees : Agrees before build lower after) (enough : first.Entails before) :
    Agrees first build lower after := fun arena rest meets =>
  agrees arena rest (enough arena rest meets)

theorem weaken {result : α → β → Assertion} (agrees : Agrees before build lower after)
    (enough : ∀ made tree, (after made tree).Entails (result made tree)) :
    Agrees before build lower result := by
  intro arena rest meets
  have known := agrees arena rest meets
  cases run : build.run arena with
  | error failure =>
    rw [run] at known
    exact known
  | ok reached =>
    rw [run] at known
    obtain ⟨grown, tree, same, meets⟩ := known
    exact ⟨grown, tree, same, enough _ _ _ _ meets⟩

/-- Beside what a step needs, anything else may be owned. -/
theorem frame (agrees : Agrees before build lower after) (frame : Assertion) :
    Agrees (before + frame) build lower fun made tree => after made tree + frame := by
  intro arena rest meets
  obtain ⟨meets, fact⟩ := Assertion.meets_add.mp meets
  have known := agrees arena _ meets
  cases run : build.run arena with
  | error failure =>
    rw [run] at known
    exact known
  | ok reached =>
    rw [run] at known
    obtain ⟨grown, tree, same, meets⟩ := known
    exact ⟨grown, tree, same, Assertion.meets_add.mpr ⟨meets, frame.mono grown fact⟩⟩

theorem bind {next : α → ArenaM γ} {go : β → Except LoweringFailure δ}
    {middle : α → β → Assertion} {result : γ → δ → Assertion}
    (agrees : Agrees before build lower middle)
    (others : ∀ made tree, Agrees (middle made tree) (next made) (go tree) result) :
    Agrees before (build >>= next) (lower >>= go) result := by
  intro arena rest meets
  have known := agrees arena rest meets
  rw [StateT.run_bind]
  cases run : build.run arena with
  | error failure =>
    rw [run] at known
    exact known.bind go
  | ok reached =>
    obtain ⟨made, later⟩ := reached
    rw [run] at known
    obtain ⟨grown, tree, rfl, meets⟩ := known
    have after := others made tree later rest meets
    show match (next made).run later with
      | .ok (found, last) => arena.Extends last ∧
          ∃ reached, go tree = .ok reached ∧ last.Meets (result found reached) rest
      | .error failure => failure.Answers id (go tree)
    cases run : (next made).run later with
    | error failure =>
      rw [run] at after
      exact after
    | ok reached =>
      rw [run] at after
      obtain ⟨more, after⟩ := after
      exact ⟨grown.trans more, after⟩

/-- A step, with the rest of what is owned kept for the next one. -/
theorem step {next : α → ArenaM γ} {go : β → Except LoweringFailure δ}
    {result : γ → δ → Assertion} (frame : Assertion)
    (agrees : Agrees before build lower after) (enough : first.Entails (before + frame))
    (others : ∀ made tree, Agrees (after made tree + frame) (next made) (go tree) result) :
    Agrees first (build >>= next) (lower >>= go) result :=
  ((agrees.frame frame).entails enough).bind others

/-- A step that only adds to the arena has nothing to agree with. -/
theorem make {next : α → ArenaM γ} {result : γ → β → Assertion} {made : α → Assertion}
    (frame : Assertion) (makes : Makes before build made)
    (enough : first.Entails (before + frame))
    (others : ∀ item, Agrees (made item + frame) (next item) lower result) :
    Agrees first (build >>= next) lower result :=
  @step _ _ _ _ _ _ _ _ _ next (fun _ => lower) _ frame makes enough fun item _ => others item

/-- What is known may be used. -/
theorem known {fact : Prop} (agrees : fact → Agrees (before + extra) build lower after) :
    Agrees (before + Assertion.known fact + extra) build lower after := by
  intro arena rest meets
  have holds : fact := meets.2.1.2
  rw [show before + Assertion.known fact + extra = Assertion.known fact + (before + extra) by
    abel] at meets
  refine agrees holds arena rest ⟨?_, meets.2.2⟩
  have accounts := meets.1
  rwa [show (Assertion.known fact + (before + extra)).loose = (before + extra).loose from
    zero_add _] at accounts

/-- What the first assertion says may be used. -/
theorem of_fact {fact : Prop} (holds : ∀ arena, before.fact arena → fact)
    (agrees : fact → Agrees before build lower after) : Agrees before build lower after :=
  fun arena rest meets => agrees (holds arena meets.2) arena rest meets

/-- Steps for the items of a list agree if each of them does. -/
theorem mapM {ι : Type} {items : List ι} {build : ι → ArenaM α}
    {lower : ι → Except LoweringFailure β}
    (agrees : ∀ item ∈ items, Agrees 0 (build item) (lower item) after) :
    Agrees 0 (items.mapM build) (items.mapM lower) (each after) := by
  induction items with
  | nil => exact pure (.refl 0)
  | cons item rest step =>
    rw [List.forall_mem_cons] at agrees
    rw [List.mapM_cons, List.mapM_cons]
    refine agrees.1.bind fun made tree => ?_
    refine Agrees.step (after made tree) (step agrees.2) (.of_eq (zero_add _).symm)
      fun others trees => ?_
    exact pure (.of_eq (add_comm ..))

end Agrees

/-- What only adds to the arena does so step by step within a routine, too. -/
theorem liftM_bind (build : ArenaM α) (next : α → ArenaM γ) :
    (liftM (build >>= next) : BuildM γ) = liftM build >>= fun item => liftM (next item) := by
  funext count
  show (build >>= next) >>= (fun item => Pure.pure (item, count)) =
    (build >>= fun item => Pure.pure (item, count)) >>= fun item =>
      next item.1 >>= fun found => Pure.pure (found, item.2)
  simp only [bind_assoc, pure_bind]

namespace Mirrors

variable {first before extra : Assertion} {build : BuildM α} {lower : LowerM β}
  {after : α → β → Assertion}

theorem pure {made : α} {tree : β} (entails : before.Entails (after made tree)) :
    Mirrors before (pure made) (pure tree) after := fun _ =>
  .pure (entails.trans (.add_known rfl _))

theorem fail {error : LoweringError} :
    Mirrors before (fail error : BuildM α) (Lowering.fail error) after := fun _ => .fail

theorem entails (mirrors : Mirrors before build lower after) (enough : first.Entails before) :
    Mirrors first build lower after := fun count => (mirrors count).entails enough

theorem weaken {result : α → β → Assertion} (mirrors : Mirrors before build lower after)
    (enough : ∀ made tree, (after made tree).Entails (result made tree)) :
    Mirrors before build lower result := fun count =>
  (mirrors count).weaken fun made tree => (enough made.1 tree.1).add _

theorem known {fact : Prop} (mirrors : fact → Mirrors (before + extra) build lower after) :
    Mirrors (before + Assertion.known fact + extra) build lower after := fun count =>
  .known fun holds => mirrors holds count

/-- What the first assertion says may be used. -/
theorem of_fact {fact : Prop} (holds : ∀ arena, before.fact arena → fact)
    (mirrors : fact → Mirrors before build lower after) : Mirrors before build lower after :=
  fun count => .of_fact holds fun known => mirrors known count

/-- A step, with the rest of what is owned kept for the next one. -/
theorem step {next : α → BuildM γ} {go : β → LowerM δ} {result : γ → δ → Assertion}
    (frame : Assertion) (mirrors : Mirrors before build lower after)
    (enough : first.Entails (before + frame))
    (others : ∀ made tree, Mirrors (after made tree + frame) (next made) (go tree) result) :
    Mirrors first (build >>= next) (lower >>= go) result := by
  intro count
  rw [StateT.run_bind, StateT.run_bind]
  refine Agrees.step frame (mirrors count) enough ?_
  rintro ⟨made, counted⟩ ⟨tree, other⟩
  refine Agrees.known fun same => ?_
  cases same
  exact others made tree counted

/-- A step that needs nothing, before the next one. -/
theorem seq {next : α → BuildM γ} {go : β → LowerM δ} {result : γ → δ → Assertion}
    (mirrors : Mirrors 0 build lower after)
    (others : ∀ made tree, Mirrors (after made tree + first) (next made) (go tree) result) :
    Mirrors first (build >>= next) (lower >>= go) result :=
  step first mirrors (.of_eq (zero_add first).symm) others

/-- A step that only adds to the arena, with the rest of what is owned kept for the next one. -/
theorem make {build : ArenaM α} {next : α → BuildM γ} {result : γ → β → Assertion}
    {made : α → Assertion} (frame : Assertion) (makes : Makes before build made)
    (enough : first.Entails (before + frame))
    (others : ∀ item, Mirrors (made item + frame) (next item) lower result) :
    Mirrors first (liftM build >>= next) lower result := by
  intro count
  have run : (liftM build >>= next : BuildM γ).run count =
      build >>= fun item => (next item).run count := by
    rw [StateT.run_bind, show (liftM build : BuildM α).run count =
      build >>= fun item => Pure.pure (item, count) from rfl, bind_assoc]
    rfl
  rw [run]
  exact Agrees.make frame makes enough fun item => others item count

/-- A step that only adds to the arena, as the last one. -/
theorem last {build : ArenaM α} {tree : β} {made : α → Assertion}
    (makes : Makes before build made) (enough : first.Entails before)
    (entails : ∀ item, (made item).Entails (after item tree)) :
    Mirrors first (liftM build) (Pure.pure tree) after := by
  rw [← bind_pure (liftM build : BuildM α)]
  refine make 0 makes (enough.trans (.of_eq (add_zero before).symm)) fun item => pure ?_
  rw [add_zero]
  exact entails item

/-- Steps one after the other mirror each other if each of them does. -/
theorem runEach {steps : List (BuildM α)} {lowers : List (LowerM β)}
    (mirrors : List.Forall₂ (fun step lower => Mirrors 0 step lower after) steps lowers) :
    Mirrors 0 (Lowering.runEach steps) (Lowering.runEach lowers) (each after) := by
  induction mirrors with
  | nil => exact pure (.refl 0)
  | cons here _ there =>
    refine here.seq fun made tree => ?_
    refine there.seq fun others trees => pure (.of_eq ?_)
    rw [add_zero, add_comm]
    rfl

end Mirrors

end Building

end ObjectLowering
