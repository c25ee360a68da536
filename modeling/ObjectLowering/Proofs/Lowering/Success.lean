/-
**What a successful run says about its parts.**

Computing the facts of a program stops at the first error, and so does lowering, which also counts
temporaries. Where the whole came to a result, every part of it did.

* `ok_of_bind`, `run_of_bind`: both halves of a sequence succeeded.
* `ok_of_mapM`, `run_of_mapM`: so did the step of every item of a list.
* `exists_mapM_iff`: a list comes to a result exactly if every item does; `mapM_congr`: steps that
  agree on the items agree on the list.
* `error_of_bind`, `error_of_mapM`: where the whole failed, a part did; `mapM_eq_error_iff`: a list
  fails as the first of its items that does.
* `exists_of_mem_right`: each result belongs to an item; `getElem?_of_forall₂`: it stands at the
  position of the item.
-/

import Mathlib.Data.List.Forall2

namespace ObjectLowering

variable {ε σ α β : Type}

theorem ok_of_bind {step : Except ε α} {next : α → Except ε β} {result : β}
    (done : step >>= next = .ok result) :
    ∃ value, step = .ok value ∧ next value = .ok result := by
  cases step with
  | error _ => cases done
  | ok value => exact ⟨value, rfl, done⟩

theorem exists_of_isOk {step : Except ε α} (succeeds : step.isOk = true) :
    ∃ value, step = .ok value := by
  cases step with
  | error _ => cases succeeds
  | ok value => exact ⟨value, rfl⟩

/-- A result that passes a test is there. -/
theorem exists_of_any_toOption {step : Except ε α} {test : α → Bool}
    (passes : step.toOption.any test = true) : ∃ value, step = .ok value ∧ test value = true := by
  cases step with
  | error _ => cases passes
  | ok value => exact ⟨value, rfl, passes⟩

theorem ok_of_map {step : Except ε α} {change : α → β} {result : β}
    (done : change <$> step = .ok result) : ∃ value, step = .ok value ∧ change value = result := by
  cases step with
  | error _ => cases done
  | ok value => exact ⟨value, rfl, Except.ok.inj done⟩

/-- Changing results makes none fail and none succeed. -/
theorem exists_map_iff {step : Except ε α} {change : α → β} :
    (∃ result, change <$> step = .ok result) ↔ ∃ value, step = .ok value := by
  refine ⟨fun ⟨_, done⟩ => ?_, fun ⟨value, done⟩ => ⟨change value, by rw [done]; rfl⟩⟩
  obtain ⟨value, done, _⟩ := ok_of_map done
  exact ⟨value, done⟩

/-- Naming failures in another way changes no result. -/
theorem mapError_eq_ok {ε' : Type} {rename : ε → ε'} {step : Except ε α} {value : α} :
    step.mapError rename = .ok value ↔ step = .ok value := by
  cases step with
  | error _ => exact ⟨fun done => (nomatch done), fun done => (nomatch done)⟩
  | ok found => exact ⟨fun done => congrArg _ (Except.ok.inj done),
      fun done => congrArg _ (Except.ok.inj done)⟩

/-- Every item of a list came to a result of its own. -/
theorem ok_of_mapM {step : α → Except ε β} {items : List α} {results : List β}
    (done : items.mapM step = .ok results) :
    List.Forall₂ (fun item result => step item = .ok result) items results := by
  induction items generalizing results with
  | nil =>
    rw [List.mapM_nil] at done
    cases done
    exact .nil
  | cons item rest induct =>
    rw [List.mapM_cons] at done
    obtain ⟨first, here, done⟩ := ok_of_bind done
    obtain ⟨others, there, done⟩ := ok_of_bind done
    cases done
    exact .cons here (induct there)

/-- One half of a sequence of steps failed. -/
theorem error_of_bind {step : Except ε α} {next : α → Except ε β} {failure : ε}
    (failed : step >>= next = .error failure) :
    step = .error failure ∨ ∃ value, step = .ok value ∧ next value = .error failure := by
  cases step with
  | error _ => exact .inl (congrArg _ (Except.error.inj failed))
  | ok value => exact .inr ⟨value, rfl, failed⟩

theorem error_of_map {step : Except ε α} {change : α → β} {failure : ε}
    (failed : change <$> step = .error failure) : step = .error failure := by
  cases step with
  | error _ => exact congrArg _ (Except.error.inj failed)
  | ok value => cases failed

theorem map_eq_error_iff {step : Except ε α} {change : α → β} {failure : ε} :
    change <$> step = .error failure ↔ step = .error failure :=
  ⟨error_of_map, fun failed => by rw [failed]; rfl⟩

/-- Where every item comes to a result, so does the list. -/
theorem exists_mapM {step : α → Except ε β} {items : List α}
    (each : ∀ item ∈ items, ∃ result, step item = .ok result) :
    ∃ results, items.mapM step = .ok results := by
  induction items with
  | nil => exact ⟨[], List.mapM_nil⟩
  | cons item rest induct =>
    obtain ⟨first, here⟩ := each item List.mem_cons_self
    obtain ⟨others, there⟩ := induct fun item member => each item (List.mem_cons_of_mem _ member)
    rw [List.mapM_cons, here, there]
    exact ⟨first :: others, rfl⟩

/-- A list comes to a result exactly if every item does. -/
theorem exists_mapM_iff {step : α → Except ε β} {items : List α} :
    (∃ results, items.mapM step = .ok results) ↔
      ∀ item ∈ items, ∃ result, step item = .ok result := by
  constructor
  · rintro ⟨results, done⟩
    have each := ok_of_mapM done
    clear done
    induction each with
    | nil => exact fun _ member => (nomatch member)
    | cons here _ step => exact List.forall_mem_cons.mpr ⟨⟨_, here⟩, step⟩
  · exact exists_mapM

/-- A list fails as the first of its items that does. -/
theorem mapM_eq_error_iff {step : α → Except ε β} {items : List α} {failure : ε} :
    items.mapM step = .error failure ↔ ∃ before item behind, items = before ++ item :: behind ∧
      step item = .error failure ∧ ∀ earlier ∈ before, ∃ result, step earlier = .ok result := by
  constructor
  · intro failed
    induction items with
    | nil =>
      rw [List.mapM_nil] at failed
      cases failed
    | cons item rest induct =>
      rw [List.mapM_cons] at failed
      rcases error_of_bind failed with here | ⟨first, done, failed⟩
      · exact ⟨[], item, rest, rfl, here, fun _ member => (nomatch member)⟩
      · rcases error_of_bind failed with there | ⟨others, _, failed⟩
        · obtain ⟨before, other, behind, rfl, here, earlier⟩ := induct there
          exact ⟨item :: before, other, behind, rfl, here,
            List.forall_mem_cons.mpr ⟨⟨first, done⟩, earlier⟩⟩
        · cases failed
  · rintro ⟨before, item, behind, rfl, here, earlier⟩
    obtain ⟨results, done⟩ := exists_mapM earlier
    rw [List.mapM_append, done, List.mapM_cons, here]
    rfl

/-- Where a list came to no result, one of its items failed. -/
theorem error_of_mapM {step : α → Except ε β} {items : List α} {failure : ε}
    (failed : items.mapM step = .error failure) : ∃ item ∈ items, step item = .error failure := by
  obtain ⟨before, item, behind, rfl, here, _⟩ := mapM_eq_error_iff.mp failed
  exact ⟨item, List.mem_append_right _ List.mem_cons_self, here⟩

/-- Steps that agree on the items of a list agree on the list. -/
theorem mapM_congr {step other : α → Except ε β} {items : List α}
    (same : ∀ item ∈ items, step item = other item) : items.mapM step = items.mapM other := by
  induction items with
  | nil => rfl
  | cons item rest induct =>
    rw [List.forall_mem_cons] at same
    rw [List.mapM_cons, List.mapM_cons, same.1, induct same.2]

/-- Each result of a list belongs to an item. -/
theorem exists_of_mem_right {related : α → β → Prop} {items : List α} {results : List β}
    (each : List.Forall₂ related items results) {value : β} (member : value ∈ results) :
    ∃ item ∈ items, related item value := by
  induction each with
  | nil => cases member
  | cons here _ step =>
    rcases List.mem_cons.mp member with rfl | behind
    · exact ⟨_, List.mem_cons_self, here⟩
    · obtain ⟨item, inside, known⟩ := step behind
      exact ⟨item, List.mem_cons_of_mem _ inside, known⟩

/-- What is related to an item stands at its position. -/
theorem getElem?_of_forall₂ {related : α → β → Prop} {items : List α} {others : List β}
    (each : List.Forall₂ related items others) {position : Nat} {item : α}
    (here : items[position]? = some item) :
    ∃ other, others[position]? = some other ∧ related item other := by
  induction each generalizing position with
  | nil => cases here
  | @cons first other _ _ paired _ step =>
    cases position with
    | zero =>
      cases here
      exact ⟨other, rfl, paired⟩
    | succ position => exact step here

/-- What every result of a list has from its item. -/
theorem forall_of_forall₂ {related : α → β → Prop} {property : β → Prop} {items : List α}
    {results : List β} (each : List.Forall₂ related items results)
    (known : ∀ item value, related item value → property value) :
    ∀ value ∈ results, property value := by
  intro value member
  obtain ⟨item, _, here⟩ := exists_of_mem_right each member
  exact known item value here

/-- Both halves of a sequence of steps succeeded, the second from where the first stopped. -/
theorem run_of_bind {step : StateT σ (Except ε) α} {next : α → StateT σ (Except ε) β}
    {start stop : σ} {result : β} (done : (step >>= next).run start = .ok (result, stop)) :
    ∃ value middle, step.run start = .ok (value, middle) ∧
      (next value).run middle = .ok (result, stop) := by
  rw [StateT.run_bind] at done
  obtain ⟨⟨value, middle⟩, first, second⟩ := ok_of_bind done
  exact ⟨value, middle, first, second⟩

/-- Every item of a list came to a result of its own, from some state. -/
theorem run_of_mapM {step : α → StateT σ (Except ε) β} {items : List α} {results : List β}
    {start stop : σ} (done : (items.mapM step).run start = .ok (results, stop)) :
    List.Forall₂ (fun item result => ∃ before after, (step item).run before = .ok (result, after))
      items results := by
  induction items generalizing results start with
  | nil =>
    rw [List.mapM_nil] at done
    cases done
    exact .nil
  | cons item rest induct =>
    rw [List.mapM_cons] at done
    obtain ⟨first, middle, here, done⟩ := run_of_bind done
    obtain ⟨others, last, there, done⟩ := run_of_bind done
    cases done
    exact .cons ⟨start, middle, here⟩ (induct there)

end ObjectLowering
