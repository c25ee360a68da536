/-
**Inherited lists.**

A class takes over a list from its parent. What the class declares itself replaces the first
inherited entry that it redefines, in place, and otherwise goes to the end. So positions are stable
down the hierarchy.

* `redefine` adds one declaration to an inherited list.
* `length_le_redefine`: nothing is lost.
* `redefine_eq_append`: a declaration that redefines nothing goes to the end.
* `forall_redefine`: what holds of all entries goes on to hold.
-/

namespace ObjectLowering

variable {α : Type}

/-- Replaces the first entry that a declaration redefines, or puts a new entry at the end. -/
def redefine (redefines : α → Bool) (replace : α → α) (fresh : α) : List α → List α
  | [] => [fresh]
  | entry :: rest =>
    if redefines entry then replace entry :: rest
    else entry :: redefine redefines replace fresh rest

theorem length_le_redefine (redefines : α → Bool) (replace : α → α) (fresh : α)
    (inherited : List α) :
    inherited.length ≤ (redefine redefines replace fresh inherited).length := by
  induction inherited with
  | nil => simp
  | cons entry rest step =>
    unfold redefine
    split <;> simp [step]

theorem redefine_eq_append (redefines : α → Bool) (replace : α → α) (fresh : α)
    {inherited : List α} (absent : ∀ entry ∈ inherited, redefines entry = false) :
    redefine redefines replace fresh inherited = inherited ++ [fresh] := by
  induction inherited with
  | nil => rfl
  | cons entry rest step =>
    simp only [List.mem_cons, forall_eq_or_imp] at absent
    simp [redefine, absent.1, step absent.2]

/-- What holds of the inherited entries and of the new one holds of the whole list, if replacing
keeps it. -/
theorem forall_redefine {redefines : α → Bool} {replace : α → α} {fresh : α} {inherited : List α}
    {property : α → Prop} (each : ∀ entry ∈ inherited, property entry)
    (kept : ∀ entry ∈ inherited, property entry → property (replace entry))
    (new : property fresh) :
    ∀ entry ∈ redefine redefines replace fresh inherited, property entry := by
  induction inherited with
  | nil =>
    intro entry member
    rw [List.mem_singleton.mp member]
    exact new
  | cons first rest step =>
    simp only [List.mem_cons, forall_eq_or_imp] at each kept
    unfold redefine
    split
    · simp only [List.mem_cons, forall_eq_or_imp]
      exact ⟨kept.1 each.1, each.2⟩
    · simp only [List.mem_cons, forall_eq_or_imp]
      exact ⟨each.1, step each.2 kept.2⟩

end ObjectLowering
