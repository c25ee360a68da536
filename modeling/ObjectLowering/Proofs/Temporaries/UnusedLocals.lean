/-
**Locals that an expression does not mention make no difference to it.**

More locals may stand anywhere around those that an evaluation declares itself. If the expression
does not mention them, it has the same value, and what was inserted stands behind it where it stood
in front of it. Nor does it matter if loops may take more rounds. Of what the evaluation is given
for other forms this has to be known.

* `Memory.insert` puts locals in scope inside a number of others; `Memory.lookup_insert`,
  `Memory.assign_insert`, … say that reads and writes of other names see nothing of them.
* `Lowered.Repeats`, `Lowered.Admits`: a step that does with inserted locals what another one does
  without them. `Lowered.Frames` is what has to be known of other forms.
* **`Expr.repeats_eval`**: an evaluation ignores the locals that the expression does not mention.
-/

import ObjectLowering.Proofs.Arrays.Execution

namespace ObjectLowering

/-! ### Locals inside others -/

namespace Memory

variable {ω : Type} {memory after : Memory ω} {added : List (Name × Value)} {depth : Nat}
  {name : Name} {value : Value}

/-- The memory with more locals in scope, right inside so many outermost ones. -/
def insert (memory : Memory ω) (added : List (Name × Value)) (depth : Nat) : Memory ω :=
  { memory with
    locals := memory.locals.take (memory.locals.length - depth) ++
      (added ++ memory.locals.drop (memory.locals.length - depth)) }

theorem insert_append (front back : List (Name × Value)) (arrays : List Cells) (world : ω) :
    (⟨front ++ back, arrays, world⟩ : Memory ω).insert added back.length =
      ⟨front ++ (added ++ back), arrays, world⟩ := by
  unfold insert
  rw [List.length_append, Nat.add_sub_cancel, List.take_left, List.drop_left]

/-- Locals inside all others stand in front of them. -/
theorem insert_length (memory : Memory ω) :
    memory.insert added memory.locals.length = memory.extend added [] := by
  obtain ⟨locals, arrays, world⟩ := memory
  unfold extend
  rw [List.append_nil]
  exact insert_append [] locals arrays world

theorem length_insert (within : depth ≤ memory.locals.length) :
    (memory.insert added depth).locals.length = memory.locals.length + added.length := by
  unfold insert
  rw [List.length_append, List.length_append, List.length_take, List.length_drop]
  omega

/-- The outermost locals stand behind the others. -/
theorem exists_append_eq {locals : List (Name × Value)} (within : depth ≤ locals.length) :
    ∃ front back, locals = front ++ back ∧ back.length = depth := by
  refine ⟨_, _, (List.take_append_drop (locals.length - depth) _).symm, ?_⟩
  rw [List.length_drop]
  omega

theorem lookup_insert (other : ∀ entry ∈ added, name ≠ entry.1) :
    (memory.insert added depth).lookup name = memory.lookup name := by
  have absent : added.lookup name = none :=
    List.lookup_eq_none_iff.mpr fun entry member => bne_iff_ne.mpr (other entry member)
  unfold lookup insert
  dsimp only
  rw [List.lookup_append, List.lookup_append, absent, Option.none_or, ← List.lookup_append,
    List.take_append_drop]

theorem overwrite_append (front back : List (Name × Value)) :
    overwrite name value (front ++ back) = ((overwrite name value front).map (· ++ back)).or
      ((overwrite name value back).map (front ++ ·)) := by
  induction front with
  | nil => exact Option.map_id'.symm
  | cons entry rest step =>
    rw [List.cons_append, overwrite, overwrite, step]
    split
    · rfl
    · cases overwrite name value rest <;> cases overwrite name value back <;> rfl

theorem overwrite_eq_none {locals : List (Name × Value)}
    (other : ∀ entry ∈ locals, name ≠ entry.1) : overwrite name value locals = none := by
  induction locals with
  | nil => rfl
  | cons entry rest step =>
    rw [List.forall_mem_cons] at other
    rw [overwrite, if_neg (fun same => other.1 (eq_of_beq same).symm), step other.2]
    rfl

theorem length_overwrite {locals changed : List (Name × Value)}
    (done : overwrite name value locals = some changed) : changed.length = locals.length := by
  induction locals generalizing changed with
  | nil => cases done
  | cons entry rest step =>
    rw [overwrite] at done
    split at done
    · cases done
      rfl
    · obtain ⟨others, here, rfl⟩ := Option.map_eq_some_iff.mp done
      exact congrArg Nat.succ (step here)

/-- Writing another local leaves the inserted ones where they are. -/
theorem assign_insert (within : depth ≤ memory.locals.length)
    (other : ∀ entry ∈ added, name ≠ entry.1) (done : memory.assign name value = some after) :
    after.locals.length = memory.locals.length ∧
      (memory.insert added depth).assign name value = some (after.insert added depth) := by
  obtain ⟨locals, arrays, world⟩ := memory
  obtain ⟨front, back, rfl, rfl⟩ := exists_append_eq within
  obtain ⟨changed, here, rfl⟩ := Option.map_eq_some_iff.mp done
  refine ⟨length_overwrite here, ?_⟩
  rw [insert_append, assign]
  dsimp only at here ⊢
  rw [overwrite_append] at here
  rw [overwrite_append, overwrite_append, overwrite_eq_none other]
  cases inFront : overwrite name value front with
  | some changedFront =>
    rw [inFront] at here
    cases here
    exact congrArg some (insert_append changedFront back arrays world).symm
  | none =>
    rw [inFront] at here
    obtain ⟨changedBack, inBack, rfl⟩ := Option.map_eq_some_iff.mp here
    rw [inBack]
    refine congrArg some ?_
    rw [← length_overwrite inBack, insert_append]

theorem declare_insert (within : depth ≤ memory.locals.length) :
    (memory.insert added depth).declare name value =
      (memory.declare name value).insert added depth := by
  unfold declare insert
  rw [List.length_cons, Nat.succ_sub within]
  rfl

/-- Leaving a scope around which the inserted locals stand. -/
theorem leave_insert {around : Nat} (within : depth ≤ around)
    (inside : around ≤ memory.locals.length) :
    (memory.insert added depth).leave (around + added.length) =
      (memory.leave around).insert added depth := by
  obtain ⟨locals, arrays, world⟩ := memory
  obtain ⟨front, inner, rfl, rfl⟩ := exists_append_eq inside
  obtain ⟨middle, back, rfl, rfl⟩ := exists_append_eq within
  have counted : (middle ++ back).length + added.length = (middle ++ (added ++ back)).length := by
    simp only [List.length_append]
    omega
  rw [leave_append, insert_append, ← List.append_assoc, insert_append, counted, List.append_assoc,
    leave_append]

/-- An inserted memory makes the same new array, at the same address. -/
theorem allocate_insert {element : Ty} {length : Value}
    (done : memory.allocate element length = some (value, after)) :
    after.locals.length = memory.locals.length ∧
      (memory.insert added depth).allocate element length =
        some (value, after.insert added depth) := by
  unfold allocate at done ⊢
  split at done
  · split at done
    · cases done
    · rename_i known
      cases done
      exact ⟨rfl, if_neg known⟩
  · cases done

theorem store_insert {array position : Value}
    (done : memory.store array position value = some after) :
    after.locals.length = memory.locals.length ∧
      (memory.insert added depth).store array position value =
        some (after.insert added depth) := by
  unfold store at done ⊢
  split at done
  · rename_i address position
    obtain ⟨cells, found, done⟩ := Option.bind_eq_some_iff.mp done
    obtain ⟨changed, put, done⟩ := Option.bind_eq_some_iff.mp done
    cases done
    have known : (memory.insert added depth).arrays[address]? = some cells := found
    refine ⟨rfl, ?_⟩
    rw [known, Option.bind_eq_bind, Option.bind_some, put]
    rfl
  · cases done

end Memory

namespace Lowered

variable {ω : Type} {others : Expr → Memory ω → Option (Value × Memory ω)} {limit more : Nat}
  {added : List (Name × Value)} {depth : Nat}

/-! ### Steps that see nothing of the inserted locals -/

/-- None of the locals is read or written. -/
def Unmentioned (added : List (Name × Value)) (uses : List Use) : Prop :=
  ∀ use ∈ uses, ∀ entry ∈ added, use.2 ≠ entry.1

theorem unmentioned_append {uses usesToo : List Use} :
    Unmentioned added (uses ++ usesToo) ↔ Unmentioned added uses ∧ Unmentioned added usesToo :=
  List.forall_mem_append

/-- What one step comes to, the other comes to where more locals are inserted. As many locals are
left in scope. -/
def Repeats (added : List (Name × Value)) (depth : Nat)
    (step again : Memory ω → Option (Value × Memory ω)) : Prop :=
  ∀ memory value after, depth ≤ memory.locals.length → step memory = some (value, after) →
    after.locals.length = memory.locals.length ∧
      again (memory.insert added depth) = some (value, after.insert added depth)

/-- Inserted locals make no difference to the step. -/
abbrev Ignores (added : List (Name × Value)) (depth : Nat)
    (step : Memory ω → Option (Value × Memory ω)) : Prop := Repeats added depth step step

/-- What one step comes to, the other comes to where more locals are inserted. Locals may be brought
into scope. -/
def Admits (added : List (Name × Value)) (depth : Nat)
    (step again : Memory ω → Option (Memory ω)) : Prop :=
  ∀ memory after, depth ≤ memory.locals.length → step memory = some after →
    memory.locals.length ≤ after.locals.length ∧
      again (memory.insert added depth) = some (after.insert added depth)

/-- What the evaluation is given for other forms ignores the locals that the form does not mention.
What is mentioned is the same in every scope. -/
def Frames (others : Expr → Memory ω → Option (Value × Memory ω)) : Prop :=
  ∀ (added : List (Name × Value)) (depth : Nat) (scope : List Name) (expr : Expr),
    Unmentioned added (expr.uses scope) → Ignores added depth (others expr)

variable {step again : Memory ω → Option (Value × Memory ω)}
  {first second firstAgain secondAgain : Memory ω → Option (Memory ω)}

theorem Repeats.pure (value : Value) :
    Ignores added depth fun memory : Memory ω => some (value, memory) := by
  intro memory _ _ _ done
  cases done
  exact ⟨rfl, rfl⟩

/-- A step behind another one, with its value. -/
theorem Repeats.bind {next nextAgain : Value → Memory ω → Option (Value × Memory ω)}
    (here : Repeats added depth step again)
    (there : ∀ value, Repeats added depth (next value) (nextAgain value)) :
    Repeats added depth (fun memory => (step memory).bind fun result => next result.1 result.2)
      fun memory => (again memory).bind fun result => nextAgain result.1 result.2 := by
  intro memory value after within done
  obtain ⟨⟨middle, between⟩, first, second⟩ := Option.bind_eq_some_iff.mp done
  obtain ⟨as, same⟩ := here memory middle between within first
  obtain ⟨asToo, sameToo⟩ := there middle between value after (as ▸ within) second
  refine ⟨asToo.trans as, ?_⟩
  dsimp only
  rw [same, Option.bind_some]
  exact sameToo

theorem Repeats.effect (repeats : Repeats added depth step again) :
    Admits added depth (fun memory => (step memory).map (·.2))
      fun memory => (again memory).map (·.2) := by
  intro memory after within done
  obtain ⟨⟨value, _⟩, evaluated, rfl⟩ := Option.map_eq_some_iff.mp done
  obtain ⟨as, same⟩ := repeats memory value _ within evaluated
  refine ⟨Nat.le_of_eq as.symm, ?_⟩
  dsimp only
  rw [same]
  rfl

theorem Repeats.declare (repeats : Repeats added depth step again) (name : Name) :
    Admits added depth (fun memory => (step memory).map fun result =>
      result.2.declare name result.1) fun memory => (again memory).map fun result =>
        result.2.declare name result.1 := by
  intro memory after within done
  obtain ⟨⟨value, between⟩, evaluated, rfl⟩ := Option.map_eq_some_iff.mp done
  obtain ⟨as, same⟩ := repeats memory value between within evaluated
  refine ⟨Nat.le_succ_of_le (Nat.le_of_eq as.symm), ?_⟩
  dsimp only
  rw [same]
  exact congrArg some (Memory.declare_insert (as ▸ within))

theorem Admits.skip :
    Admits added depth (fun memory : Memory ω => some memory) fun memory => some memory := by
  intro memory _ _ done
  cases done
  exact ⟨Nat.le_refl _, rfl⟩

theorem Admits.bind (here : Admits added depth first firstAgain)
    (there : Admits added depth second secondAgain) :
    Admits added depth (fun memory => (first memory).bind second)
      fun memory => (firstAgain memory).bind secondAgain := by
  intro memory after within done
  obtain ⟨between, one, two⟩ := Option.bind_eq_some_iff.mp done
  obtain ⟨more, same⟩ := here memory between within one
  obtain ⟨further, sameToo⟩ := there between after (Nat.le_trans within more) two
  refine ⟨Nat.le_trans more further, ?_⟩
  dsimp only
  rw [same, Option.bind_some]
  exact sameToo

/-- Behind a scope there are as many locals as in front of it. -/
theorem length_leave {memory after : Memory ω}
    (more : memory.locals.length ≤ after.locals.length) :
    (after.leave memory.locals.length).locals.length = memory.locals.length := by
  unfold Memory.leave
  rw [List.length_drop]
  omega

/-- A scope around which locals are inserted. -/
theorem Admits.leave (admits : Admits added depth first firstAgain) :
    Admits added depth (fun memory => (first memory).map (·.leave memory.locals.length))
      fun memory => (firstAgain memory).map (·.leave memory.locals.length) := by
  intro memory after within done
  obtain ⟨between, runs, rfl⟩ := Option.map_eq_some_iff.mp done
  obtain ⟨more, same⟩ := admits memory between within runs
  refine ⟨Nat.le_of_eq (length_leave more).symm, ?_⟩
  dsimp only
  rw [same, Memory.length_insert within]
  exact congrArg some (Memory.leave_insert within more)

/-- A scope that a value comes from. -/
theorem Repeats.leave (admits : Admits added depth first firstAgain)
    (repeats : Repeats added depth step again) :
    Repeats added depth (fun memory => (first memory).bind fun inside =>
        (step inside).bind fun result => some (result.1, result.2.leave memory.locals.length))
      fun memory => (firstAgain memory).bind fun inside =>
        (again inside).bind fun result => some (result.1, result.2.leave memory.locals.length) := by
  intro memory value after within done
  obtain ⟨inside, runs, done⟩ := Option.bind_eq_some_iff.mp done
  obtain ⟨⟨_, last⟩, ends, done⟩ := Option.bind_eq_some_iff.mp done
  cases done
  obtain ⟨more, ran⟩ := admits memory inside within runs
  obtain ⟨as, ended⟩ := repeats inside _ last (Nat.le_trans within more) ends
  have inLast : memory.locals.length ≤ last.locals.length := as ▸ more
  refine ⟨length_leave inLast, ?_⟩
  dsimp only
  rw [ran, Option.bind_some, ended, Memory.length_insert within]
  exact congrArg (fun left => some (_, left)) (Memory.leave_insert within inLast)

/-- A loop comes to the same if its condition and its rounds do, and if it may take as many of
them. -/
theorem Admits.rounds (asks : Repeats added depth step again)
    (goes : Admits added depth first firstAgain) {limit more : Nat} (enough : limit ≤ more) :
    Admits added depth (Memory.rounds step first limit) (Memory.rounds again firstAgain more) := by
  induction limit generalizing more with
  | zero => exact fun _ _ _ done => nomatch done
  | succ limit induct =>
    obtain ⟨more, rfl⟩ := Nat.exists_eq_succ_of_ne_zero (Nat.ne_zero_of_lt enough)
    intro memory after within done
    rw [Memory.rounds] at done
    split at done
    · rename_i between asked
      obtain ⟨as, same⟩ := asks memory _ between within asked
      obtain ⟨grown, sameToo⟩ := goes.bind (induct (Nat.le_of_succ_le_succ enough)) between after
        (as ▸ within) done
      refine ⟨as ▸ grown, ?_⟩
      rw [Memory.rounds, same]
      exact sameToo
    · rename_i between asked
      cases done
      obtain ⟨as, same⟩ := asks memory _ after within asked
      refine ⟨Nat.le_of_eq as.symm, ?_⟩
      rw [Memory.rounds, same]
    · cases done

/-! ### Expressions and statements -/

theorem Repeats.assign {name : Name} (other : ∀ entry ∈ added, name ≠ entry.1) (value : Value) :
    Ignores added depth fun memory : Memory ω =>
      (memory.assign name value).bind fun memory => some (value, memory) := by
  intro memory _ _ within done
  obtain ⟨_, assigned, done⟩ := Option.bind_eq_some_iff.mp done
  cases done
  obtain ⟨as, same⟩ := Memory.assign_insert within other assigned
  refine ⟨as, ?_⟩
  dsimp only
  rw [same]
  rfl

theorem Repeats.store (array position value : Value) :
    Ignores added depth fun memory : Memory ω =>
      (memory.store array position value).bind fun memory => some (value, memory) := by
  intro memory _ _ _ done
  obtain ⟨_, stored, done⟩ := Option.bind_eq_some_iff.mp done
  cases done
  obtain ⟨as, same⟩ := Memory.store_insert stored
  refine ⟨as, ?_⟩
  dsimp only
  rw [same]
  rfl

theorem Repeats.increment {name : Name} (other : ∀ entry ∈ added, name ≠ entry.1) :
    Ignores added depth fun memory : Memory ω => memory.increment name := by
  intro memory value after within done
  beta_reduce at done ⊢
  unfold Memory.increment at done ⊢
  rw [Memory.lookup_insert other]
  split at done
  · obtain ⟨_, assigned, same⟩ := Option.map_eq_some_iff.mp done
    cases same
    obtain ⟨as, same⟩ := Memory.assign_insert within other assigned
    exact ⟨as, congrArg (Option.map _) same⟩
  · cases done

theorem Repeats.less (left right : Value) :
    Ignores added depth fun memory : Memory ω => memory.less left right := by
  intro memory value after _ done
  unfold Memory.less at done ⊢
  split at done <;> cases done
  exact ⟨rfl, rfl⟩

theorem Repeats.allocate (element : Ty) (length : Value) :
    Ignores added depth fun memory : Memory ω => memory.allocate element length :=
  fun _ _ _ _ done => Memory.allocate_insert done

theorem Repeats.checkLength (length : Value) :
    Ignores added depth fun memory : Memory ω => memory.checkLength length := by
  intro memory value after _ done
  unfold Memory.checkLength at done ⊢
  split at done
  · split at done
    · cases done
    · rename_i known
      cases done
      exact ⟨rfl, if_neg known⟩
  · cases done

mutual

/-- **An evaluation ignores the locals that the expression does not mention**, and more rounds that
loops may take. -/
theorem Expr.repeats_eval (frames : Frames others) (enough : limit ≤ more) :
    ∀ (expr : Expr) {scope : List Name}, Unmentioned added (expr.uses scope) →
      Repeats added depth (expr.eval others limit) (expr.eval others more)
  | .int _ value, _, _ => .pure (.int value)
  | .float _ bits, _, _ => .pure (.float bits)
  | .bool _ value, _, _ => .pure (.bool value)
  | .char _ value, _, _ => .pure (.char value)
  | .null _, _, _ => .pure .null
  | .localVar _ name, _, unmentioned => by
    intro memory value after _ done
    obtain ⟨_, found, same⟩ := Option.map_eq_some_iff.mp done
    cases same
    refine ⟨rfl, Expr.eval_localVar ?_⟩
    rw [Memory.lookup_insert (unmentioned _ List.mem_cons_self)]
    exact found
  | .assign span target value, _, unmentioned => by
    have parts := unmentioned_append.mp unmentioned
    cases target with
    | localVar _ name =>
      exact (value.repeats_eval frames enough parts.2).bind (.assign (parts.1 _ List.mem_cons_self))
    | index _ array position =>
      obtain ⟨first, second⟩ := unmentioned_append.mp parts.1
      exact (array.repeats_eval frames enough first).bind fun array =>
        (position.repeats_eval frames enough second).bind fun position =>
          (value.repeats_eval frames enough parts.2).bind (.store array position)
    | _ => exact frames _ _ _ _ unmentioned
  | .binary span op left right, _, unmentioned => by
    have parts := unmentioned_append.mp unmentioned
    cases op with
    | less =>
      exact (left.repeats_eval frames enough parts.1).bind fun low =>
        (right.repeats_eval frames enough parts.2).bind (.less low)
    | _ => exact frames _ _ _ _ unmentioned
  | .unary span op operand, _, unmentioned => by
    cases op with
    | postIncrement =>
      cases operand with
      | localVar _ name => exact .increment (unmentioned _ List.mem_cons_self)
      | _ => exact frames _ _ _ _ unmentioned
    | _ => exact frames _ _ _ _ unmentioned
  | .check span kind args, _, unmentioned => by
    cases kind with
    | negativeLength =>
      cases args with
      | nil => exact frames _ _ _ _ unmentioned
      | cons size more =>
        cases more with
        | nil =>
          have first := (unmentioned_append.mp unmentioned).1
          exact (size.repeats_eval frames enough first).bind .checkLength
        | cons _ _ => exact frames _ _ _ _ unmentioned
    | _ => exact frames _ _ _ _ unmentioned
  | .arrayAlloc _ element size, _, unmentioned =>
    (size.repeats_eval frames enough unmentioned).bind (.allocate element)
  | .block _ body result, _, unmentioned => by
    have parts := unmentioned_append.mp unmentioned
    exact .leave (Stmt.admits_execAll frames enough body parts.1)
      (result.repeats_eval frames enough parts.2)
  | .absent, _, unmentioned | .dangling, _, unmentioned => frames _ _ _ _ unmentioned
  | .str .., _, unmentioned | .field .., _, unmentioned => frames _ _ _ _ unmentioned
  | .staticField .., _, unmentioned | .length .., _, unmentioned => frames _ _ _ _ unmentioned
  | .index .., _, unmentioned | .cast .., _, unmentioned => frames _ _ _ _ unmentioned
  | .instanceOf .., _, unmentioned | .alloc .., _, unmentioned => frames _ _ _ _ unmentioned
  | .initCall .., _, unmentioned | .virtualCall .., _, unmentioned => frames _ _ _ _ unmentioned
  | .qualifiedCall .., _, unmentioned | .directCall .., _, unmentioned =>
    frames _ _ _ _ unmentioned
  | .unresolvedCall .., _, unmentioned | .identity .., _, unmentioned => frames _ _ _ _ unmentioned
  | .print .., _, unmentioned => frames _ _ _ _ unmentioned

theorem Expr.admits_evalAll (frames : Frames others) (enough : limit ≤ more) :
    ∀ (exprs : List Expr) {scope : List Name}, Unmentioned added (Expr.usesOfList scope exprs) →
      Admits added depth (Expr.evalAll others limit exprs) (Expr.evalAll others more exprs)
  | [], _, _ => .skip
  | expr :: rest, _, unmentioned => by
    have parts := unmentioned_append.mp unmentioned
    exact (expr.repeats_eval frames enough parts.1).effect.bind
      (Expr.admits_evalAll frames enough rest parts.2)

/-- A statement may bring locals into scope. -/
theorem Stmt.admits_exec (frames : Frames others) (enough : limit ≤ more) :
    ∀ (stmt : Stmt) {scope : List Name}, Unmentioned added (stmt.uses scope) →
      Admits added depth (stmt.exec others limit) (stmt.exec others more)
  | .eval expr, _, unmentioned => (expr.repeats_eval frames enough unmentioned).effect
  | .localVar _ name init, _, unmentioned =>
    (init.repeats_eval frames enough unmentioned).declare name
  | .block body, _, unmentioned => (Stmt.admits_execAll frames enough body unmentioned).leave
  | .forLoop init cond update body, _, unmentioned => by
    obtain ⟨inits, rest⟩ := unmentioned_append.mp unmentioned
    obtain ⟨asked, rest⟩ := unmentioned_append.mp rest
    obtain ⟨updates, rounds⟩ := unmentioned_append.mp rest
    have round := (body.admits_exec frames enough rounds).bind
      (Expr.admits_evalAll frames enough update updates)
    exact ((Stmt.admits_execAll frames enough init inits).bind
      (.rounds (cond.repeats_eval frames enough asked) round enough)).leave
  | .absent, _, _ | .dangling, _, _ => fun _ _ _ done => nomatch done
  | .branch .., _, _ | .whileLoop .., _, _ => fun _ _ _ done => nomatch done
  | .ret _, _, _ => fun _ _ _ done => nomatch done

theorem Stmt.admits_execAll (frames : Frames others) (enough : limit ≤ more) :
    ∀ (stmts : List Stmt) {scope : List Name}, Unmentioned added (Stmt.usesOfList scope stmts) →
      Admits added depth (Stmt.execAll others limit stmts) (Stmt.execAll others more stmts)
  | [], _, _ => .skip
  | stmt :: rest, _, unmentioned => by
    have parts := unmentioned_append.mp unmentioned
    exact (stmt.admits_exec frames enough parts.1).bind
      (Stmt.admits_execAll frames enough rest parts.2)

end

end Lowered

end ObjectLowering
