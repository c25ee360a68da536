/-
**Runs of requests to an arena.**

An arena only grows at the ends of its four stores, whatever it is asked and whether it refuses. So
a place that was given out shows the same thing ever after, and no number is given to two nodes. An
over-long list is the one request that is refused while numbers are left; it is refused after its
numbers were stored, where they take room and can never be read.

* `Arena.Begins`: everything of the first arena stands at the front of the second.
* `Arena.Outcome`: what a request can come to; `Arena.outcome_serve`: there is nothing else.
* `Arena.shows_run`, `Arena.between_run`, `Arena.pairwise_run`: what the answers of a run show.
* **`arenas_read_back`**: every sequence of requests, refused ones among them.
* **`refused_list_stays_iff`**: a refused list leaves no trace only where no number was left.
-/

import Mathlib.Data.List.Forall2
import ObjectLowering.ArenaRequest

namespace ObjectLowering

/-- The refusal of a list of a kind if it is longer than a window can say. -/
def tooLong? (kind : NodeKind) (ids : List NodeId) : Option ListTooLong :=
  if ids.length ≤ maxListLength then none else some ⟨kind, ids.length⟩

/-- The refusal of a request for an over-long list. -/
def ArenaRequest.tooLong? {ε σ : Type} (form : NodeForm) : ArenaRequest ε σ → Option ListTooLong
  | .expr _ | .stmt _ => none
  | .exprList ids => ObjectLowering.tooLong? form.exprKind ids
  | .stmtList ids => ObjectLowering.tooLong? form.stmtKind ids

/-- Whether a place is that of a node and not of a list. -/
def ArenaPlace.isNode : ArenaPlace → Bool
  | .expr _ | .stmt _ => true
  | .exprList _ | .stmtList _ => false

/-- Numbers and starts have 32 bits, lengths have 16. -/
def ArenaPlace.Fits : ArenaPlace → Prop
  | .expr id | .stmt id => id < numberCapacity
  | .exprList window | .stmtList window =>
    window.start < numberCapacity ∧ window.length ≤ maxListLength

namespace Arena

variable {ε σ : Type} {form : NodeForm} {arena middle later : Arena ε σ}
  {request : ArenaRequest ε σ} {place : ArenaPlace}

/-- An arena shows at a place what it was asked to store. -/
def Shows (arena : Arena ε σ) : ArenaRequest ε σ → ArenaPlace → Prop
  | .expr expr, .expr id => arena.expr? id = some expr
  | .stmt stmt, .stmt id => arena.stmt? id = some stmt
  | .exprList ids, .exprList window =>
    arena.exprList? window = some ids ∧ window.length = ids.length
  | .stmtList ids, .stmtList window =>
    arena.stmtList? window = some ids ∧ window.length = ids.length
  | _, _ => False

/-- Numbers of 32 bits are left for every store. -/
structure HasRoom (arena : Arena ε σ) : Prop where
  exprs : arena.exprs.size < numberCapacity
  stmts : arena.stmts.size < numberCapacity
  exprLists : arena.exprLists.size < numberCapacity
  stmtLists : arena.stmtLists.size < numberCapacity

/-! ### Arenas that grow at their ends -/

/-- Everything of an arena stands at the front of a later one. -/
structure Begins (arena later : Arena ε σ) : Prop where
  exprs : arena.exprs.toList <+: later.exprs.toList
  stmts : arena.stmts.toList <+: later.stmts.toList
  exprLists : arena.exprLists.toList <+: later.exprLists.toList
  stmtLists : arena.stmtLists.toList <+: later.stmtLists.toList

namespace Begins

theorem refl (arena : Arena ε σ) : arena.Begins arena :=
  ⟨List.prefix_rfl, List.prefix_rfl, List.prefix_rfl, List.prefix_rfl⟩

theorem trans (first : arena.Begins middle) (second : middle.Begins later) :
    arena.Begins later where
  exprs := first.exprs.trans second.exprs
  stmts := first.stmts.trans second.stmts
  exprLists := first.exprLists.trans second.exprLists
  stmtLists := first.stmtLists.trans second.stmtLists

end Begins

theorem begins_addExpr (arena : Arena ε σ) (expr : ε) : arena.Begins (arena.addExpr expr).2 :=
  { Begins.refl arena with exprs := Array.toList_push ▸ List.prefix_append _ _ }

theorem begins_addStmt (arena : Arena ε σ) (stmt : σ) : arena.Begins (arena.addStmt stmt).2 :=
  { Begins.refl arena with stmts := Array.toList_push ▸ List.prefix_append _ _ }

theorem begins_addList (kind : NodeKind) (arena : Arena ε σ) (ids : List NodeId) :
    arena.Begins (arena.addList kind ids).2 := by
  unfold addList
  split
  · rw [addExprList_parts]
    exact { Begins.refl arena with exprLists := Array.toList_append ▸ List.prefix_append _ _ }
  · rw [addStmtList_parts]
    exact { Begins.refl arena with stmtLists := Array.toList_append ▸ List.prefix_append _ _ }

/-- A longer store has the items of its front at the same positions. -/
theorem getElem?_of_front {α : Type} {front whole : Array α}
    (ahead : front.toList <+: whole.toList) {position : Nat} {item : α}
    (found : front[position]? = some item) : whole[position]? = some item := by
  rw [← Array.getElem?_toList] at found ⊢
  obtain ⟨inside, same⟩ := List.getElem?_eq_some_iff.mp found
  rw [List.prefix_iff_getElem?.mp ahead position inside, same]

/-- A longer store shows the same items in the windows of its front. -/
theorem read?_of_front {front whole : Array NodeId} (ahead : front.toList <+: whole.toList)
    {window : Window} {ids : List NodeId} (inside : window.read? front = some ids) :
    window.read? whole = some ids := by
  obtain ⟨more, parts⟩ := ahead
  have whole_eq : whole = front ++ more.toArray := by
    rw [← Array.toList_inj, Array.toList_append, parts]
  rw [whole_eq]
  exact read?_append_of_some inside _

/-- **What an arena shows, every later arena shows at the same place.** -/
theorem Shows.mono (shows : arena.Shows request place) (begins : arena.Begins later) :
    later.Shows request place := by
  unfold Shows at shows
  split at shows
  · exact getElem?_of_front begins.exprs shows
  · exact getElem?_of_front begins.stmts shows
  · exact ⟨read?_of_front begins.exprLists shows.1, shows.2⟩
  · exact ⟨read?_of_front begins.stmtLists shows.1, shows.2⟩
  · cases shows

theorem size_le_of_front {α : Type} {front whole : Array α}
    (ahead : front.toList <+: whole.toList) : front.size ≤ whole.size := ahead.length_le

theorem HasRoom.of_begins (room : later.HasRoom) (begins : arena.Begins later) :
    arena.HasRoom where
  exprs := Nat.lt_of_le_of_lt (size_le_of_front begins.exprs) room.exprs
  stmts := Nat.lt_of_le_of_lt (size_le_of_front begins.stmts) room.stmts
  exprLists := Nat.lt_of_le_of_lt (size_le_of_front begins.exprLists) room.exprLists
  stmtLists := Nat.lt_of_le_of_lt (size_le_of_front begins.stmtLists) room.stmtLists

/-- The number of a node that came to an arena later. -/
def Between (arena later : Arena ε σ) : ArenaPlace → Prop
  | .expr id => arena.exprs.size ≤ id ∧ id < later.exprs.size
  | .stmt id => arena.stmts.size ≤ id ∧ id < later.stmts.size
  | .exprList _ | .stmtList _ => True

namespace Between

theorem mono {first last : Arena ε σ} (between : Between arena middle place)
    (before : first.Begins arena) (after : middle.Begins last) : Between first last place := by
  cases place with
  | expr id => exact ⟨Nat.le_trans (size_le_of_front before.exprs) between.1,
      Nat.lt_of_lt_of_le between.2 (size_le_of_front after.exprs)⟩
  | stmt id => exact ⟨Nat.le_trans (size_le_of_front before.stmts) between.1,
      Nat.lt_of_lt_of_le between.2 (size_le_of_front after.stmts)⟩
  | exprList _ => trivial
  | stmtList _ => trivial

/-- A number that came earlier does not come again. -/
theorem apart (earlier : Between arena middle place) (isNode : place.isNode = true) :
    ¬ Between middle later place := by
  intro again
  cases place with
  | expr id => exact Nat.not_le_of_lt earlier.2 again.1
  | stmt id => exact Nat.not_le_of_lt earlier.2 again.1
  | exprList _ => cases isNode
  | stmtList _ => cases isNode

/-- What an arena shows at the number of a node did not come later. -/
theorem not_of_shows (shows : arena.Shows request place) (isNode : place.isNode = true) :
    ¬ Between arena later place := by
  intro between
  unfold Shows at shows
  split at shows
  · obtain ⟨inside, _⟩ := Array.getElem?_eq_some_iff.mp shows
    exact Nat.not_le_of_lt inside between.1
  · obtain ⟨inside, _⟩ := Array.getElem?_eq_some_iff.mp shows
    exact Nat.not_le_of_lt inside between.1
  · cases isNode
  · cases isNode
  · cases shows

end Between

/-! ### Lists of either kind -/

theorem count_exprKind (form : NodeForm) (arena : Arena ε σ) :
    arena.count form.exprKind = arena.exprs.size := by
  cases form <;> rfl

theorem count_stmtKind (form : NodeForm) (arena : Arena ε σ) :
    arena.count form.stmtKind = arena.stmts.size := by
  cases form <;> rfl

theorem list?_exprKind (form : NodeForm) (arena : Arena ε σ) :
    arena.list? form.exprKind = arena.exprList? := by
  cases form <;> rfl

theorem list?_stmtKind (form : NodeForm) (arena : Arena ε σ) :
    arena.list? form.stmtKind = arena.stmtList? := by
  cases form <;> rfl

theorem storedCount_lt (room : arena.HasRoom) (kind : NodeKind) :
    arena.storedCount kind < numberCapacity := by
  unfold storedCount
  split
  · exact room.exprLists
  · exact room.stmtLists

/-- A list goes to the end of its store, refused or not, and changes no node. -/
theorem addList_parts (kind : NodeKind) (arena : Arena ε σ) (ids : List NodeId) :
    (arena.addList kind ids).2.exprs = arena.exprs ∧
      (arena.addList kind ids).2.stmts = arena.stmts ∧
      (arena.addList kind ids).2.storedCount kind = arena.storedCount kind + ids.length := by
  unfold addList storedCount
  split
  · rw [addExprList_parts]
    exact ⟨rfl, rfl, Array.size_append⟩
  · rw [addStmtList_parts]
    exact ⟨rfl, rfl, Array.size_append⟩

theorem list?_addList (kind : NodeKind) (arena : Arena ε σ) {ids : List NodeId} {window : Window}
    (stored : (arena.addList kind ids).1 = .ok window) :
    (arena.addList kind ids).2.list? kind window = some ids ∧ window.length = ids.length := by
  unfold addList list? at *
  split at stored
  · rename_i expr
    rw [if_pos expr, if_pos expr]
    exact arena.exprList?_addExprList kind stored
  · rename_i stmt
    rw [if_neg stmt, if_neg stmt]
    exact arena.stmtList?_addStmtList kind stored

/-- The window of a list that starts at a position of a store. -/
def windowAt (start : Nat) (ids : List NodeId) : Window :=
  if ids.isEmpty then .empty else ⟨start, ids.length⟩

theorem start_windowAt_lt {start : Nat} {ids : List NodeId}
    (room : ids.isEmpty = true ∨ start < numberCapacity) :
    (windowAt start ids).start < numberCapacity := by
  unfold windowAt
  split
  · exact Nat.zero_lt_succ _
  · rename_i some
    exact room.resolve_left some

theorem addList_answer (kind : NodeKind) (arena : Arena ε σ) (ids : List NodeId) :
    (arena.addList kind ids).1 =
      (checkListLength kind ids.length).map fun _ => windowAt (arena.storedCount kind) ids := by
  unfold addList storedCount
  cases ids with
  | nil => split <;> rfl
  | cons id rest => split <;> rfl

/-- **What storing a list can come to**: it is read in its window; it is over-long, and refused when
it is stored; or there is no number for its start, and nothing changes. -/
theorem storeList_cases (kind : NodeKind) (arena : Arena ε σ) (ids : List NodeId) :
    (ids.length ≤ maxListLength ∧ ∃ window after,
      arena.storeList kind ids = (.ok window, after) ∧ arena.Begins after ∧
        (after.list? kind window = some ids ∧ window.length = ids.length) ∧
        window.start < numberCapacity) ∨
    (maxListLength < ids.length ∧ arena.storedCount kind < numberCapacity ∧
      arena.storeList kind ids =
        (.error (.listTooLong ⟨kind, ids.length⟩), (arena.addList kind ids).2)) ∨
    (numberCapacity ≤ arena.storedCount kind ∧
      arena.storeList kind ids = (.error (.listsFull kind (arena.storedCount kind)), arena)) := by
  have answer := addList_answer kind arena ids
  by_cases room : ids.isEmpty = true ∨ arena.storedCount kind < numberCapacity
  · have stored : arena.storeList kind ids =
        ((arena.addList kind ids).1.mapError .listTooLong, (arena.addList kind ids).2) :=
      if_pos room
    by_cases short : ids.length ≤ maxListLength
    · have checked : checkListLength kind ids.length = .ok () := if_pos short
      rw [checked] at answer
      refine .inl ⟨short, _, _, ?_, begins_addList kind arena ids, list?_addList kind arena answer,
        start_windowAt_lt room⟩
      rw [stored, answer]
      rfl
    · have refused : checkListLength kind ids.length = .error ⟨kind, ids.length⟩ := if_neg short
      rw [refused] at answer
      have some : ids.isEmpty ≠ true := fun none => by
        rw [List.isEmpty_iff.mp none] at short
        exact short (Nat.zero_le _)
      refine .inr (.inl ⟨Nat.lt_of_not_le short, room.resolve_left some, ?_⟩)
      rw [stored, answer]
      rfl
  · obtain ⟨_, taken⟩ := not_or.mp room
    exact .inr (.inr ⟨Nat.le_of_not_lt taken, if_neg room⟩)

/-! ### Answers -/

/-- What a request can come to. -/
inductive Outcome (form : NodeForm) (arena : Arena ε σ) (request : ArenaRequest ε σ) :
    Except ArenaRefusal ArenaPlace → Arena ε σ → Prop where
  | stored {place : ArenaPlace} {after : Arena ε σ} (short : request.tooLong? form = none)
      (begins : arena.Begins after) (shows : after.Shows request place) (fits : place.Fits)
      (between : Between arena after place) : Outcome form arena request (.ok place) after
  | tooLong {list : ListTooLong} {after : Arena ε σ} (long : request.tooLong? form = some list)
      (begins : arena.Begins after) :
      Outcome form arena request (.error (.listTooLong list)) after
  | full {refusal : ArenaRefusal} (full : ¬ arena.HasRoom) :
      Outcome form arena request (.error refusal) arena

/-- **A request comes to a place, to the refusal of an over-long list, or to that of a full store.**
-/
theorem outcome_serve (form : NodeForm) (arena : Arena ε σ) (request : ArenaRequest ε σ) :
    Outcome form arena request (arena.serve form request).1 (arena.serve form request).2 := by
  unfold serve
  cases request with
  | expr expr =>
    dsimp only
    unfold storeNode
    rw [count_exprKind]
    split
    · rename_i free
      have inside : arena.exprs.size < (arena.exprs.push expr).size :=
        Array.size_push expr ▸ Nat.lt_succ_self _
      exact .stored rfl (begins_addExpr arena expr) (arena.expr?_addExpr expr) free
        ⟨Nat.le_refl _, inside⟩
    · rename_i taken
      exact .full fun room => taken room.exprs
  | stmt stmt =>
    dsimp only
    unfold storeNode
    rw [count_stmtKind]
    split
    · rename_i free
      have inside : arena.stmts.size < (arena.stmts.push stmt).size :=
        Array.size_push stmt ▸ Nat.lt_succ_self _
      exact .stored rfl (begins_addStmt arena stmt) (arena.stmt?_addStmt stmt) free
        ⟨Nat.le_refl _, inside⟩
    · rename_i taken
      exact .full fun room => taken room.stmts
  | exprList ids =>
    dsimp only
    rcases storeList_cases form.exprKind arena ids with
      ⟨short, window, after, stored, begins, shows, start⟩ | ⟨long, _, refused⟩ | ⟨taken, refused⟩
    · rw [stored]
      rw [list?_exprKind] at shows
      exact .stored (if_pos short) begins shows ⟨start, shows.2 ▸ short⟩ trivial
    · rw [refused]
      exact .tooLong (if_neg (Nat.not_le_of_lt long)) (begins_addList _ arena ids)
    · rw [refused]
      exact .full fun room => Nat.not_le_of_lt (storedCount_lt room _) taken
  | stmtList ids =>
    dsimp only
    rcases storeList_cases form.stmtKind arena ids with
      ⟨short, window, after, stored, begins, shows, start⟩ | ⟨long, _, refused⟩ | ⟨taken, refused⟩
    · rw [stored]
      rw [list?_stmtKind] at shows
      exact .stored (if_pos short) begins shows ⟨start, shows.2 ▸ short⟩ trivial
    · rw [refused]
      exact .tooLong (if_neg (Nat.not_le_of_lt long)) (begins_addList _ arena ids)
    · rw [refused]
      exact .full fun room => Nat.not_le_of_lt (storedCount_lt room _) taken

theorem begins_serve (form : NodeForm) (arena : Arena ε σ) (request : ArenaRequest ε σ) :
    arena.Begins (arena.serve form request).2 := by
  have outcome := outcome_serve form arena request
  generalize (arena.serve form request).1 = answer at outcome
  generalize (arena.serve form request).2 = after at outcome ⊢
  cases outcome with
  | stored _ begins _ _ _ => exact begins
  | tooLong _ begins => exact begins
  | full _ => exact .refl arena

/-- **What is stored is shown at its place**, which is a new one. -/
theorem stored_of_serve (answered : (arena.serve form request).1 = .ok place) :
    (arena.serve form request).2.Shows request place ∧ place.Fits ∧
      Between arena (arena.serve form request).2 place := by
  have outcome := outcome_serve form arena request
  generalize (arena.serve form request).2 = after at outcome ⊢
  rw [answered] at outcome
  cases outcome with
  | stored _ _ shows fits between => exact ⟨shows, fits, between⟩

/-- **While numbers are left, an over-long list is refused and nothing else.** -/
theorem answer_serve (room : arena.HasRoom) : match request.tooLong? form with
    | none => ∃ place, (arena.serve form request).1 = .ok place
    | some list => (arena.serve form request).1 = .error (.listTooLong list) := by
  have outcome := outcome_serve form arena request
  generalize (arena.serve form request).1 = answer at outcome ⊢
  generalize (arena.serve form request).2 = after at outcome
  cases outcome with
  | stored short _ _ _ _ =>
    rw [short]
    exact ⟨_, rfl⟩
  | tooLong long _ => rw [long]
  | full full => exact absurd room full

/-! ### Runs -/

variable {requests : List (ArenaRequest ε σ)}

/-- **An arena only grows**, whatever it is asked. -/
theorem begins_run (form : NodeForm) (arena : Arena ε σ) (requests : List (ArenaRequest ε σ)) :
    arena.Begins (arena.run form requests).2 := by
  induction requests generalizing arena with
  | nil => exact .refl arena
  | cons request rest step => exact (begins_serve form arena request).trans (step _)

/-- What was stored is shown at its place when the run ends. -/
theorem shows_run (form : NodeForm) (arena : Arena ε σ) (requests : List (ArenaRequest ε σ)) :
    List.Forall₂ (fun request answer => ∀ place, answer = .ok place →
      (arena.run form requests).2.Shows request place ∧ place.Fits) requests
        (arena.run form requests).1 := by
  induction requests generalizing arena with
  | nil => exact .nil
  | cons request rest step =>
    refine .cons (fun place answered => ?_) (step _)
    obtain ⟨shows, fits, _⟩ := stored_of_serve answered
    exact ⟨shows.mono (begins_run form _ rest), fits⟩

theorem answers_run (room : (arena.run form requests).2.HasRoom) :
    List.Forall₂ (fun request answer => match request.tooLong? form with
      | none => ∃ place, answer = .ok place
      | some list => answer = .error (.listTooLong list)) requests (arena.run form requests).1 := by
  induction requests generalizing arena with
  | nil => exact .nil
  | cons request rest step =>
    have before : arena.HasRoom := room.of_begins (begins_run form arena (request :: rest))
    exact .cons (answer_serve before) (step room)

/-- The numbers that a run gives out are new. -/
theorem between_run (given : .ok place ∈ (arena.run form requests).1) :
    Between arena (arena.run form requests).2 place := by
  induction requests generalizing arena with
  | nil => cases given
  | cons request rest step =>
    rcases List.mem_cons.mp given with answered | later
    · exact (stored_of_serve answered.symm).2.2.mono (.refl arena) (begins_run form _ rest)
    · exact (step later).mono (begins_serve form arena request) (.refl _)

/-- **No number is given to two nodes.** -/
theorem pairwise_run (form : NodeForm) (arena : Arena ε σ) (requests : List (ArenaRequest ε σ)) :
    (arena.run form requests).1.Pairwise fun one other =>
      ∀ place, place.isNode = true → one = .ok place → other ≠ .ok place := by
  induction requests generalizing arena with
  | nil => exact .nil
  | cons request rest step =>
    refine .cons ?_ (step _)
    intro other later place isNode answered again
    exact (stored_of_serve answered).2.2.apart isNode (between_run (again ▸ later))

/-- Two answers with the number of one node are one answer. -/
theorem position_eq_of_run (isNode : place.isNode = true) {first second : Nat}
    (here : (arena.run form requests).1[first]? = some (.ok place))
    (there : (arena.run form requests).1[second]? = some (.ok place)) : first = second := by
  obtain ⟨inside, answered⟩ := List.getElem?_eq_some_iff.mp here
  obtain ⟨insideToo, answeredToo⟩ := List.getElem?_eq_some_iff.mp there
  have apart := List.pairwise_iff_getElem.mp (pairwise_run form arena requests)
  rcases Nat.lt_trichotomy first second with before | same | behind
  · exact absurd answeredToo (apart _ _ inside insideToo before place isNode answered)
  · exact same
  · exact absurd answered (apart _ _ insideToo inside behind place isNode answeredToo)

/-! ### Lists that are refused -/

/-- **An over-long list is refused.** The stores stay as they were if and only if there is no number
left for its start. -/
theorem storeList_of_long {kind : NodeKind} {ids : List NodeId} {list : ListTooLong}
    (arena : Arena ε σ) (long : tooLong? kind ids = some list) :
    ∃ refusal after, arena.storeList kind ids = (.error refusal, after) ∧
      after.exprs = arena.exprs ∧ after.stmts = arena.stmts ∧
      (after = arena ↔ numberCapacity ≤ arena.storedCount list.kind) ∧
      (arena.storedCount list.kind < numberCapacity → refusal = .listTooLong list ∧
        after.storedCount list.kind = arena.storedCount list.kind + list.count) := by
  obtain ⟨excess, listed⟩ := Option.ite_none_left_eq_some.mp long
  obtain rfl := Option.some.inj listed
  rcases storeList_cases kind arena ids with ⟨short, _⟩ | ⟨_, free, refused⟩ | ⟨taken, refused⟩
  · exact absurd short excess
  · obtain ⟨exprs, stmts, grown⟩ := addList_parts kind arena ids
    refine ⟨_, _, refused, exprs, stmts, iff_of_false (fun same => ?_) (Nat.not_le_of_lt free),
      fun _ => ⟨rfl, grown⟩⟩
    rw [same] at grown
    omega
  · exact ⟨_, _, refused, rfl, rfl, iff_of_true rfl taken,
      fun free => absurd taken (Nat.not_le_of_lt free)⟩

end Arena

open Arena

/-- **Arenas read back.** Whatever an arena is asked, refused requests among it: everything that it
stored is read back, when the run ends, at the place that was given out for it, a list exactly as it
was. While numbers are left, only a list that is longer than a window can say is refused. No two
nodes have one number, none has that of a node that was there before, and all that was there before
is read at its place as before. -/
theorem arenas_read_back {ε σ : Type} (form : NodeForm) (arena : Arena ε σ)
    (requests : List (ArenaRequest ε σ)) :
    ∃ answers after, arena.run form requests = (answers, after) ∧
      List.Forall₂ (fun request answer => ∀ place, answer = .ok place →
        after.Shows request place ∧ place.Fits) requests answers ∧
      (after.HasRoom → List.Forall₂ (fun request answer => match request.tooLong? form with
        | none => ∃ place, answer = .ok place
        | some list => answer = .error (.listTooLong list)) requests answers) ∧
      (∀ (first second : Nat) (place : ArenaPlace), place.isNode = true →
        answers[first]? = some (.ok place) → answers[second]? = some (.ok place) →
          first = second) ∧
      ∀ request place, arena.Shows request place → after.Shows request place ∧
        (place.isNode = true → .ok place ∉ answers) := by
  refine ⟨_, _, rfl, shows_run form arena requests, answers_run,
    fun _ _ _ isNode => position_eq_of_run isNode, ?_⟩
  intro request place shows
  exact ⟨shows.mono (begins_run form arena requests),
    fun isNode given => Between.not_of_shows shows isNode (between_run given)⟩

/-- The lists of a kind lie one behind the other, and the empty list lies at the front. -/
example : ((Arena.empty : Arena Nat Nat).run .source
    [.expr 7, .exprList [0, 0], .stmt 8, .exprList [], .stmtList [0], .exprList [0]]).1 =
      [.ok (.expr 0), .ok (.exprList ⟨0, 2⟩), .ok (.stmt 0), .ok (.exprList ⟨0, 0⟩),
        .ok (.stmtList ⟨0, 1⟩), .ok (.exprList ⟨2, 1⟩)] := by rfl

/-- **A refused list.** An over-long list is refused in every state of the arena, and no node
changes. The stores of lists stay as they were if and only if there is no number left for the start
of the list; otherwise the store that the list was meant for has grown by all of its items. -/
theorem refused_list_stays_iff {ε σ : Type} {form : NodeForm} (arena : Arena ε σ)
    {request : ArenaRequest ε σ} {list : ListTooLong} (long : request.tooLong? form = some list) :
    ∃ refusal after, arena.serve form request = (.error refusal, after) ∧
      after.exprs = arena.exprs ∧ after.stmts = arena.stmts ∧
      (after = arena ↔ numberCapacity ≤ arena.storedCount list.kind) ∧
      (arena.storedCount list.kind < numberCapacity → refusal = .listTooLong list ∧
        after.storedCount list.kind = arena.storedCount list.kind + list.count) := by
  cases request with
  | expr expr => cases long
  | stmt stmt => cases long
  | exprList ids =>
    obtain ⟨refusal, after, refused, changes⟩ := storeList_of_long arena long
    exact ⟨refusal, after, congrArg (Prod.map (Except.map ArenaPlace.exprList) id) refused, changes⟩
  | stmtList ids =>
    obtain ⟨refusal, after, refused, changes⟩ := storeList_of_long arena long
    exact ⟨refusal, after, congrArg (Prod.map (Except.map ArenaPlace.stmtList) id) refused, changes⟩

/-- A list of statements that is refused by an arena of the source, which is new. -/
theorem refused_list_stays_iff_statements :
    ArenaRequest.tooLong? .source (.stmtList (List.range 65536) : ArenaRequest Unit Unit) =
        some ⟨.stmt, 65536⟩ ∧
      ∃ refusal after, serve .source (Arena.empty : Arena Unit Unit)
          (.stmtList (List.range 65536)) = (.error refusal, after) ∧
        refusal = .listTooLong ⟨.stmt, 65536⟩ ∧ after.stmts = #[] ∧ after ≠ Arena.empty := by
  have counted : (List.range 65536).length = 65536 := List.length_range
  generalize List.range 65536 = ids at counted ⊢
  have long : ArenaRequest.tooLong? .source (.stmtList ids : ArenaRequest Unit Unit) =
      some ⟨.stmt, 65536⟩ := counted ▸ if_neg (counted ▸ by decide)
  obtain ⟨refusal, after, served, _, stmts, same, grown⟩ := refused_list_stays_iff .empty long
  refine ⟨long, refusal, after, served, (grown (by decide)).1, stmts, ?_⟩
  exact mt same.mp (by decide)

/-- A list of 65536 lowered expressions is refused, and an arena that was new holds its items. -/
theorem refused_list_grows :
    ∃ refusal after, serve .lowered (Arena.empty : Arena Unit Unit) (.exprList (List.range 65536)) =
        (.error refusal, after) ∧
      after.storedCount .loweredExpr = 65536 ∧
      (Arena.empty : Arena Unit Unit).storedCount .loweredExpr = 0 := by
  have counted : (List.range 65536).length = 65536 := List.length_range
  generalize List.range 65536 = ids at counted ⊢
  have long : tooLong? .loweredExpr ids = some ⟨.loweredExpr, 65536⟩ :=
    counted ▸ if_neg (counted ▸ by decide)
  obtain ⟨refusal, after, refused, _, _, _, grown⟩ :=
    storeList_of_long (Arena.empty : Arena Unit Unit) long
  exact ⟨refusal, after, congrArg (Prod.map (Except.map ArenaPlace.exprList) id) refused,
    (grown (by decide)).2, rfl⟩

end ObjectLowering
