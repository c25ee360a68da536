/-
**The tree that a text shows is read back from it.**

* `Cpp.Legible`: a tree is read back from its text, as an operand with suffixes behind it, as an
  operand, and as a whole.
* **`Cpp.Tree.legible`**: every grouped tree over identifiers is; the cases are the forms of a tree.
* **`Cpp.reads_regroup`**: from the text of any tree over identifiers, the tree is read
  that the text shows.
* **`exprText_eq_iff`**: two expressions print alike exactly if their texts show one tree. An
  assignment that a member is read of is one that its value's member is assigned by.
-/

import ObjectLowering.Proofs.Printing.TreeReader

namespace ObjectLowering

open Lowered (Expr)

namespace Cpp

variable {options : EmitOptions} {char : Char} {chars rest : List Char} {tree : Tree}

/-! ### Trees that are read back -/

/-- The tree is read back from its text: as an operand that suffixes follow, as an operand, and as a
whole. -/
structure Legible (options : EmitOptions) (tree : Tree) : Prop where
  closed (closed : tree.isClosed = true) (rest : List Char) (breaks : Breaks rest)
    (result : Tree × List Char) (reads : Reads (readSuffixes · tree rest) result) :
    Reads (readOperand · (tree.chars options ++ rest)) result
  alone (other : tree.isAssign = false) (rest : List Char) (ends : Ends rest) :
    Reads (readOperand · (tree.chars options ++ rest)) (tree, rest)
  whole (rest : List Char) (stops : Stops rest) :
    Reads (readTree · (tree.chars options ++ rest)) (tree, rest)

theorem Ends.breaks (ends : Ends rest) : Breaks rest := by
  have all : ∀ char ∈ [')', ']', ',', ' '], isScopeChar char = false ∧ char ≠ '(' :=
    forall_of_all (by decide)
  exact fun char here => all char (ends char here)

/-- An operand at which a tree ends is the tree. -/
theorem reads_tree (read : Reads (readOperand · chars) (tree, rest)) (stops : Stops rest) :
    Reads (readTree · chars) (tree, rest) := by
  have step (fuel : Nat) : readTree (fuel + 1) chars = (readOperand fuel chars).bind fun target =>
      if starts [' ', '=', ' '] target.2 then
        (readTree fuel (target.2.drop 3)).bind fun value =>
          some (.assign target.1 value.1, value.2)
      else some target := rfl
  refine .after 1 step (read.bind ?_)
  simp only [stops.2, Bool.false_eq_true, if_false]
  exact .pure

theorem legible_of_alone (open' : tree.isClosed = false) (alone : ∀ rest, Ends rest →
    Reads (readOperand · (tree.chars options ++ rest)) (tree, rest)) : Legible options tree where
  closed closed := by cases closed.symm.trans open'
  alone _ := alone
  whole rest stops := reads_tree (alone rest stops.1) stops

theorem legible_of_closed (closed : ∀ rest, Breaks rest → ∀ result,
    Reads (readSuffixes · tree rest) result →
      Reads (readOperand · (tree.chars options ++ rest)) result) : Legible options tree where
  closed _ := closed
  alone _ rest ends := closed rest ends.breaks _ (reads_of_ends ends tree)
  whole rest stops :=
    reads_tree (closed rest stops.1.breaks _ (reads_of_ends stops.1 tree)) stops

theorem stops_cons {head : Char} (ends : head ∈ [')', ']', ',']) (rest : List Char) :
    Stops (head :: rest) := by
  refine ⟨fun char here => ?_, Bool.eq_false_iff.mpr (starts_of_head ?_)⟩
  · cases here
    have all : ∀ head ∈ [')', ']', ','], head ∈ [')', ']', ',', ' '] :=
      forall_of_all (by decide)
    exact all head ends
  · rintro char here rfl
    cases here
    revert ends
    decide

/-- A tree ends before an operator, which is no assignment. -/
theorem stops_op (op : BinaryOp) (rest : List Char) :
    Stops (' ' :: (op.symbol.toList ++ ' ' :: rest)) := by
  refine ⟨fun char here => ?_, ?_⟩
  · cases here
    decide
  · cases op <;> rfl

/-- Behind an argument stands a comma or a parenthesis. -/
theorem stops_more (others : List Tree) (rest : List Char) :
    Stops (others.flatMap (fun arg => ',' :: ' ' :: arg.chars options) ++ ')' :: rest) := by
  cases others with
  | nil => exact stops_cons (by decide) _
  | cons _ _ => exact stops_cons (by decide) _

theorem reads_more {args : List Tree} (each : ∀ arg ∈ args, Legible options arg)
    (rest : List Char) :
    Reads (readMore · (args.flatMap (fun arg => ',' :: ' ' :: arg.chars options) ++ ')' :: rest))
      (args, rest) := by
  induction args with
  | nil => exact .after 1 (fun _ => rfl) .pure
  | cons arg others step =>
    rw [List.forall_mem_cons] at each
    rw [List.flatMap_cons, List.append_assoc, List.cons_append, List.cons_append]
    have more (fuel : Nat) (behind : List Char) : readMore (fuel + 1) (',' :: ' ' :: behind) =
        (readTree fuel behind).bind fun read => (readMore fuel read.2).bind fun rest =>
          some (read.1 :: rest.1, rest.2) := rfl
    refine .after 1 (more · _) ((each.1.whole _ (stops_more others rest)).bind ?_)
    exact (step each.2).bind .pure

theorem reads_args (runtime : IsWord options.runtime.toList) {args : List Tree}
    (grouped : ∀ arg ∈ args, arg.Grouped) (named : ∀ arg ∈ args, arg.Named)
    (each : ∀ arg ∈ args, Legible options arg) (rest : List Char) :
    Reads (readArgs · (argChars options args ++ ')' :: rest)) (args, rest) := by
  cases args with
  | nil => exact .after 1 (fun _ => rfl) .pure
  | cons arg others =>
    rw [List.forall_mem_cons] at grouped named each
    unfold argChars
    have opening := arg.opening runtime grouped.1 named.1
      (others.flatMap (fun arg => ',' :: ' ' :: arg.chars options) ++ ')' :: rest)
    have some' : ¬starts [')'] (arg.chars options ++
        (others.flatMap (fun arg => ',' :: ' ' :: arg.chars options) ++ ')' :: rest)) = true :=
      starts_of_head (opening.head_ne (by decide) (by decide))
    rw [List.append_assoc]
    have step (fuel : Nat) : readArgs (fuel + 1) (arg.chars options ++
        (others.flatMap (fun arg => ',' :: ' ' :: arg.chars options) ++ ')' :: rest)) =
          (readTree fuel (arg.chars options ++ (others.flatMap
            (fun arg => ',' :: ' ' :: arg.chars options) ++ ')' :: rest))).bind fun read =>
              (readMore fuel read.2).bind fun rest => some (read.1 :: rest.1, rest.2) := by
      rw [readArgs, if_neg some']
      rfl
    refine .after 1 step ((each.1.whole _ (stops_more others rest)).bind ?_)
    exact (reads_more each.2 rest).bind .pure

namespace Legible

theorem field {object : Tree} {name : Name} (legible : Legible options object)
    (closed : object.isClosed = true) (identifier : IsIdentifier name) :
    Legible options (.field object name) := by
  refine legible_of_closed fun rest breaks result reads => ?_
  rw [show (Tree.field object name).chars options = _ from Tree.chars_on (.field name) object,
    List.append_assoc]
  refine legible.closed closed _ (breaks_suffix (.field name) rest) result ?_
  rw [Suffix.chars_field]
  exact reads_field identifier (fun char here => (breaks char here).1) reads

theorem virtualCall (runtime : IsWord options.runtime.toList) {receiver : Tree} {slot : Name}
    {args : List Tree} (legible : Legible options receiver) (closed : receiver.isClosed = true)
    (identifier : IsIdentifier slot) (grouped : ∀ arg ∈ args, arg.Grouped)
    (named : ∀ arg ∈ args, arg.Named) (each : ∀ arg ∈ args, Legible options arg) :
    Legible options (.virtualCall receiver slot args) := by
  refine legible_of_closed fun rest _ result reads => ?_
  rw [show (Tree.virtualCall receiver slot args).chars options = _ from
    Tree.chars_on (.call slot args) receiver, List.append_assoc]
  refine legible.closed closed _ (breaks_suffix (.call slot args) rest) result ?_
  rw [Suffix.chars_call]
  simp only [List.cons_append, List.append_assoc, List.nil_append]
  have called := reads_call (reads_args runtime grouped named each rest) reads
  have outer := reads_field identifier (by simp [isScopeChar, isNameChar]) called
  exact reads_field (by decide) (by simp [isScopeChar, isNameChar]) outer

theorem qualifiedCall (runtime : IsWord options.runtime.toList) {className method : Name}
    {args : List Tree} (classNamed : IsIdentifier className) (methodNamed : IsIdentifier method)
    (grouped : ∀ arg ∈ args, arg.Grouped) (named : ∀ arg ∈ args, arg.Named)
    (each : ∀ arg ∈ args, Legible options arg) :
    Legible options (.qualifiedCall className method args) := by
  refine legible_of_closed fun rest _ result reads => ?_
  rw [← scopedCall_scoped classNamed methodNamed args] at reads
  have called := reads_called (isWord_scoped runtime classNamed methodNamed)
    (reads_args runtime grouped named each rest) reads
  rw [Tree.chars_qualifiedCall]
  simpa only [scopedWord, List.cons_append, List.append_assoc, List.nil_append] using called

theorem update {op : UnaryOp} (isPostfix : op.isPostfix = true) {operand : Tree}
    (legible : Legible options operand) (closed : operand.isClosed = true) :
    Legible options (.unary op operand) := by
  refine legible_of_closed fun rest _ result reads => ?_
  rw [show (Tree.unary op operand).chars options = _ from
    Tree.chars_on (.update op isPostfix) operand, List.append_assoc]
  refine legible.closed closed _ (breaks_suffix (.update op isPostfix) rest) result ?_
  rw [Suffix.chars_update]
  cases op with
  | postIncrement | postDecrement => exact .after 1 (fun _ => rfl) reads
  | _ => cases isPostfix

theorem counted {op : UnaryOp} (isPrefix : op.isPrefix = true) {operand : Tree}
    (legible : Legible options operand) (other : operand.isAssign = false) :
    Legible options (.unary op operand) := by
  have step (rest : List Char) (fuel : Nat) :
      readOperand (fuel + 1) ((Tree.unary op operand).chars options ++ rest) =
        (readOperand fuel (operand.chars options ++ rest)).bind fun read =>
          some (.unary op read.1, read.2) := by
    rw [Tree.chars_counted isPrefix, List.append_assoc]
    cases op with
    | preIncrement | preDecrement => rfl
    | _ => cases isPrefix
  refine legible_of_alone (congrArg not isPrefix) fun rest ends => ?_
  exact .after 1 (step rest) ((legible.alone other rest ends).bind .pure)

theorem assign {target value : Tree} (legible : Legible options target)
    (other : target.isAssign = false) (legibleToo : Legible options value) :
    Legible options (.assign target value) := by
  refine ⟨fun closed => (nomatch closed), fun other => (nomatch other), fun rest stops => ?_⟩
  have target := legible.alone other (' ' :: '=' :: ' ' :: (value.chars options ++ rest)) (by
    intro char here
    cases here
    decide)
  rw [Tree.chars_assign]
  simp only [List.cons_append, List.append_assoc]
  have step (chars : List Char) (fuel : Nat) : readTree (fuel + 1) chars =
      (readOperand fuel chars).bind fun target =>
        if starts [' ', '=', ' '] target.2 then
          (readTree fuel (target.2.drop 3)).bind fun value =>
            some (.assign target.1 value.1, value.2)
        else some target := rfl
  refine .after 1 (step _) (target.bind ?_)
  exact (legibleToo.whole rest stops).bind .pure

theorem index {array position : Tree} (legible : Legible options array)
    (legibleToo : Legible options position) :
    Legible options (.index array position) := by
  refine legible_of_closed fun rest _ result reads => ?_
  have step (inside : List Char) (fuel : Nat) : readOperand (fuel + 2) ('(' :: '*' :: inside) =
      (readTree fuel inside).bind fun array => (after? [')', '['] array.2).bind fun behind =>
        (readTree fuel behind).bind fun position => (after? [']'] position.2).bind fun behind =>
          readSuffixes (fuel + 1) (.index array.1 position.1) behind := by
    have opens : starts ['(', '*'] ('(' :: '*' :: inside) = true := rfl
    rw [readOperand_of_head (by simp) (by simp), readAtom, if_pos opens]
    simp only [Option.bind_eq_bind, Option.bind_assoc]
    rfl
  rw [Tree.chars_index]
  simp only [List.cons_append, List.append_assoc, List.nil_append]
  refine .after 2 (step _) ((legible.whole _ (stops_cons (by decide) _)).bind ?_)
  exact (legibleToo.whole _ (stops_cons (by decide) _)).bind (reads.later 1)

theorem enclosed {op : UnaryOp} (reads : op.mutates = false)
    (runtime : IsWord options.runtime.toList) {operand : Tree} (grouped : operand.Grouped)
    (named : operand.Named) (legible : Legible options operand) :
    Legible options (.unary op operand) := by
  refine legible_of_closed fun rest _ result readsBehind => ?_
  rw [Tree.chars_enclosed reads]
  simp only [List.cons_append, List.append_assoc, List.nil_append]
  have opening := operand.opening runtime grouped named (')' :: rest)
  have inside (char : Char) (noStar : '*' ≠ char)
      (encloses : enclosing? (char :: (operand.chars options ++ ')' :: rest)) = some op) :
      Reads (readOperand · ('(' :: char :: (operand.chars options ++ ')' :: rest))) result := by
    have step (fuel : Nat) :
        readEnclosed (fuel + 1) (char :: (operand.chars options ++ ')' :: rest)) =
          (readTree fuel (operand.chars options ++ ')' :: rest)).bind fun read =>
            (after? [')'] read.2).bind fun behind => some (.unary op read.1, behind) := by
      rw [readEnclosed, encloses]
      rfl
    refine reads_enclosed (by simpa using noStar) (.after 1 step ?_) readsBehind
    exact (legible.whole _ (stops_cons (by decide) _)).bind .pure
  cases op with
  | negate => exact inside '-' (by decide) opening.enclosing_negate
  | complement => exact inside '!' (by decide) rfl
  | _ => cases reads

theorem binary (runtime : IsWord options.runtime.toList) (op : BinaryOp) {left right : Tree}
    (grouped : left.Grouped) (named : left.Named) (legible : Legible options left)
    (legibleToo : Legible options right) : Legible options (.binary op left right) := by
  refine legible_of_closed fun rest _ result reads => ?_
  have symbol (behind : List Char) :
      (op.symbol.toList ++ ' ' :: behind).takeWhile (· != ' ') = op.symbol.toList ∧
        (op.symbol.toList ++ ' ' :: behind).dropWhile (· != ' ') = ' ' :: behind :=
    takeWhile_stops (by cases op <;> exact forall_of_all (by decide)) (by simp)
  have known : BinaryOp.ofSymbol? (.ofList op.symbol.toList) = some op := by cases op <;> rfl
  rw [Tree.chars_binary]
  simp only [List.cons_append, List.append_assoc, List.nil_append]
  have opening := left.opening runtime grouped named
    (' ' :: (op.symbol.toList ++ ' ' :: (right.chars options ++ ')' :: rest)))
  refine reads_enclosed (opening.head_ne (by decide) (by decide)) ?_ reads
  have step (inside : List Char) (none : enclosing? inside = none) (fuel : Nat) :
      readEnclosed (fuel + 1) inside = (readTree fuel inside).bind fun left =>
        (after? [' '] left.2).bind fun behind =>
          (BinaryOp.ofSymbol? (.ofList (behind.takeWhile (· != ' ')))).bind fun op =>
            (readTree fuel (behind.dropWhile (· != ' ')).tail).bind fun right =>
              (after? [')'] right.2).bind fun rest => some (.binary op left.1 right.1, rest) := by
    rw [readEnclosed, none]
    rfl
  have behind : after? [' '] (' ' :: (op.symbol.toList ++ ' ' :: (right.chars options ++
      ')' :: rest))) = some (op.symbol.toList ++ ' ' :: (right.chars options ++ ')' :: rest)) := rfl
  refine .after 1 (step _ opening.enclosing) ((legible.whole _ (stops_op op _)).bind ?_)
  simp only [behind, Option.bind_some, (symbol _).1, (symbol _).2, known, List.tail_cons]
  exact (legibleToo.whole _ (stops_cons (by decide) _)).bind .pure

end Legible

/-- **Every grouped tree over identifiers is read back from its text.** -/
theorem Tree.legible (runtime : IsWord options.runtime.toList) (grouped : tree.Grouped)
    (named : tree.Named) : Legible options tree := by
  have all {args : List Tree}
      (each : ∀ arg ∈ args, arg.Grouped → arg.Named → Legible options arg)
      (grouped : ∀ arg ∈ args, arg.Grouped) (named : ∀ arg ∈ args, arg.Named) :
      ∀ arg ∈ args, Legible options arg :=
    fun arg member => each arg member (grouped arg member) (named arg member)
  induction tree using Tree.induct with
  | localVar name =>
    refine legible_of_closed fun rest breaks result reads => ?_
    rw [chars_localVar]
    rw [← wordTree_name named] at reads
    exact reads_word (IsIdentifier.isWord named) breaks reads
  | int value =>
    refine legible_of_closed fun rest breaks result reads => ?_
    have word : wordTree ((int value).chars options) = int value := wordTree_int value
    rw [← word] at reads
    exact reads_word (isWord_int value) breaks reads
  | field object name step => exact (step grouped.2 named.2).field grouped.1 named.1
  | index array position stepArray stepPosition =>
    exact (stepArray grouped.2.1 named.2.1).index (stepPosition grouped.2.2 named.2.2)
  | assign target value stepTarget stepValue =>
    exact (stepTarget grouped.2.1 named.2.1).assign grouped.1 (stepValue grouped.2.2 named.2.2)
  | binary op left right stepLeft stepRight =>
    exact .binary runtime op grouped.2.1 named.2.1 (stepLeft grouped.2.1 named.2.1)
      (stepRight grouped.2.2 named.2.2)
  | unary op operand step =>
    have inside := step grouped.2 named.2
    cases op with
    | negate | complement => exact inside.enclosed rfl runtime grouped.2 named.2
    | preIncrement | preDecrement => exact inside.counted rfl (grouped.1.2 rfl)
    | postIncrement | postDecrement => exact inside.update rfl (grouped.1.1 rfl)
  | virtualCall receiver slot args step each =>
    have groupedArgs := allEach_iff.mp grouped.2.2
    have namedArgs := allEach_iff.mp named.2.2
    exact (step grouped.2.1 named.2.1).virtualCall runtime grouped.1 named.1 groupedArgs namedArgs
      (all each groupedArgs namedArgs)
  | qualifiedCall className method args each =>
    have groupedArgs := allEach_iff.mp grouped.2
    have namedArgs := allEach_iff.mp named.2
    exact .qualifiedCall runtime named.1.1 named.1.2 groupedArgs namedArgs
      (all each groupedArgs namedArgs)

/-- What is read from the text of a grouped tree over identifiers is the tree. -/
theorem reads_chars (runtime : IsWord options.runtime.toList) (grouped : tree.Grouped)
    (named : tree.Named) : Reads (readTree · (tree.chars options)) (tree, []) := by
  have read := (Tree.legible runtime grouped named).whole [] ⟨by simp [Ends], rfl⟩
  rwa [List.append_nil] at read

/-! ### The names of the tree that a text shows -/

/-- The name behind an operand is an identifier. -/
def Suffix.Names : Suffix → Prop
  | field name | call name _ => IsIdentifier name
  | update .. => True

namespace Tree.Named

variable {suffix : Suffix}

theorem on (named : tree.Named) (name : suffix.Names) (each : ∀ arg ∈ suffix.args, arg.Named) :
    (suffix.on tree).Named := by
  cases suffix with
  | field _ => exact ⟨name, named⟩
  | call _ _ => exact ⟨name, named, allEach_iff.mpr each⟩
  | update _ _ => exact ⟨trivial, named⟩

theorem suffixed (named : tree.Named) (name : suffix.Names)
    (each : ∀ arg ∈ suffix.args, arg.Named) : (tree.suffixed suffix).Named := by
  induction tree using induct with
  | assign target value _ step => exact ⟨trivial, named.2.1, step named.2.2⟩
  | unary op operand step =>
    unfold Tree.suffixed
    split
    · exact ⟨trivial, step named.2⟩
    · exact named.on name each
  | _ => exact named.on name each

theorem prefixed (named : tree.Named) (op : UnaryOp) : (tree.prefixed op).Named := by
  induction tree using induct with
  | assign target value step _ => exact ⟨trivial, step named.2.1, named.2.2⟩
  | _ => exact ⟨trivial, named⟩

theorem assigned (named : tree.Named) {behind : Tree} (namedToo : behind.Named) :
    (tree.assigned behind).Named := by
  induction tree using induct with
  | assign target value _ step => exact ⟨trivial, named.2.1, step named.2.2⟩
  | _ => exact ⟨trivial, named, namedToo⟩

theorem regroup (named : tree.Named) : tree.regroup.Named := by
  have all {args : List Tree} (each : ∀ arg ∈ args, arg.Named → arg.regroup.Named)
      (named : AllEach Names args) : ∀ arg ∈ regroupAll args, arg.Named := by
    rw [regroupAll_eq, List.forall_mem_map]
    exact fun arg member => each arg member (allEach_iff.mp named arg member)
  induction tree using induct with
  | localVar _ => exact named
  | int _ => exact named
  | field object name step =>
    refine (step named.2).suffixed ?_ ?_
    · exact named.1
    · exact List.forall_mem_nil _
  | index array position stepArray stepPosition =>
    exact ⟨trivial, stepArray named.2.1, stepPosition named.2.2⟩
  | assign target value stepTarget stepValue =>
    exact (stepTarget named.2.1).assigned (stepValue named.2.2)
  | binary op left right stepLeft stepRight =>
    exact ⟨trivial, stepLeft named.2.1, stepRight named.2.2⟩
  | unary op operand step =>
    unfold Tree.regroup
    split
    · refine (step named.2).suffixed ?_ ?_
      · exact trivial
      · exact List.forall_mem_nil _
    · split
      · exact (step named.2).prefixed op
      · exact ⟨trivial, step named.2⟩
  | virtualCall receiver slot args step each =>
    exact (step named.2.1).suffixed named.1 (all each named.2.2)
  | qualifiedCall className method args each =>
    exact ⟨named.1, allEach_iff.mpr (all each named.2)⟩

end Tree.Named

/-- **What is read from the text of a tree over identifiers is the tree that the text shows.** -/
theorem reads_regroup (runtime : IsWord options.runtime.toList) (named : tree.Named) :
    Reads (readTree · (tree.chars options)) (tree.regroup, []) := by
  have same : tree.chars options = tree.regroup.chars options :=
    congrArg String.toList tree.text_regroup.symm
  rw [same]
  exact reads_chars runtime tree.grouped_regroup named.regroup

end Cpp

open Cpp (EmitOptions IsWord Tree exprText)

/-- **Two expressions over identifiers print alike exactly if their texts show one tree; so those
whose parts belong where their texts put them print alike only if they are one tree.** -/
theorem exprText_eq_iff {options : EmitOptions} (runtime : IsWord options.runtime.toList)
    {first second : Expr} {tree other : Tree} (shape : first.tree? = some tree)
    (shapeToo : second.tree? = some other) (named : tree.Named) (namedToo : other.Named) :
    (exprText options first = exprText options second ↔ tree.regroup = other.regroup) ∧
      (tree.Grouped → other.Grouped → exprText options first = exprText options second →
        tree = other) := by
  have alike : exprText options first = exprText options second ↔
      tree.regroup = other.regroup := by
    rw [Tree.exprText_eq first shape, Tree.exprText_eq second shapeToo]
    constructor
    · intro same
      have read := Cpp.reads_regroup runtime named
      rw [show tree.chars options = other.chars options from congrArg String.toList same] at read
      exact (Prod.ext_iff.mp (read.unique (Cpp.reads_regroup runtime namedToo))).1
    · intro same
      rw [← tree.text_regroup, same, other.text_regroup]
  refine ⟨alike, fun grouped groupedToo same => ?_⟩
  rw [← Tree.regroup_eq_iff.mpr grouped, alike.mp same, Tree.regroup_eq_iff.mpr groupedToo]

/-- `(a = b).f` -/
def Cpp.Tree.memberOfAssigned : Tree := .field (.assign (.localVar "a") (.localVar "b")) "f"

/-- `a = b.f` -/
def Cpp.Tree.assignedMember : Tree := .assign (.localVar "a") (.field (.localVar "b") "f")

theorem Cpp.Tree.named_memberOfAssigned : memberOfAssigned.Named :=
  have name : IsIdentifier "a" ∧ IsIdentifier "b" ∧ IsIdentifier "f" := by decide
  ⟨name.2.2, trivial, name.1, name.2.1⟩

theorem Cpp.Tree.named_assignedMember : assignedMember.Named :=
  have name : IsIdentifier "a" ∧ IsIdentifier "b" ∧ IsIdentifier "f" := by decide
  ⟨trivial, name.1, name.2.2, name.2.1⟩

theorem exprText_eq_iff_member :
    (exprText {} Tree.memberOfAssigned.expr = exprText {} Tree.assignedMember.expr ↔
      Tree.memberOfAssigned.regroup = Tree.assignedMember.regroup) ∧
    (Tree.memberOfAssigned.Grouped → Tree.assignedMember.Grouped →
      exprText {} Tree.memberOfAssigned.expr = exprText {} Tree.assignedMember.expr →
        Tree.memberOfAssigned = Tree.assignedMember) :=
  exprText_eq_iff ⟨⟨'_', _, rfl, rfl⟩, Cpp.forall_of_all rfl⟩ rfl rfl Tree.named_memberOfAssigned
    Tree.named_assignedMember

/-- **A member of what is assigned prints as the assignment of a member.** -/
theorem exprText_confuses_member :
    Tree.memberOfAssigned.Named ∧ Tree.assignedMember.Named ∧
      exprText {} Tree.memberOfAssigned.expr = exprText {} Tree.assignedMember.expr ∧
      Tree.memberOfAssigned.expr ≠ Tree.assignedMember.expr :=
  ⟨Tree.named_memberOfAssigned, Tree.named_assignedMember, rfl, fun same => nomatch same⟩

end ObjectLowering
