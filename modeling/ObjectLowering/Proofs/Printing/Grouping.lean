/-
**How the text of an expression groups its parts.**

An assignment, a member access, a call and a counting operator bring no parentheses of their own.
So the text of a tree may be that of another one, in which a suffix belongs to the last operand in
front of it, a prefix to the first operand behind it, and a chain of assignments to its right. No
text is lost when a tree is turned into that one.

* `Cpp.Tree` are the trees that programs compute with; `Lowered.Expr.tree?` drops the places of an
  expression.
* `Cpp.Tree.regroup` is the tree that the text shows; `Cpp.Tree.Grouped` says that a tree is so
  grouped.
* **`Cpp.Tree.text_regroup`**: regrouping keeps the text.
* **`Cpp.Tree.regroup_eq_iff`**: it keeps exactly the trees that are grouped.
-/

import Mathlib.Logic.Basic
import ObjectLowering.Cpp.Code

namespace ObjectLowering

open Lowered (Expr)

/-! ### Trees without places -/

/-- An expression over locals, numbers, members, elements, assignments, operators and calls, without
the places of its nodes. -/
inductive Cpp.Tree where
  | localVar (name : Name)
  | int (value : Nat)
  | field (object : Tree) (name : Name)
  | index (array position : Tree)
  | assign (target value : Tree)
  | binary (op : BinaryOp) (left right : Tree)
  | unary (op : UnaryOp) (operand : Tree)
  | virtualCall (receiver : Tree) (slot : Name) (args : List Tree)
  | qualifiedCall (className method : Name) (args : List Tree)

open Cpp (Tree)

mutual

/-- The tree of an expression, if it is made of these forms. -/
def Lowered.Expr.tree? : Expr → Option Tree
  | .localVar _ name => some (.localVar name)
  | .int _ (.ofNat value) => some (.int value)
  | .field _ object name => object.tree?.map (.field · name)
  | .index _ array position => return .index (← array.tree?) (← position.tree?)
  | .assign _ target value => return .assign (← target.tree?) (← value.tree?)
  | .binary _ op left right => return .binary op (← left.tree?) (← right.tree?)
  | .unary _ op operand => operand.tree?.map (.unary op)
  | .virtualCall _ receiver slot args =>
    return .virtualCall (← receiver.tree?) slot (← Lowered.Expr.trees? args)
  | .qualifiedCall _ className method args =>
    (Lowered.Expr.trees? args).map (.qualifiedCall className method)
  | _ => none

/-- The trees of all expressions. -/
def Lowered.Expr.trees? : List Expr → Option (List Tree)
  | [] => some []
  | expr :: rest => return (← expr.tree?) :: (← Lowered.Expr.trees? rest)

end

namespace Cpp.Tree

/-- What holds of a tree if it holds of its parts holds of every tree. -/
@[elab_as_elim]
theorem induct {motive : Tree → Prop} (localVar : ∀ name, motive (localVar name))
    (int : ∀ value, motive (int value))
    (field : ∀ object name, motive object → motive (field object name))
    (index : ∀ array position, motive array → motive position → motive (index array position))
    (assign : ∀ target value, motive target → motive value → motive (assign target value))
    (binary : ∀ op left right, motive left → motive right → motive (binary op left right))
    (unary : ∀ op operand, motive operand → motive (unary op operand))
    (virtualCall : ∀ receiver slot args, motive receiver → (∀ arg ∈ args, motive arg) →
      motive (virtualCall receiver slot args))
    (qualifiedCall : ∀ className method args, (∀ arg ∈ args, motive arg) →
      motive (qualifiedCall className method args))
    (tree : Tree) : motive tree :=
  @Tree.rec motive (fun args => ∀ arg ∈ args, motive arg)
    localVar int field index assign binary unary virtualCall qualifiedCall
    (fun _ member => nomatch member)
    (fun _ _ first rest => List.forall_mem_cons.mpr ⟨first, rest⟩) tree

mutual

/-- The tree as an expression, at places that matter to no text. -/
def expr : Tree → Expr
  | localVar name => .localVar .generated name
  | int value => .int .generated value
  | field object name => .field .generated object.expr name
  | index array position => .index .generated array.expr position.expr
  | assign target value => .assign .generated target.expr value.expr
  | binary op left right => .binary .generated op left.expr right.expr
  | unary op operand => .unary .generated op operand.expr
  | virtualCall receiver slot args => .virtualCall .generated receiver.expr slot (exprs args)
  | qualifiedCall className method args =>
    .qualifiedCall .generated className method (exprs args)

def exprs : List Tree → List Expr
  | [] => []
  | tree :: rest => tree.expr :: exprs rest

end

/-- What is printed for a tree. -/
def text (options : EmitOptions) (tree : Tree) : String := exprText options tree.expr

variable {options : EmitOptions}

theorem exprTexts_exprs (options : EmitOptions) (trees : List Tree) :
    exprTexts options (exprs trees) = trees.map (text options) := by
  induction trees with
  | nil => rfl
  | cons tree rest step => exact congrArg (tree.text options :: ·) step

mutual

/-- What is printed for an expression is what is printed for its tree. -/
theorem exprText_eq : ∀ (printed : Expr) {tree : Tree}, printed.tree? = some tree →
    exprText options printed = tree.text options
  | .localVar _ name, _, shape => by cases shape; rfl
  | .int _ (.ofNat value), _, shape => by cases shape; rfl
  | .field _ object name, _, shape => by
    obtain ⟨inner, here, rfl⟩ := Option.map_eq_some_iff.mp shape
    exact congrArg (arrow · name) (exprText_eq object here)
  | .index _ array position, _, shape => by
    obtain ⟨_, here, shape⟩ := Option.bind_eq_some_iff.mp shape
    obtain ⟨_, there, shape⟩ := Option.bind_eq_some_iff.mp shape
    cases shape
    show parenthesized ("*" ++ exprText options array) ++ "[" ++
      exprText options position ++ "]" = _
    rw [exprText_eq array here, exprText_eq position there]
    rfl
  | .assign _ target value, _, shape => by
    obtain ⟨_, here, shape⟩ := Option.bind_eq_some_iff.mp shape
    obtain ⟨_, there, shape⟩ := Option.bind_eq_some_iff.mp shape
    cases shape
    show exprText options target ++ " = " ++ exprText options value = _
    rw [exprText_eq target here, exprText_eq value there]
    rfl
  | .binary _ op left right, _, shape => by
    obtain ⟨_, here, shape⟩ := Option.bind_eq_some_iff.mp shape
    obtain ⟨_, there, shape⟩ := Option.bind_eq_some_iff.mp shape
    cases shape
    exact congrArg₂ (binaryText op) (exprText_eq left here) (exprText_eq right there)
  | .unary _ op operand, _, shape => by
    obtain ⟨inner, here, rfl⟩ := Option.map_eq_some_iff.mp shape
    exact congrArg (unaryText op) (exprText_eq operand here)
  | .virtualCall _ receiver slot args, _, shape => by
    obtain ⟨_, here, shape⟩ := Option.bind_eq_some_iff.mp shape
    obtain ⟨_, there, shape⟩ := Option.bind_eq_some_iff.mp shape
    cases shape
    exact congrArg₂ (fun receiver => callText (arrow (arrow receiver "__vptr") slot))
      (exprText_eq receiver here) (exprTexts_eq args there)
  | .qualifiedCall _ className method args, _, shape => by
    obtain ⟨_, there, rfl⟩ := Option.map_eq_some_iff.mp shape
    exact congrArg (callText (scope (options.structName className) method))
      (exprTexts_eq args there)

theorem exprTexts_eq : ∀ (printed : List Expr) {trees : List Tree},
    Lowered.Expr.trees? printed = some trees →
      exprTexts options printed = exprTexts options (exprs trees)
  | [], _, shape => by cases shape; rfl
  | first :: rest, _, shape => by
    obtain ⟨_, here, shape⟩ := Option.bind_eq_some_iff.mp shape
    obtain ⟨_, there, shape⟩ := Option.bind_eq_some_iff.mp shape
    cases shape
    exact congrArg₂ (· :: ·) (exprText_eq first here) (exprTexts_eq rest there)

end

end Cpp.Tree

/-! ### Suffixes and prefixes -/

/-- Whether the operator writes its operand and stands in front of it. -/
def UnaryOp.isPrefix (op : UnaryOp) : Bool := op.mutates && !op.isPostfix

theorem UnaryOp.isPrefix_iff {op : UnaryOp} :
    op.isPrefix = true ↔ op.mutates = true ∧ ¬op.isPostfix = true := by
  unfold isPrefix
  rw [Bool.and_eq_true, Bool.not_eq_true', Bool.eq_false_iff]

namespace Cpp

/-- What is printed behind an operand without parentheses. -/
inductive Suffix where
  | field (name : Name)
  | call (slot : Name) (args : List Tree)
  | update (op : UnaryOp) (isPostfix : op.isPostfix = true)

namespace Suffix

/-- The arguments of a call. -/
def args : Suffix → List Tree
  | call _ args => args
  | _ => []

def on : Suffix → Tree → Tree
  | field name, tree => .field tree name
  | call slot args, tree => .virtualCall tree slot args
  | update op _, tree => .unary op tree

def text (options : EmitOptions) : Suffix → String
  | field name => "->" ++ name
  | call slot args =>
    "->" ++ "__vptr" ++ "->" ++ slot ++ parenthesized (commas (args.map (·.text options)))
  | update op _ => op.symbol

theorem text_on (options : EmitOptions) (suffix : Suffix) (tree : Tree) :
    (suffix.on tree).text options = tree.text options ++ suffix.text options := by
  cases suffix with
  | field name => exact String.append_assoc ..
  | call slot args =>
    show callText (arrow (arrow (tree.text options) "__vptr") slot)
      (exprTexts options (Tree.exprs args)) = _
    rw [Tree.exprTexts_exprs]
    simp only [callText, arrow, text, String.append_assoc]
  | update op isPostfix => exact if_pos isPostfix

end Suffix

namespace Tree

def isAssign : Tree → Bool
  | assign .. => true
  | _ => false

/-- Whether a suffix behind the text belongs to the whole tree. -/
def isClosed : Tree → Bool
  | assign .. => false
  | unary op _ => !op.isPrefix
  | _ => true

/-- A suffix behind the text belongs to its last operand. -/
def suffixed : Tree → Suffix → Tree
  | assign target value, suffix => assign target (value.suffixed suffix)
  | unary op operand, suffix =>
    if op.isPrefix then unary op (operand.suffixed suffix) else suffix.on (unary op operand)
  | tree, suffix => suffix.on tree

/-- A counting operator in front of the text belongs to its first operand. -/
def prefixed (op : UnaryOp) : Tree → Tree
  | assign target value => assign (target.prefixed op) value
  | tree => unary op tree

/-- A chain of assignments belongs to its right. -/
def assigned : Tree → Tree → Tree
  | assign target value, behind => assign target (value.assigned behind)
  | tree, behind => assign tree behind

mutual

/-- The tree that the text shows. -/
def regroup : Tree → Tree
  | localVar name => localVar name
  | int value => int value
  | field object name => object.regroup.suffixed (.field name)
  | index array position => index array.regroup position.regroup
  | assign target value => target.regroup.assigned value.regroup
  | binary op left right => binary op left.regroup right.regroup
  | unary op operand =>
    if isPostfix : op.isPostfix = true then operand.regroup.suffixed (.update op isPostfix)
    else if op.mutates then operand.regroup.prefixed op
    else unary op operand.regroup
  | virtualCall receiver slot args => receiver.regroup.suffixed (.call slot (regroupAll args))
  | qualifiedCall className method args => qualifiedCall className method (regroupAll args)

def regroupAll : List Tree → List Tree
  | [] => []
  | tree :: rest => tree.regroup :: regroupAll rest

end

variable {options : EmitOptions}

theorem regroupAll_eq (trees : List Tree) : regroupAll trees = trees.map regroup := by
  induction trees with
  | nil => rfl
  | cons tree rest step => exact congrArg (tree.regroup :: ·) step

/-! ### The text -/

theorem text_assign (target value : Tree) :
    (assign target value).text options = target.text options ++ " = " ++ value.text options := rfl

theorem text_unary (op : UnaryOp) (operand : Tree) :
    (unary op operand).text options = unaryText op (operand.text options) := rfl

theorem text_counted {op : UnaryOp} (isPrefix : op.isPrefix = true) (operand : Tree) :
    (unary op operand).text options = op.symbol ++ operand.text options := by
  obtain ⟨mutates, notPostfix⟩ := UnaryOp.isPrefix_iff.mp isPrefix
  rw [text_unary, unaryText, if_neg notPostfix, if_pos mutates]

theorem text_suffixed (tree : Tree) (suffix : Suffix) :
    (tree.suffixed suffix).text options = tree.text options ++ suffix.text options := by
  induction tree using induct with
  | assign target value _ step =>
    show target.text options ++ " = " ++ (value.suffixed suffix).text options = _
    rw [step, text_assign]
    simp only [String.append_assoc]
  | unary op operand step =>
    unfold suffixed
    split
    · rename_i isPrefix
      rw [text_counted isPrefix, text_counted isPrefix, step, String.append_assoc]
    · exact suffix.text_on options _
  | _ => exact suffix.text_on options _

theorem text_prefixed {op : UnaryOp} (isPrefix : op.isPrefix = true) (tree : Tree) :
    (tree.prefixed op).text options = op.symbol ++ tree.text options := by
  induction tree using induct with
  | assign target value step _ =>
    show (target.prefixed op).text options ++ " = " ++ value.text options = _
    rw [step, text_assign]
    simp only [String.append_assoc]
  | _ => exact text_counted isPrefix _

theorem text_assigned (tree behind : Tree) :
    (tree.assigned behind).text options = tree.text options ++ " = " ++ behind.text options := by
  induction tree using induct with
  | assign target value _ step =>
    show target.text options ++ " = " ++ (value.assigned behind).text options = _
    rw [step, text_assign]
    simp only [String.append_assoc]
  | _ => rfl

/-- **Regrouping keeps the text.** -/
theorem text_regroup (tree : Tree) : tree.regroup.text options = tree.text options := by
  have all {args : List Tree} (each : ∀ arg ∈ args, arg.regroup.text options = arg.text options) :
      (regroupAll args).map (text options) = args.map (text options) := by
    rw [regroupAll_eq, List.map_map]
    exact List.map_congr_left each
  induction tree using induct with
  | localVar _ => rfl
  | int _ => rfl
  | field object name step =>
    unfold regroup
    rw [text_suffixed, step]
    exact (Suffix.text_on options (.field name) object).symm
  | index array position stepArray stepPosition =>
    show parenthesized ("*" ++ array.regroup.text options) ++ "[" ++
      position.regroup.text options ++ "]" = _
    rw [stepArray, stepPosition]
    rfl
  | assign target value stepTarget stepValue =>
    unfold regroup
    rw [text_assigned, stepTarget, stepValue]
    rfl
  | binary op left right stepLeft stepRight =>
    exact congrArg₂ (binaryText op) stepLeft stepRight
  | unary op operand step =>
    unfold regroup
    split
    · rename_i isPostfix
      rw [text_suffixed, step]
      exact (Suffix.text_on options (.update op isPostfix) operand).symm
    · rename_i isPostfix
      split
      · rename_i mutates
        have isPrefix := UnaryOp.isPrefix_iff.mpr ⟨mutates, isPostfix⟩
        rw [text_prefixed isPrefix, step, text_counted isPrefix]
      · exact congrArg (unaryText op) step
  | virtualCall receiver slot args step each =>
    unfold regroup
    rw [text_suffixed, step, show (Suffix.call slot (regroupAll args)).text options =
      (Suffix.call slot args).text options from congrArg
        (fun texts => "->" ++ "__vptr" ++ "->" ++ slot ++ parenthesized (commas texts)) (all each)]
    exact (Suffix.text_on options (.call slot args) receiver).symm
  | qualifiedCall className method args each =>
    show callText _ (exprTexts options (exprs (regroupAll args))) =
      callText _ (exprTexts options (exprs args))
    rw [exprTexts_exprs, exprTexts_exprs, all each]

/-! ### Trees that are grouped -/

mutual

/-- The tree and all its parts have the property. -/
def Each (holds : Tree → Prop) : Tree → Prop
  | localVar name => holds (localVar name)
  | int value => holds (int value)
  | field object name => holds (field object name) ∧ object.Each holds
  | index array position =>
    holds (index array position) ∧ array.Each holds ∧ position.Each holds
  | assign target value => holds (assign target value) ∧ target.Each holds ∧ value.Each holds
  | binary op left right => holds (binary op left right) ∧ left.Each holds ∧ right.Each holds
  | unary op operand => holds (unary op operand) ∧ operand.Each holds
  | virtualCall receiver slot args =>
    holds (virtualCall receiver slot args) ∧ receiver.Each holds ∧ AllEach holds args
  | qualifiedCall className method args =>
    holds (qualifiedCall className method args) ∧ AllEach holds args

def AllEach (holds : Tree → Prop) : List Tree → Prop
  | [] => True
  | tree :: rest => tree.Each holds ∧ AllEach holds rest

end

theorem allEach_iff {holds : Tree → Prop} {trees : List Tree} :
    AllEach holds trees ↔ ∀ tree ∈ trees, tree.Each holds := by
  induction trees with
  | nil => exact ⟨fun _ _ member => (nomatch member), fun _ => trivial⟩
  | cons tree rest step => exact (and_congr_right' step).trans List.forall_mem_cons.symm

/-- Whether the parts of a tree belong to it where the text puts them. -/
def Groups : Tree → Prop
  | field object _ => object.isClosed = true
  | assign target _ => target.isAssign = false
  | unary op operand =>
    (op.isPostfix = true → operand.isClosed = true) ∧
      (op.mutates = true → operand.isAssign = false)
  | virtualCall receiver _ _ => receiver.isClosed = true
  | _ => True

/-- Each part of the tree belongs where the text puts it. -/
def Grouped (tree : Tree) : Prop := tree.Each Groups

variable {tree : Tree} {suffix : Suffix} {op : UnaryOp}

theorem isAssign_of_isClosed (closed : tree.isClosed = true) : tree.isAssign = false := by
  cases tree with
  | assign _ _ => cases closed
  | _ => rfl

theorem suffixed_of_isClosed (closed : tree.isClosed = true) :
    tree.suffixed suffix = suffix.on tree := by
  cases tree with
  | assign _ _ => cases closed
  | unary op operand =>
    have noPrefix : op.isPrefix = false := (Bool.not_eq_true' _).mp closed
    unfold suffixed
    rw [if_neg (Bool.eq_false_iff.mp noPrefix)]
  | _ => rfl

theorem prefixed_of_not_isAssign (other : tree.isAssign = false) :
    tree.prefixed op = unary op tree := by
  cases tree with
  | assign _ _ => cases other
  | _ => rfl

theorem assigned_of_not_isAssign (other : tree.isAssign = false) (behind : Tree) :
    tree.assigned behind = assign tree behind := by
  cases tree with
  | assign _ _ => cases other
  | _ => rfl

theorem isClosed_on (suffix : Suffix) (tree : Tree) : (suffix.on tree).isClosed = true := by
  cases suffix with
  | update op isPostfix =>
    show (!(op.mutates && !op.isPostfix)) = true
    rw [isPostfix, Bool.not_true, Bool.and_false]
    rfl
  | _ => rfl

theorem isClosed_suffixed (tree : Tree) (suffix : Suffix) :
    (tree.suffixed suffix).isClosed = tree.isClosed := by
  cases tree with
  | assign _ _ => rfl
  | unary op operand =>
    unfold suffixed
    split
    · rfl
    · rename_i other
      exact (isClosed_on suffix _).trans (by
        show true = !op.isPrefix
        rw [Bool.eq_false_iff.mpr other]
        rfl)
  | _ => exact isClosed_on suffix _

theorem isAssign_suffixed (tree : Tree) (suffix : Suffix) :
    (tree.suffixed suffix).isAssign = tree.isAssign := by
  cases tree with
  | assign _ _ => rfl
  | unary op operand =>
    unfold suffixed
    split
    · rfl
    · exact isAssign_of_isClosed (isClosed_on suffix _)
  | _ => exact isAssign_of_isClosed (isClosed_on suffix _)

namespace Grouped

theorem on (grouped : tree.Grouped) (closed : tree.isClosed = true)
    (each : ∀ arg ∈ suffix.args, arg.Grouped) : (suffix.on tree).Grouped := by
  cases suffix with
  | field name => exact ⟨closed, grouped⟩
  | call slot args => exact ⟨closed, grouped, allEach_iff.mpr each⟩
  | update op isPostfix => exact ⟨⟨fun _ => closed, fun _ => isAssign_of_isClosed closed⟩, grouped⟩

theorem suffixed (grouped : tree.Grouped) (each : ∀ arg ∈ suffix.args, arg.Grouped) :
    (tree.suffixed suffix).Grouped := by
  induction tree using induct with
  | assign target value _ step => exact ⟨grouped.1, grouped.2.1, step grouped.2.2⟩
  | unary op operand step =>
    unfold Tree.suffixed
    split
    · refine ⟨⟨fun isPostfix => ?_, fun mutates => ?_⟩, step grouped.2⟩
      · rw [isClosed_suffixed]
        exact grouped.1.1 isPostfix
      · rw [isAssign_suffixed]
        exact grouped.1.2 mutates
    · rename_i noPrefix
      refine grouped.on ?_ each
      show (!op.isPrefix) = true
      rw [Bool.eq_false_iff.mpr noPrefix]
      rfl
  | _ => exact grouped.on rfl each

theorem prefixed (grouped : tree.Grouped) (isPrefix : op.isPrefix = true) :
    (tree.prefixed op).Grouped := by
  have alone {tree : Tree} (other : tree.isAssign = false) (grouped : tree.Grouped) :
      (unary op tree).Grouped := by
    refine ⟨⟨fun isPostfix => ?_, fun _ => other⟩, grouped⟩
    exact absurd isPostfix (UnaryOp.isPrefix_iff.mp isPrefix).2
  cases tree with
  | assign target value =>
    show (assign (target.prefixed op) value).Grouped
    rw [prefixed_of_not_isAssign grouped.1]
    exact ⟨rfl, alone grouped.1 grouped.2.1, grouped.2.2⟩
  | _ => exact alone rfl grouped

theorem assigned (grouped : tree.Grouped) {behind : Tree} (groupedToo : behind.Grouped) :
    (tree.assigned behind).Grouped := by
  induction tree using induct with
  | assign target value _ step => exact ⟨grouped.1, grouped.2.1, step grouped.2.2⟩
  | _ => exact ⟨rfl, grouped, groupedToo⟩

end Grouped

/-- **What the text shows is grouped.** -/
theorem grouped_regroup (tree : Tree) : tree.regroup.Grouped := by
  have all {args : List Tree} (each : ∀ arg ∈ args, arg.regroup.Grouped) :
      ∀ arg ∈ regroupAll args, arg.Grouped := by
    rw [regroupAll_eq, List.forall_mem_map]
    exact each
  induction tree using induct with
  | localVar _ => trivial
  | int _ => trivial
  | field object name step => exact step.suffixed fun _ member => nomatch member
  | index array position stepArray stepPosition => exact ⟨trivial, stepArray, stepPosition⟩
  | assign target value stepTarget stepValue => exact stepTarget.assigned stepValue
  | binary op left right stepLeft stepRight => exact ⟨trivial, stepLeft, stepRight⟩
  | unary op operand step =>
    unfold regroup
    split
    · exact step.suffixed fun _ member => nomatch member
    · rename_i isPostfix
      split
      · rename_i mutates
        exact step.prefixed (UnaryOp.isPrefix_iff.mpr ⟨mutates, isPostfix⟩)
      · rename_i mutates
        exact ⟨⟨fun known => absurd known isPostfix, fun known => absurd known mutates⟩, step⟩
  | virtualCall receiver slot args step each => exact step.suffixed (all each)
  | qualifiedCall className method args each => exact ⟨trivial, allEach_iff.mpr (all each)⟩

/-- **Regrouping keeps exactly the trees that are grouped.** -/
theorem regroup_eq_iff : tree.regroup = tree ↔ tree.Grouped := by
  refine ⟨fun same => same ▸ tree.grouped_regroup, fun grouped => ?_⟩
  have all {args : List Tree} (each : ∀ arg ∈ args, arg.Grouped → arg.regroup = arg)
      (grouped : AllEach Groups args) : regroupAll args = args := by
    rw [regroupAll_eq]
    refine (List.map_congr_left fun arg member => ?_).trans (List.map_id args)
    exact each arg member (allEach_iff.mp grouped arg member)
  induction tree using induct with
  | localVar _ => rfl
  | int _ => rfl
  | field object name step =>
    unfold regroup
    rw [step grouped.2, suffixed_of_isClosed grouped.1]
    rfl
  | index array position stepArray stepPosition =>
    unfold regroup
    rw [stepArray grouped.2.1, stepPosition grouped.2.2]
  | assign target value stepTarget stepValue =>
    unfold regroup
    rw [stepTarget grouped.2.1, stepValue grouped.2.2, assigned_of_not_isAssign grouped.1]
  | binary op left right stepLeft stepRight =>
    unfold regroup
    rw [stepLeft grouped.2.1, stepRight grouped.2.2]
  | unary op operand step =>
    unfold regroup
    rw [step grouped.2]
    split
    · rename_i isPostfix
      rw [suffixed_of_isClosed (grouped.1.1 isPostfix)]
      rfl
    · split
      · rename_i mutates
        exact prefixed_of_not_isAssign (grouped.1.2 mutates)
      · rfl
  | virtualCall receiver slot args step each =>
    unfold regroup
    rw [step grouped.2.1, all each grouped.2.2, suffixed_of_isClosed grouped.1]
    rfl
  | qualifiedCall className method args each =>
    unfold regroup
    rw [all each grouped.2]

end Tree

end Cpp

end ObjectLowering
