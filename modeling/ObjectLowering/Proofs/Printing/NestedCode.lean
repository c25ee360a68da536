/-
**Printed code is nested.**

Each form closes the brackets that it opens: the parentheses of operations, casts and calls, the
square brackets of an element, and the braces of a statement expression, a block, a branch and a
loop. A head opens its brace on a line of its own, so the lines of a statement are read together, at
any level and in either layout. What is left are names, types and literals, which have no brackets
if the texts of the tree have none.

* `Lowered.Expr.texts`, `Lowered.Stmt.texts` are the names and literal texts of a tree.
* `Cpp.PlainOptions`: the texts of the options have no bracket.
* `Cpp.bracketFree_type`, `Cpp.nested_floatLiteral`, `Cpp.nested_charLiteral`, …: types and
  literals.
* `Cpp.nestedLines_braced`: a head, a body and what closes it.
* **`Cpp.nested_exprText`**, **`Cpp.nestedLines_stmtLines`**: expressions and statements.
-/

import ObjectLowering.Proofs.Printing.Brackets

namespace ObjectLowering

namespace Lowered

/-! ### The texts of a tree -/

mutual

/-- The names, string literals and character literals of an expression. -/
def Expr.texts : Expr → List String
  | .absent | .dangling => []
  | .int .. | .float .. | .bool .. | .null _ => []
  | .char _ value => [String.singleton value]
  | .str _ text => [text]
  | .localVar _ name => [name]
  | .field _ object name => name :: object.texts
  | .staticField _ className name => [className, name]
  | .length _ only | .unary _ _ only => only.texts
  | .index _ first second | .assign _ first second | .binary _ _ first second =>
    first.texts ++ second.texts
  | .cast _ type operand => type.mentions ++ operand.texts
  | .instanceOf _ operand className => className :: operand.texts
  | .alloc _ className | .identity _ className => [className]
  | .initCall _ className args => className :: Expr.textsOfList args
  | .qualifiedCall _ className method args => className :: method :: Expr.textsOfList args
  | .virtualCall _ receiver name args | .directCall _ receiver name args
  | .unresolvedCall _ receiver name args => name :: (receiver.texts ++ Expr.textsOfList args)
  | .check _ _ args | .print _ _ args => Expr.textsOfList args
  | .arrayAlloc _ element size => element.mentions ++ size.texts
  | .block _ body result => Stmt.textsOfList body ++ result.texts

/-- The names and literal texts of several expressions. -/
def Expr.textsOfList : List Expr → List String
  | [] => []
  | expr :: rest => expr.texts ++ Expr.textsOfList rest

/-- The names, string literals and character literals of a statement. -/
def Stmt.texts : Stmt → List String
  | .absent | .dangling => []
  | .eval expr => expr.texts
  | .localVar type name init => name :: (type.mentions ++ init.texts)
  | .block body => Stmt.textsOfList body
  | .branch cond yes no => cond.texts ++ (yes.texts ++ no.texts)
  | .whileLoop cond body => cond.texts ++ body.texts
  | .forLoop init cond update body =>
    Stmt.textsOfList init ++ (cond.texts ++ (Expr.textsOfList update ++ body.texts))
  | .ret value => value.texts

/-- The names and literal texts of several statements. -/
def Stmt.textsOfList : List Stmt → List String
  | [] => []
  | stmt :: rest => stmt.texts ++ Stmt.textsOfList rest

end

end Lowered

namespace Text

/-! ### Texts without brackets -/

/-- No text has a bracket. -/
abbrev AllFree (texts : List String) : Prop := ∀ text ∈ texts, BracketFree text

variable {char : Char} {text : String} {texts others : List String}

theorem allFree_cons : AllFree (text :: texts) ↔ BracketFree text ∧ AllFree texts :=
  List.forall_mem_cons

theorem allFree_append : AllFree (texts ++ others) ↔ AllFree texts ∧ AllFree others :=
  List.forall_mem_append

theorem allFree_singleton : AllFree [text] ↔ BracketFree text := List.forall_mem_singleton

theorem mem_of_isBracket (bracket : isBracket char = true) :
    char ∈ ['(', '[', '\x7b', ')', ']', '\x7d'] := by
  unfold isBracket closing? at bracket
  split at bracket
  · decide
  · decide
  · decide
  · rcases eq_of_isClosing bracket with rfl | rfl | rfl <;> decide

theorem isBracket_of_isDigit (digit : char.isDigit = true) : isBracket char = false := by
  rw [← Bool.not_eq_true]
  intro bracket
  have none : ['(', '[', '\x7b', ')', ']', '\x7d'].all (!·.isDigit) = true := by decide
  have known := List.all_eq_true.mp none char (mem_of_isBracket bracket)
  rw [digit] at known
  cases known

theorem bracketFree_nat (value : Nat) : BracketFree (toString value) := by
  intro char inside
  have digits : (toString value).toList = Nat.toDigits 10 value := Nat.toList_repr
  rw [digits] at inside
  exact isBracket_of_isDigit
    (Nat.isDigit_of_mem_toDigits (Nat.succ_pos 9) (Nat.le_refl 10) inside)

theorem bracketFree_int (value : Int) : BracketFree (toString value) := by
  cases value with
  | ofNat value => exact bracketFree_nat value
  | negSucc value =>
    have sign : BracketFree "-" := by decide
    exact sign.append (bracketFree_nat _)

theorem isBracket_hexDigit {value : Nat} (small : value < 16) :
    isBracket (hexDigit value) = false := by
  have each : ∀ value < 16, isBracket (hexDigit value) = false := by decide
  exact each value small

theorem bracketFree_escapeChar (quote : Char) (free : isBracket char = false) :
    ∀ shown ∈ escapeChar quote char, isBracket shown = false := by
  have low := isBracket_hexDigit (Nat.mod_lt (char.toNat / 16) (Nat.succ_pos 15))
  have high := isBracket_hexDigit (Nat.mod_lt char.toNat (Nat.succ_pos 15))
  unfold escapeChar
  repeat' split
  any_goals exact List.forall_mem_cons.mpr ⟨rfl, List.forall_mem_singleton.mpr rfl⟩
  · rw [List.forall_mem_cons, List.forall_mem_singleton]
    exact ⟨rfl, free⟩
  · unfold hexByte
    rw [List.forall_mem_cons, List.forall_mem_cons, List.forall_mem_cons, List.forall_mem_singleton]
    exact ⟨rfl, rfl, low, high⟩
  · exact List.forall_mem_singleton.mpr free

theorem bracketFree_escape (quote : Char) (free : BracketFree text) :
    BracketFree (escape quote text) := by
  unfold escape
  rw [bracketFree_ofList]
  intro shown inside
  obtain ⟨char, member, inside⟩ := List.mem_flatMap.mp inside
  exact bracketFree_escapeChar quote (free char member) shown inside

theorem bracketFree_decimalText (decimal : Decimal) : BracketFree (decimalText decimal) := by
  have digits := bracketFree_nat decimal.digits
  have taken (count : Nat) :
      BracketFree (String.ofList ((toString decimal.digits).toList.take count)) :=
    bracketFree_ofList.mpr fun char inside => digits char (List.mem_of_mem_take inside)
  have dropped (count : Nat) :
      BracketFree (String.ofList ((toString decimal.digits).toList.drop count)) :=
    bracketFree_ofList.mpr fun char inside => digits char (List.mem_of_mem_drop inside)
  have zeros (count : Nat) : BracketFree ("".pushn '0' count) := bracketFree_pushn rfl count
  have point : BracketFree "." := by decide
  unfold decimalText
  dsimp only
  split
  · refine (((taken 1).append ?_).append (by decide)).append (bracketFree_int _)
    split
    · decide
    · exact point.append (dropped 1)
  · split
    · have front : BracketFree "0." := by decide
      exact (front.append (zeros _)).append digits
    · split
      · exact (digits.append (zeros _)).append (by decide)
      · exact ((taken _).append point).append (dropped _)

theorem bracketFree_floatText (bits : UInt64) : BracketFree (floatText bits) := by
  unfold floatText
  refine BracketFree.append ?_ ?_
  · split <;> decide
  · split
    · decide
    · exact bracketFree_decimalText _

end Text

namespace Cpp

open Lowered (Expr Stmt)
open Text

/-- The texts of the options have no bracket. -/
structure PlainOptions (options : EmitOptions) : Prop where
  runtime : BracketFree options.runtime
  runtimeHeader : BracketFree options.runtimeHeader

variable {options : EmitOptions} {text other name className : String} {texts : List String}

/-! ### Names and types -/

theorem bracketFree_runtimeName (plain : PlainOptions options) (free : BracketFree name) :
    BracketFree (options.runtimeName name) := (plain.runtime.append (by decide)).append free

theorem bracketFree_classScoped (plain : PlainOptions options) (free : BracketFree name) :
    BracketFree (options.classScoped className name) := by
  unfold EmitOptions.classScoped
  split
  · exact bracketFree_runtimeName plain free
  · exact free

theorem bracketFree_classRef (plain : PlainOptions options) (free : BracketFree className) :
    BracketFree (options.classRef className) := bracketFree_classScoped plain free

theorem bracketFree_structName (plain : PlainOptions options) (free : BracketFree className) :
    BracketFree (options.structName className) := by
  have dunder : BracketFree "__" := by decide
  exact bracketFree_classScoped plain (dunder.append free)

theorem bracketFree_vtableName (plain : PlainOptions options) (free : BracketFree className) :
    BracketFree (options.vtableName className) :=
  (bracketFree_structName plain free).append (by decide)

theorem bracketFree_type (plain : PlainOptions options) {type : Ty} (free : AllFree type.mentions) :
    BracketFree (options.type type) := by
  induction type with
  | «class» name => exact bracketFree_classRef plain (free name List.mem_cons_self)
  | array element step =>
    have array : BracketFree (options.runtimeName "Array<") :=
      bracketFree_runtimeName plain (by decide)
    exact (array.append (step free)).append (by decide)
  | null => exact bracketFree_classRef plain (by decide)
  | _ =>
    unfold EmitOptions.type
    decide

theorem bracketFree_arrayStruct (plain : PlainOptions options) {element : Ty}
    (free : AllFree element.mentions) : BracketFree (options.arrayStruct element) := by
  have array : BracketFree (options.runtimeName "__Array<") :=
    bracketFree_runtimeName plain (by decide)
  exact (array.append (bracketFree_type plain free)).append (by decide)

/-- A name behind its type. -/
theorem bracketFree_typed (plain : PlainOptions options) {type : Ty} (free : AllFree type.mentions)
    (named : BracketFree name) : BracketFree (options.type type ++ " " ++ name) := by
  have blank : BracketFree " " := by decide
  exact ((bracketFree_type plain free).append blank).append named

theorem bracketFree_scope (free : BracketFree text) (freeToo : BracketFree other) :
    BracketFree (scope text other) := (free.append (by decide)).append freeToo

/-! ### Literals -/

theorem bracketFree_quoted (free : BracketFree text) : BracketFree (quoted text) := by
  have quote : BracketFree "\"" := by decide
  exact (quote.append (bracketFree_escape _ free)).append quote

theorem bracketFree_intLiteral (value : Int) : BracketFree (intLiteral value) := by
  refine (bracketFree_int value).append ?_
  split <;> decide

theorem nested_floatLiteral (bits : UInt64) : Nested (floatLiteral bits) := by
  unfold floatLiteral
  split
  · decide
  · split
    · split <;> decide
    · exact (bracketFree_floatText bits).nested

theorem nested_charLiteral {char : Char} (free : BracketFree (String.singleton char)) :
    Nested (charLiteral char) := by
  unfold charLiteral
  split
  · have quote : BracketFree (String.singleton singleQuote) := by decide
    exact ((quote.append (bracketFree_escape _ free)).append quote).nested
  · have kind : Nested "(char) " := by decide
    exact kind.append (bracketFree_nat _).nested

/-! ### Forms -/

theorem nested_parenthesized (nested : Nested text) : Nested (parenthesized text) := by
  have opens : Moves [] [')'] "(" := rfl
  exact nested.between opens rfl

theorem nested_commas (each : ∀ text ∈ texts, Nested text) : Nested (commas texts) :=
  nested_intercalate (by decide) each

theorem nested_callText (callee : Nested text) (each : ∀ arg ∈ texts, Nested arg) :
    Nested (callText text texts) := callee.append (nested_parenthesized (nested_commas each))

/-- A call of a function of the run-time library. -/
theorem nested_runtimeCall (plain : PlainOptions options) (free : BracketFree name)
    (each : ∀ text ∈ texts, Nested text) :
    Nested (callText (options.runtimeName name) texts) :=
  nested_callText (bracketFree_runtimeName plain free).nested each

/-- A call of a member of a class. -/
theorem nested_scopedCall (plain : PlainOptions options) (classFree : BracketFree className)
    (free : BracketFree name) (each : ∀ text ∈ texts, Nested text) :
    Nested (callText (scope (options.structName className) name) texts) :=
  nested_callText (bracketFree_scope (bracketFree_structName plain classFree) free).nested each

theorem nested_arrow (object : Nested text) (member : BracketFree name) :
    Nested (arrow text name) := (object.append (by decide)).append member.nested

theorem nested_arrowIfPresent {object : Option String} (each : ∀ shown ∈ object, Nested shown)
    (member : BracketFree name) : Nested (arrowIfPresent object name) := by
  cases object with
  | none => exact member.nested
  | some object => exact nested_arrow (each object rfl) member

theorem nested_unaryText (op : UnaryOp) (nested : Nested text) : Nested (unaryText op text) := by
  have symbol : Nested op.symbol := by cases op <;> decide
  unfold unaryText
  split
  · exact nested.append symbol
  · split
    · exact symbol.append nested
    · exact nested_parenthesized (symbol.append nested)

theorem nested_binaryText (op : BinaryOp) (nested : Nested text) (nestedToo : Nested other) :
    Nested (binaryText op text other) := by
  have symbol : Nested op.symbol := by cases op <;> decide
  have blank : Nested " " := by decide
  exact nested_parenthesized ((((nested.append blank).append symbol).append blank).append nestedToo)

theorem nested_castText (plain : PlainOptions options) {type : Ty} (free : AllFree type.mentions)
    (nested : Nested text) : Nested (castText options type text) := by
  have shown := bracketFree_type plain free
  unfold castText
  split
  · have cast : BracketFree (options.runtimeName "java_cast<") :=
      bracketFree_runtimeName plain (by decide)
    exact ((cast.append shown).append (by decide)).nested.append (nested_parenthesized nested)
  · refine nested_parenthesized (Nested.append ?_ nested)
    exact (nested_parenthesized shown.nested).append (by decide)

theorem nested_identityText (plain : PlainOptions options) (free : BracketFree className) :
    Nested (identityText options className) :=
  nested_scopedCall plain free (by decide) (List.forall_mem_nil _)

theorem nested_printText (newline : Bool) (each : ∀ text ∈ texts, Nested text) :
    Nested (printText newline texts) := by
  have sign : Nested " << " := by decide
  have stream : Nested "std::cout" := by decide
  refine (stream.append (nested_join ?_)).append ?_
  · exact List.forall_mem_map.mpr fun text inside => sign.append (each text inside)
  · split <;> decide

theorem nested_localText (plain : PlainOptions options) {type : Ty} (free : AllFree type.mentions)
    (named : BracketFree name) {init : Option String} (each : ∀ shown ∈ init, Nested shown) :
    Nested (localText options type name init) := by
  have declared := (bracketFree_typed plain free named).nested
  unfold localText
  cases init with
  | none => exact declared
  | some init => exact (declared.append (by decide)).append (each init rfl)

/-- Lines on one line between the brackets of a statement expression. -/
theorem nested_blockText {body : List Line} (lines : NestedLines body) {result : Option String}
    (each : ∀ shown ∈ result, Nested shown) : Nested (blockText body result) := by
  have opens : Moves [] ['\x7d', ')'] "(\x7b " := rfl
  have closes : Moves ['\x7d', ')'] [] "\x7d)" := rfl
  have inside : Nested (Style.oneLine.layOut body) := lines [] .oneLine
  unfold blockText
  refine ((opens.append (inside.moves _)).append (Nested.moves ?_ _)).append closes
  cases result with
  | none => exact nested_empty
  | some result => exact (each result rfl).append (by decide)

theorem nested_ifPresent (expr : Expr) (nested : Nested text) :
    ∀ shown ∈ ifPresent expr text, Nested shown := by
  intro shown inside
  unfold ifPresent at inside
  split at inside
  · cases inside
  · cases inside
    exact nested

/-! ### Lines between braces -/

variable {before middle after : List Char} {body tail : List Line}

theorem linesMove_braced {level : Nat} (head : Moves before middle text) (lines : NestedLines body)
    (closes : LinesMove ('\x7d' :: middle) after tail) :
    LinesMove before after (bracedLines level text body tail) := by
  have opens : Moves middle ('\x7d' :: middle) "\x7b" := rfl
  exact ((LinesMove.cons (head.append opens) (lines _))).append closes

theorem closes_closing (level : Nat) : LinesMove ('\x7d' :: middle) middle (closing level) :=
  .single rfl

/-- A head, its body and the brace that closes it. -/
theorem nestedLines_braced {level : Nat} (head : Nested text) (lines : NestedLines body) :
    NestedLines (bracedLines level text body (closing level)) :=
  fun awaited => linesMove_braced (head.moves awaited) lines (closes_closing level)

theorem nestedLines_single {level : Nat} (nested : Nested text) : NestedLines [⟨level, text⟩] :=
  fun awaited => .single (nested.moves awaited)

/-- The second part of a branch closes the brace of the first. -/
theorem closes_else {level : Nat} (lines : NestedLines body) :
    LinesMove ('\x7d' :: middle) middle
      (bracedLines level "\x7d else " body (closing level)) := by
  have closes : Moves ('\x7d' :: middle) middle "\x7d else " := rfl
  exact linesMove_braced closes lines (closes_closing level)

theorem nested_headed {keyword : String} (known : Nested keyword) (nested : Nested text) :
    Nested (keyword ++ parenthesized text ++ " ") :=
  (known.append (nested_parenthesized nested)).append (by decide)

theorem nested_ended (nested : Nested text) : Nested (text ++ ";") := nested.append (by decide)

end Cpp

open Text Cpp Lowered

variable {options : EmitOptions}

/-! ### Trees -/

mutual

/-- **The text of an expression is nested.** -/
theorem Cpp.nested_exprText (plain : PlainOptions options) :
    ∀ expr : Expr, AllFree expr.texts → Nested (exprText options expr)
  | .absent, _ | .dangling, _ => nested_empty
  | .int _ value, _ => (bracketFree_intLiteral value).nested
  | .float _ bits, _ => nested_floatLiteral bits
  | .bool _ value, _ => by
    unfold exprText
    split <;> decide
  | .char _ value, free => nested_charLiteral (free _ List.mem_cons_self)
  | .str _ text, free => by
    have shown := (bracketFree_quoted (free text List.mem_cons_self)).nested
    exact nested_runtimeCall plain (by decide) (List.forall_mem_singleton.mpr shown)
  | .null _, _ => nested_runtimeCall plain (by decide) (List.forall_mem_nil _)
  | .localVar _ name, free => (free name List.mem_cons_self).nested
  | .field _ object name, free => by
    rw [Expr.texts, allFree_cons] at free
    exact nested_arrow (Cpp.nested_exprText plain object free.2) free.1
  | .staticField _ className name, free => by
    rw [Expr.texts, allFree_cons] at free
    have named := free.2 name List.mem_cons_self
    exact (bracketFree_scope (bracketFree_structName plain free.1) named).nested
  | .length _ array, free => nested_arrow (Cpp.nested_exprText plain array free) (by decide)
  | .index _ array position, free => by
    rw [Expr.texts, allFree_append] at free
    have star : Nested "*" := by decide
    have opens : Moves [] [']'] "[" := rfl
    have first := nested_parenthesized (star.append (Cpp.nested_exprText plain array free.1))
    have second := Cpp.nested_exprText plain position free.2
    exact ((first.moves []).append opens |>.append (second.moves _)).append rfl
  | .assign _ target value, free => by
    rw [Expr.texts, allFree_append] at free
    have sign : Nested " = " := by decide
    exact ((Cpp.nested_exprText plain target free.1).append sign).append
      (Cpp.nested_exprText plain value free.2)
  | .binary _ op left right, free => by
    rw [Expr.texts, allFree_append] at free
    exact nested_binaryText op (Cpp.nested_exprText plain left free.1)
      (Cpp.nested_exprText plain right free.2)
  | .unary _ op operand, free => nested_unaryText op (Cpp.nested_exprText plain operand free)
  | .cast _ type operand, free => by
    rw [Expr.texts, allFree_append] at free
    exact nested_castText plain free.1 (Cpp.nested_exprText plain operand free.2)
  | .instanceOf _ operand className, free => by
    rw [Expr.texts, allFree_cons] at free
    refine nested_runtimeCall plain (by decide) ?_
    rw [List.forall_mem_cons, List.forall_mem_singleton]
    exact ⟨Cpp.nested_exprText plain operand free.2, nested_identityText plain free.1⟩
  | .alloc _ className, free => by
    have made : Nested "new " := by decide
    have struct := (bracketFree_structName plain (free className List.mem_cons_self)).nested
    exact nested_callText (made.append struct) (List.forall_mem_nil _)
  | .initCall _ className args, free => by
    rw [Expr.texts, allFree_cons] at free
    exact nested_scopedCall plain free.1 (by decide) (Cpp.nested_exprTexts plain args free.2)
  | .virtualCall _ receiver slot args, free => by
    rw [Expr.texts, allFree_cons, allFree_append] at free
    have table := nested_arrow (Cpp.nested_exprText plain receiver free.2.1)
      (by decide : BracketFree "__vptr")
    exact nested_callText (nested_arrow table free.1) (Cpp.nested_exprTexts plain args free.2.2)
  | .qualifiedCall _ className method args, free => by
    rw [Expr.texts, allFree_cons, allFree_cons] at free
    exact nested_scopedCall plain free.1 free.2.1 (Cpp.nested_exprTexts plain args free.2.2)
  | .directCall _ receiver method args, free | .unresolvedCall _ receiver method args, free => by
    rw [Expr.texts, allFree_cons, allFree_append] at free
    have present := nested_ifPresent receiver (Cpp.nested_exprText plain receiver free.2.1)
    exact nested_callText (nested_arrowIfPresent present free.1)
      (Cpp.nested_exprTexts plain args free.2.2)
  | .check _ kind args, free => by
    have named : BracketFree kind.runtimeName := by cases kind <;> decide
    exact nested_runtimeCall plain named (Cpp.nested_exprTexts plain args free)
  | .arrayAlloc _ element size, free => by
    rw [Expr.texts, allFree_append] at free
    have made : Nested "new " := by decide
    have struct := (bracketFree_arrayStruct plain free.1).nested
    exact nested_callText (made.append struct)
      (List.forall_mem_singleton.mpr (Cpp.nested_exprText plain size free.2))
  | .identity _ className, free => nested_identityText plain (free className List.mem_cons_self)
  | .print _ newline args, free => nested_printText newline (Cpp.nested_exprTexts plain args free)
  | .block _ body result, free => by
    rw [Expr.texts, allFree_append] at free
    exact nested_blockText (Cpp.nestedLines_stmtsLines plain 0 body free.1)
      (nested_ifPresent result (Cpp.nested_exprText plain result free.2))

theorem Cpp.nested_exprTexts (plain : PlainOptions options) :
    ∀ exprs : List Expr, AllFree (Expr.textsOfList exprs) →
      ∀ text ∈ exprTexts options exprs, Nested text
  | [], _ => List.forall_mem_nil _
  | expr :: rest, free => by
    rw [Expr.textsOfList, allFree_append] at free
    exact List.forall_mem_cons.mpr
      ⟨Cpp.nested_exprText plain expr free.1, Cpp.nested_exprTexts plain rest free.2⟩

/-- **The lines of a statement are nested.** -/
theorem Cpp.nestedLines_stmtLines (plain : PlainOptions options) (level : Nat) (braced : Bool) :
    ∀ stmt : Stmt, AllFree stmt.texts → NestedLines (stmtLines options level braced stmt)
  | .absent, _ | .dangling, _ => fun _ => .nil
  | .eval expr, free => nestedLines_single (nested_ended (Cpp.nested_exprText plain expr free))
  | .localVar type name init, free => by
    rw [Stmt.texts, allFree_cons, allFree_append] at free
    have value := nested_ifPresent init (Cpp.nested_exprText plain init free.2.2)
    exact nestedLines_single (nested_ended (nested_localText plain free.2.1 free.1 value))
  | .block body, free => by
    unfold stmtLines
    split
    · exact nestedLines_braced nested_empty (Cpp.nestedLines_stmtsLines plain (level + 1) body free)
    · exact Cpp.nestedLines_stmtsLines plain level body free
  | .branch cond yes no, free => by
    rw [Stmt.texts, allFree_append, allFree_append] at free
    have head := nested_headed (by decide : Nested "if ") (Cpp.nested_exprText plain cond free.1)
    have first := Cpp.nestedLines_stmtLines plain (level + 1) false yes free.2.1
    have second := Cpp.nestedLines_stmtLines plain (level + 1) false no free.2.2
    unfold stmtLines
    split
    · exact nestedLines_braced head first
    · exact fun awaited => linesMove_braced (head.moves awaited) first (closes_else second)
  | .whileLoop cond body, free => by
    rw [Stmt.texts, allFree_append] at free
    have head := nested_headed (by decide : Nested "while ")
      (Cpp.nested_exprText plain cond free.1)
    exact nestedLines_braced head (Cpp.nestedLines_stmtLines plain (level + 1) false body free.2)
  | .forLoop init cond update body, free => by
    rw [Stmt.texts, allFree_append, allFree_append, allFree_append] at free
    have clauses := nested_commas (Cpp.nested_clauseTexts plain init free.1)
    have condition := Cpp.nested_exprText plain cond free.2.1
    have updates := nested_commas (Cpp.nested_exprTexts plain update free.2.2.1)
    have separator : Nested "; " := by decide
    have parts := (((clauses.append separator).append condition).append separator).append updates
    exact nestedLines_braced (nested_headed (by decide : Nested "for ") parts)
      (Cpp.nestedLines_stmtLines plain (level + 1) false body free.2.2.2)
  | .ret value, free => by
    have keyword : Nested "return " := by decide
    unfold stmtLines
    split
    · exact nestedLines_single (by decide)
    · exact nestedLines_single
        (nested_ended (keyword.append (Cpp.nested_exprText plain value free)))

theorem Cpp.nestedLines_stmtsLines (plain : PlainOptions options) (level : Nat) :
    ∀ stmts : List Stmt, AllFree (Stmt.textsOfList stmts) →
      NestedLines (stmtsLines options level stmts)
  | [], _ => fun _ => .nil
  | stmt :: rest, free => by
    rw [Stmt.textsOfList, allFree_append] at free
    exact (Cpp.nestedLines_stmtLines plain level true stmt free.1).append
      (Cpp.nestedLines_stmtsLines plain level rest free.2)

theorem Cpp.nested_clauseText (plain : PlainOptions options) :
    ∀ stmt : Stmt, AllFree stmt.texts → Nested (clauseText options stmt)
  | .eval expr, free => Cpp.nested_exprText plain expr free
  | .localVar type name init, free => by
    rw [Stmt.texts, allFree_cons, allFree_append] at free
    have value := nested_ifPresent init (Cpp.nested_exprText plain init free.2.2)
    exact nested_localText plain free.2.1 free.1 value
  | .absent, _ | .dangling, _ | .block _, _ | .branch .., _ | .whileLoop .., _ => nested_empty
  | .forLoop .., _ | .ret _, _ => nested_empty

theorem Cpp.nested_clauseTexts (plain : PlainOptions options) :
    ∀ stmts : List Stmt, AllFree (Stmt.textsOfList stmts) →
      ∀ text ∈ clauseTexts options stmts, Nested text
  | [], _ => List.forall_mem_nil _
  | stmt :: rest, free => by
    rw [Stmt.textsOfList, allFree_append] at free
    exact List.forall_mem_cons.mpr
      ⟨Cpp.nested_clauseText plain stmt free.1, Cpp.nested_clauseTexts plain rest free.2⟩

end

end ObjectLowering
