/-
**Printed files are nested.**

The header and the body of a unit open a struct, a routine or a namespace on one line and close it
on another, the innermost first. So if no name, path or literal of a unit has a bracket, and no text
of the options, the brackets of both files are properly nested and closed.

* `Lowered.CodeUnit.texts` are the names, paths and literal texts from which a unit is printed.
* `Cpp.bracketFree_headerName`: the name of a header is part of a path.
* `Cpp.nestedLines_dataStruct`, `Cpp.nestedLines_vtableStruct`, `Cpp.nestedLines_classLines`:
  classes.
* `Cpp.linesMove_openNamespaces`, `Cpp.linesMove_closeNamespaces`: what namespaces await.
* **`emitted_brackets_nested`**: the files of a unit.
-/

import ObjectLowering.Proofs.Construction.InitRuns
import ObjectLowering.Proofs.Printing.NestedCode
import ObjectLowering.Proofs.Printing.Printable

namespace ObjectLowering

open Text

/-! ### The texts of a unit -/

/-- The names in a slot that are printed. -/
def VtableSlot.texts (slot : VtableSlot) : List String :=
  slot.name :: slot.declaredIn :: (slot.ret.mentions ++ slot.params.flatMap Ty.mentions)

def SlotBinding.texts (binding : SlotBinding) : List String :=
  [binding.slot, binding.owner, binding.implName]

def Source.Param.texts (param : Source.Param) : List String := param.name :: param.type.mentions

namespace Lowered

def DataMember.texts : DataMember → List String
  | .vtablePtr => []
  | .field name type _ => name :: type.mentions

def MemberInit.texts : MemberInit Expr → List String
  | .vtablePtr => []
  | .field name value => name :: value.texts

def StaticStorage.texts (storage : StaticStorage Expr) : List String :=
  storage.name :: (storage.type.mentions ++ storage.init.texts)

def Method.texts (method : Method Stmt) : List String :=
  method.name :: (method.ret.mentions ++ (method.params.flatMap (·.texts) ++ method.body.texts))

/-- The names and literal texts from which a class is printed. -/
def ClassLayout.texts (layout : ClassLayout Expr Stmt) : List String :=
  layout.name :: layout.identity.qualified :: layout.identity.parent ::
    (layout.data.flatMap (·.texts) ++ (layout.statics.flatMap (·.texts) ++
      (layout.slots.flatMap (·.texts) ++ (layout.bindings.flatMap (·.texts) ++
        (layout.ctor.flatMap (·.texts) ++ layout.routines.flatMap (·.texts))))))

/-- The names, paths and literal texts from which a unit is printed. -/
def CodeUnit.texts (unit : TreeUnit) : List String :=
  unit.path :: (unit.package ++ (unit.imports ++ unit.classes.flatMap (·.texts)))

end Lowered

/-! ### Names of headers -/

namespace Source.Path

theorem subset_of_segments {chars : List Char} : ∀ segment ∈ segments chars, segment ⊆ chars := by
  induction chars with
  | nil =>
    intro segment inside
    cases List.mem_singleton.mp inside
    exact List.nil_subset _
  | cons char rest step =>
    unfold segments
    split
    · rw [List.forall_mem_cons]
      refine ⟨List.nil_subset _, fun segment inside => ?_⟩
      exact List.subset_cons_of_subset _ (step segment inside)
    · cases split : segments rest with
      | nil =>
        intro segment inside
        cases List.mem_singleton.mp inside
        exact List.cons_subset_cons _ (List.nil_subset _)
      | cons first more =>
        rw [split, List.forall_mem_cons] at step
        rw [List.forall_mem_cons]
        refine ⟨List.cons_subset_cons _ step.1, fun segment inside => ?_⟩
        exact List.subset_cons_of_subset _ (step.2 segment inside)

theorem toList_of_inner? {segment : List Char} {name : String}
    (named : inner? segment = some (.normal name)) : name.toList = segment := by
  unfold inner? at named
  split at named
  · cases named
  · split at named
    · cases named
    · cases named
      exact String.toList_ofList

theorem toList_of_first? {segment : List Char} {name : String}
    (named : first? segment = some (.normal name)) : name.toList = segment := by
  unfold first? at named
  split at named
  · cases named
  · exact toList_of_inner? named

/-- A name in a path is one of the stretches between its slashes. -/
theorem mem_segments_of_normal {path name : String} (named : .normal name ∈ components path) :
    name.toList ∈ segments path.toList := by
  have behind {rest : List (List Char)} (inside : .normal name ∈ rest.filterMap inner?) :
      name.toList ∈ rest := by
    obtain ⟨segment, member, here⟩ := List.mem_filterMap.mp inside
    rw [toList_of_inner? here]
    exact member
  have front {segment : List Char} (inside : .normal name ∈ (first? segment).toList) :
      name.toList = segment := toList_of_first? (Option.mem_toList.mp inside)
  unfold components at named
  split at named
  · cases named
  · rename_i segment shape
    rw [shape, front named]
    exact List.mem_singleton_self _
  · rename_i rest shape
    rw [shape]
    cases List.mem_cons.mp named with
    | inl root => cases root
    | inr inside => exact List.mem_cons_of_mem _ (behind inside)
  · rename_i segment rest _ _ shape
    rw [shape]
    cases List.mem_append.mp named with
    | inl inside =>
      rw [front inside]
      exact List.mem_cons_self
    | inr inside => exact List.mem_cons_of_mem _ (behind inside)

theorem withoutExtension_subset (name : List Char) : withoutExtension name ⊆ name := by
  unfold withoutExtension
  split
  · exact List.Subset.refl _
  · exact List.Subset.refl _
  · rename_i before shape
    intro char inside
    have kept : char ∈ name.reverse.dropWhile (· != '.') := by
      rw [shape]
      exact List.mem_cons_of_mem _ (List.mem_reverse.mp inside)
    exact List.mem_reverse.mp ((List.dropWhile_sublist _).subset kept)

theorem bracketFree_stem? {path stem : String} (free : BracketFree path)
    (found : stem? path = some stem) : BracketFree stem := by
  unfold stem? at found
  split at found
  · rename_i name last
    cases found
    rw [bracketFree_ofList]
    intro char inside
    have segment := mem_segments_of_normal (List.mem_of_getLast? last)
    exact free char (subset_of_segments _ segment (withoutExtension_subset _ inside))
  · cases found

end Source.Path

namespace Cpp

open Lowered (Expr Stmt DataMember MemberInit StaticStorage Method ClassLayout TreeUnit)

variable {options : EmitOptions} {text : String} {awaited : List Char}

theorem bracketFree_headerName {path : String} (free : BracketFree path) :
    BracketFree (headerName path) := by
  refine BracketFree.append ?_ (by decide)
  cases found : Source.Path.stem? path with
  | none => decide
  | some stem => exact Source.Path.bracketFree_stem? free found

theorem nested_includeLine {header : String} (free : BracketFree header) :
    Nested (includeLine header).text := by
  have front : BracketFree "#include \"" := by decide
  exact ((front.append free).append (by decide)).nested

/-- A head that opens a brace for the lines behind it. -/
theorem moves_head (nested : Nested text) :
    Moves awaited ('\x7d' :: awaited) (text ++ " \x7b") := by
  have opens : Moves awaited ('\x7d' :: awaited) " \x7b" := rfl
  exact (nested.moves awaited).append opens

theorem linesMove_of_forall {lines : List Line} (each : ∀ line ∈ lines, Nested line.text) :
    LinesMove awaited awaited lines := nestedLines_of_forall each awaited

theorem linesMove_map {α : Type} {items : List α} {level : Nat} {shown : α → String}
    (each : ∀ item ∈ items, Nested (shown item)) :
    LinesMove awaited awaited (items.map fun item => ⟨level, shown item⟩) :=
  linesMove_of_forall (List.forall_mem_map.mpr each)

/-! ### Namespaces -/

theorem linesMove_openNames (names : List Name) (free : AllFree names) :
    LinesMove awaited (List.replicate names.length '\x7d' ++ awaited)
      (names.map fun name => ⟨0, "namespace " ++ name ++ " \x7b"⟩) := by
  induction names generalizing awaited with
  | nil => exact .nil
  | cons name rest step =>
    rw [allFree_cons] at free
    have keyword : BracketFree "namespace " := by decide
    rw [List.length_cons, List.replicate_succ', List.append_assoc]
    exact .cons (moves_head (keyword.append free.1).nested) (step free.2)

theorem linesMove_closeNames (names : List Name) (free : AllFree names) :
    LinesMove (List.replicate names.length '\x7d' ++ awaited) awaited
      (names.map fun name => ⟨0, "\x7d // namespace " ++ name⟩) := by
  induction names with
  | nil => exact .nil
  | cons name rest step =>
    rw [allFree_cons] at free
    have closes (behind : List Char) : Moves ('\x7d' :: behind) behind "\x7d // namespace " := rfl
    rw [List.length_cons, List.replicate_succ]
    exact .cons ((closes _).append (free.1.moves _)) (step free.2)

theorem allFree_namespacesOf (options : EmitOptions) {package : List Name}
    (free : AllFree package) : AllFree (namespacesOf options package) := by
  unfold namespacesOf
  split
  · exact free
  · exact List.forall_mem_nil _

/-- The braces that the namespaces of a package await. -/
def namespaceBraces (options : EmitOptions) (package : List Name) : List Char :=
  List.replicate (namespacesOf options package).length '\x7d'

theorem linesMove_openNamespaces (options : EmitOptions) {package : List Name}
    (free : AllFree package) :
    LinesMove awaited (namespaceBraces options package ++ awaited)
      (openNamespaces options package) := by
  refine (linesMove_openNames _ (allFree_namespacesOf options free)).append ?_
  split
  · exact .nil
  · exact .blank

theorem linesMove_closeNamespaces (options : EmitOptions) {package : List Name}
    (free : AllFree package) :
    LinesMove (namespaceBraces options package ++ awaited) awaited
      (closeNamespaces options package) := by
  unfold closeNamespaces namespaceBraces
  rw [← List.length_reverse]
  refine linesMove_closeNames _ fun name inside => ?_
  exact allFree_namespacesOf options free name (List.mem_reverse.mp inside)

/-! ### Declarations -/

variable (plain : PlainOptions options)
include plain

theorem nested_signature {name : String} (named : BracketFree name) {method : Method Stmt}
    (free : AllFree method.texts) : Nested (signature options name method) := by
  unfold Method.texts at free
  rw [allFree_cons, allFree_append, allFree_append] at free
  have blank : BracketFree " " := by decide
  refine ((bracketFree_type plain free.2.1).append blank).nested.append ?_
  refine nested_callText named.nested (List.forall_mem_map.mpr fun param inside => ?_)
  have parts : AllFree param.texts := List.forall_mem_flatMap.mp free.2.2.1 param inside
  unfold Source.Param.texts at parts
  rw [allFree_cons] at parts
  exact (bracketFree_typed plain parts.2 parts.1).nested

theorem nestedLines_forwardLines {layout : ClassLayout Expr Stmt}
    (named : BracketFree layout.name) : NestedLines (forwardLines options layout) := by
  have struct : BracketFree "struct " := by decide
  have typedef : BracketFree "typedef " := by decide
  have bracket : BracketFree "> " := by decide
  have pointer : BracketFree (options.runtimeName "Ptr<") :=
    bracketFree_runtimeName plain (by decide)
  have type := bracketFree_structName plain named
  have target := ((typedef.append pointer).append type).append bracket
  refine nestedLines_of_forall ?_
  unfold forwardLines
  dsimp only
  rw [List.forall_mem_cons, List.forall_mem_cons, List.forall_mem_singleton]
  exact ⟨nested_ended (struct.append type).nested,
    nested_ended (struct.append (bracketFree_vtableName plain named)).nested,
    nested_ended (target.append (bracketFree_classRef plain named)).nested⟩

theorem nested_memberText {className : Name} (named : BracketFree className) {member : DataMember}
    (free : AllFree member.texts) : Nested (memberText options className member) := by
  cases member with
  | vtablePtr => exact ((bracketFree_vtableName plain named).append (by decide)).nested
  | field name type owner =>
    unfold DataMember.texts at free
    rw [allFree_cons] at free
    exact nested_ended (bracketFree_typed plain free.2 free.1).nested

theorem linesMove_staticLines {statics : List (StaticStorage Expr)}
    (free : ∀ storage ∈ statics, AllFree storage.texts) :
    LinesMove awaited awaited (staticLines options statics) := by
  unfold staticLines
  split
  · exact .nil
  · refine .cons (nested_empty.moves _) (linesMove_map fun storage inside => ?_)
    have parts := free storage inside
    unfold StaticStorage.texts at parts
    rw [allFree_cons, allFree_append] at parts
    have keyword : BracketFree "static " := by decide
    have blank : BracketFree " " := by decide
    have typed := (keyword.append (bracketFree_type plain parts.2.1)).append blank
    exact nested_ended (typed.append parts.1).nested

/-- What is known of the parts of a class whose texts have no bracket. -/
structure PlainLayout (layout : ClassLayout Expr Stmt) : Prop where
  name : BracketFree layout.name
  qualified : BracketFree layout.identity.qualified
  parent : BracketFree layout.identity.parent
  data : ∀ member ∈ layout.data, AllFree member.texts
  statics : ∀ storage ∈ layout.statics, AllFree storage.texts
  slots : ∀ slot ∈ layout.slots, AllFree slot.texts
  bindings : ∀ binding ∈ layout.bindings, AllFree binding.texts
  ctor : ∀ member ∈ layout.ctor, AllFree member.texts
  routines : ∀ method ∈ layout.routines, AllFree method.texts

omit plain in
theorem plainLayout_of_texts {layout : ClassLayout Expr Stmt} (free : AllFree layout.texts) :
    PlainLayout layout := by
  unfold ClassLayout.texts at free
  rw [allFree_cons, allFree_cons, allFree_cons, allFree_append, allFree_append, allFree_append,
    allFree_append, allFree_append] at free
  obtain ⟨name, qualified, parent, data, statics, slots, bindings, ctor, routines⟩ := free
  exact ⟨name, qualified, parent, List.forall_mem_flatMap.mp data,
    List.forall_mem_flatMap.mp statics, List.forall_mem_flatMap.mp slots,
    List.forall_mem_flatMap.mp bindings, List.forall_mem_flatMap.mp ctor,
    List.forall_mem_flatMap.mp routines⟩

variable {layout : ClassLayout Expr Stmt}

theorem nestedLines_dataStruct (known : PlainLayout layout) :
    NestedLines (dataStruct options layout) := by
  intro awaited
  have struct : BracketFree "struct " := by decide
  have keyword : BracketFree "static " := by decide
  have type := bracketFree_structName plain known.name
  have closes : Moves ('\x7d' :: awaited) awaited "\x7d;" := rfl
  have constructor : Nested (callText (options.structName layout.name) []) :=
    nested_callText type.nested (List.forall_mem_nil _)
  have identity : Nested ("static " ++ options.classRef Reserved.classIdentity ++ " __class();") :=
    ((keyword.append (bracketFree_classRef plain (by decide))).nested).append (by decide)
  have table : Nested ("static " ++ options.vtableName layout.name ++ " __vtable;") :=
    ((keyword.append (bracketFree_vtableName plain known.name)).append (by decide)).nested
  have members : LinesMove ('\x7d' :: awaited) ('\x7d' :: awaited)
      (layout.data.map fun member => ⟨1, memberText options layout.name member⟩) :=
    linesMove_map fun member inside => nested_memberText plain known.name (known.data member inside)
  have routines : LinesMove ('\x7d' :: awaited) ('\x7d' :: awaited) (layout.routines.map
      fun method => ⟨1, "static " ++ signature options method.name method ++ ";"⟩) := by
    refine linesMove_map fun method inside => nested_ended (keyword.nested.append ?_)
    have parts := known.routines method inside
    exact nested_signature plain (parts method.name List.mem_cons_self) parts
  have head : LinesMove awaited ('\x7d' :: awaited)
      [⟨0, "struct " ++ options.structName layout.name ++ " \x7b"⟩] :=
    .single (moves_head (struct.append type).nested)
  have default : LinesMove ('\x7d' :: awaited) ('\x7d' :: awaited)
      [.blank, ⟨1, callText (options.structName layout.name) [] ++ ";"⟩] :=
    .cons (nested_empty.moves _) (.single ((nested_ended constructor).moves _))
  have last : LinesMove ('\x7d' :: awaited) awaited
      [.blank, ⟨1, "static " ++ options.classRef Reserved.classIdentity ++ " __class();"⟩,
        ⟨1, "static " ++ options.vtableName layout.name ++ " __vtable;"⟩, ⟨0, "\x7d;"⟩] :=
    .cons (nested_empty.moves _) (.cons (identity.moves _) (.cons (table.moves _) (.single closes)))
  exact ((((head.append members).append default).append
    (linesMove_staticLines plain known.statics)).append .blank |>.append routines).append last

theorem nested_slotParams {slot : VtableSlot} (free : AllFree slot.texts) :
    Nested (slotParams options slot) := by
  unfold VtableSlot.texts at free
  rw [allFree_cons, allFree_cons, allFree_append] at free
  refine nested_commas
    (List.forall_mem_cons.mpr ⟨?_, List.forall_mem_map.mpr fun type inside => ?_⟩)
  · exact (bracketFree_classRef plain free.2.1).nested
  · have mentions := List.forall_mem_flatMap.mp free.2.2.2 type inside
    exact (bracketFree_type plain mentions).nested

theorem nested_slotType {slot : VtableSlot} (free : AllFree slot.texts) :
    Nested (options.type slot.ret) := by
  unfold VtableSlot.texts at free
  rw [allFree_cons, allFree_cons, allFree_append] at free
  exact (bracketFree_type plain free.2.2.1).nested

theorem nested_bindingText (known : PlainLayout layout) {binding : SlotBinding}
    (inside : binding ∈ layout.bindings) : Nested (bindingText options layout binding) := by
  have free := known.bindings binding inside
  unfold SlotBinding.texts at free
  rw [allFree_cons, allFree_cons, allFree_singleton] at free
  have ampersand : BracketFree "&" := by decide
  have target := bracketFree_scope (bracketFree_structName plain free.2.1) free.2.2
  unfold bindingText
  refine nested_callText free.1.nested (List.forall_mem_singleton.mpr (Nested.append ?_ ?_))
  · split
    · exact nested_empty
    · rename_i slot found
      have listed : slot ∈ layout.slots := by
        split at found
        · exact List.mem_of_find?_eq_some found
        · cases found
      have parts := known.slots slot listed
      have pointer : Nested "(*)" := by decide
      refine Nested.append (nested_parenthesized ?_) (by decide)
      exact ((nested_slotType plain parts).append pointer).append
        (nested_parenthesized (nested_slotParams plain parts))
  · exact (ampersand.append target).nested

omit plain in
theorem nested_withEmptyBody {texts : List String} (each : ∀ text ∈ texts, Nested text) :
    ∀ text ∈ withEmptyBody texts, Nested text := by
  have body : Nested " \x7b\x7d" := by decide
  induction texts with
  | nil => exact List.forall_mem_nil _
  | cons first rest step =>
    rw [List.forall_mem_cons] at each
    cases rest with
    | nil => exact List.forall_mem_singleton.mpr (each.1.append body)
    | cons next rest =>
      exact List.forall_mem_cons.mpr ⟨each.1.append (by decide), step each.2⟩

theorem nestedLines_vtableStruct (known : PlainLayout layout) :
    NestedLines (vtableStruct options layout) := by
  intro awaited
  have struct : BracketFree "struct " := by decide
  have type := bracketFree_vtableName plain known.name
  have closes : Moves ('\x7d' :: awaited) awaited "\x7d;" := rfl
  have identity : Nested (options.classRef Reserved.classIdentity ++ " __is_a;") :=
    ((bracketFree_classRef plain (by decide)).append (by decide)).nested
  have head : LinesMove awaited ('\x7d' :: awaited)
      [⟨0, "struct " ++ options.vtableName layout.name ++ " \x7b"⟩,
        ⟨1, options.classRef Reserved.classIdentity ++ " __is_a;"⟩] :=
    .cons (moves_head (struct.append type).nested) (.single (identity.moves _))
  have slots : LinesMove ('\x7d' :: awaited) ('\x7d' :: awaited) (layout.slots.map fun slot =>
      ⟨1, options.type slot.ret ++ " (*" ++ slot.name ++ ")" ++
        parenthesized (slotParams options slot) ++ ";"⟩) := by
    refine linesMove_map fun slot inside => nested_ended ?_
    have parts := known.slots slot inside
    have opens : Moves [] [')'] " (*" := rfl
    have closes : Moves [')'] [] ")" := rfl
    have named := (parts slot.name List.mem_cons_self).moves [')']
    have pointer : Nested (options.type slot.ret ++ " (*" ++ slot.name ++ ")") :=
      (((nested_slotType plain parts).moves []).append opens |>.append named).append closes
    exact pointer.append (nested_parenthesized (nested_slotParams plain parts))
  have default : LinesMove ('\x7d' :: awaited) ('\x7d' :: awaited)
      [.blank, ⟨1, callText (options.vtableName layout.name) []⟩] := by
    have made := nested_callText type.nested (List.forall_mem_nil Nested)
    exact .cons (nested_empty.moves _) (.single (made.moves _))
  have inits : LinesMove ('\x7d' :: awaited) ('\x7d' :: awaited) ((withEmptyBody
      ((": " ++ callText "__is_a" [identityText options layout.name]) ::
        layout.bindings.map fun binding => "  " ++ bindingText options layout binding)).map
          (⟨2, ·⟩)) := by
    refine linesMove_map (nested_withEmptyBody (List.forall_mem_cons.mpr ⟨?_, ?_⟩))
    · have colon : Nested ": " := by decide
      have identity := nested_identityText plain known.name
      exact colon.append (nested_callText (by decide) (List.forall_mem_singleton.mpr identity))
    · refine List.forall_mem_map.mpr fun binding inside => ?_
      have blanks : Nested "  " := by decide
      exact blanks.append (nested_bindingText plain known inside)
  exact (((head.append slots).append default).append inits).append (.single closes)

/-! ### Definitions -/

theorem nested_memberInitText {member : MemberInit Expr} (free : AllFree member.texts) :
    Nested (memberInitText options member) := by
  cases member with
  | vtablePtr =>
    show Nested "__vptr(&__vtable)"
    decide
  | field name value =>
    unfold MemberInit.texts at free
    rw [allFree_cons] at free
    exact nested_callText free.1.nested
      (List.forall_mem_singleton.mpr (nested_exprText plain value free.2))

theorem nestedLines_constructorLines (known : PlainLayout layout) :
    NestedLines (constructorLines options layout) := by
  have type := bracketFree_structName plain known.name
  have colon : Nested " : " := by decide
  have made : Nested (callText (scope (options.structName layout.name)
      (options.structName layout.name)) []) :=
    nested_callText (bracketFree_scope type type).nested (List.forall_mem_nil _)
  have inits : Nested (commas (layout.ctor.map (memberInitText options))) :=
    nested_commas (List.forall_mem_map.mpr fun member inside =>
      nested_memberInitText plain (known.ctor member inside))
  have line := ((made.append colon).append inits).append (by decide : Nested " \x7b\x7d")
  exact nestedLines_of_forall
    (List.forall_mem_cons.mpr ⟨line, List.forall_mem_singleton.mpr nested_empty⟩)

theorem nestedLines_storageLines (known : PlainLayout layout) :
    NestedLines (storageLines options layout) := by
  unfold storageLines
  split
  · exact fun _ => .nil
  · refine fun awaited => (linesMove_map fun storage inside => ?_).append .blank
    have parts := known.statics storage inside
    unfold StaticStorage.texts at parts
    rw [allFree_cons, allFree_append] at parts
    have sign : Nested " = " := by decide
    have target := bracketFree_scope (bracketFree_structName plain known.name) parts.1
    have declared := (bracketFree_typed plain parts.2.1 target).nested
    exact nested_ended ((declared.append sign).append (nested_exprText plain _ parts.2.2))

theorem nestedLines_identityLines (known : PlainLayout layout) :
    NestedLines (identityLines options layout) := by
  intro awaited
  have identity : BracketFree Reserved.classIdentity := by decide
  have type := bracketFree_classRef plain identity
  have blank : Nested " " := by decide
  have keyword : Nested "static " := by decide
  have sign : Nested " k = new " := by decide
  have closes : Moves ('\x7d' :: awaited) awaited "\x7d" := rfl
  have literal := nested_runtimeCall plain (by decide : BracketFree "literal")
    (List.forall_mem_singleton.mpr (bracketFree_quoted known.qualified).nested)
  have made := nested_callText (bracketFree_structName plain identity).nested
    (List.forall_mem_cons.mpr
      ⟨literal, List.forall_mem_singleton.mpr (nested_identityText plain known.parent)⟩)
  have head := (type.nested.append blank).append (nested_identityText plain known.name)
  have line := nested_ended (((keyword.append type.nested).append sign).append made)
  have result : Nested "return k;" := by decide
  exact .cons (moves_head head) (.cons (line.moves _) (.cons (result.moves _)
    (.cons closes .blank)))

theorem nestedLines_routineLines {className : Name} (named : BracketFree className)
    {method : Method Stmt} (free : AllFree method.texts) :
    NestedLines (routineLines options className method) := by
  intro awaited
  have parts := free
  unfold Method.texts at parts
  rw [allFree_cons, allFree_append, allFree_append] at parts
  have full := bracketFree_scope (bracketFree_structName plain named) parts.1
  have closes : Moves ('\x7d' :: awaited) awaited "\x7d" := rfl
  have body := nestedLines_stmtLines plain 1 false method.body parts.2.2.2 ('\x7d' :: awaited)
  have head : LinesMove awaited ('\x7d' :: awaited) [⟨0, signature options
      (scope (options.structName className) method.name) method ++ " \x7b"⟩] :=
    .single (moves_head (nested_signature plain full free))
  exact (head.append body).append (.cons closes .blank)

theorem nestedLines_classLines (known : PlainLayout layout) :
    NestedLines (classLines options layout) := by
  have type := bracketFree_structName plain known.name
  have blank : BracketFree " " := by decide
  have table : Nested (options.vtableName layout.name ++ " " ++
      scope (options.structName layout.name) "__vtable;") :=
    (((bracketFree_vtableName plain known.name).append blank).append
      (bracketFree_scope type (by decide))).nested
  have routines : NestedLines (layout.routines.flatMap (routineLines options layout.name)) :=
    nestedLines_flatMap fun method inside =>
      nestedLines_routineLines plain known.name (known.routines method inside)
  have front := ((nestedLines_constructorLines plain known).append
    (nestedLines_storageLines plain known)).append (nestedLines_identityLines plain known)
  exact (front.append fun _ => .cons (table.moves _) .blank).append routines

omit plain in
theorem bracketFree_fromOutside (options : EmitOptions) {package : List Name} {name : String}
    (free : AllFree package) (named : BracketFree name) :
    BracketFree (fromOutside options package name) := by
  refine BracketFree.append ?_ named
  have scopes : AllFree ((namespacesOf options package).map (scope · "")) :=
    List.forall_mem_map.mpr fun outer inside =>
      bracketFree_scope (allFree_namespacesOf options free outer inside) (by decide)
  intro char inside
  rw [String.toList_join] at inside
  exact (List.forall_mem_flatMap.mpr scopes) char inside

omit plain in
theorem mem_of_entry? {unit : TreeUnit} {layout : ClassLayout Expr Stmt} {method : Method Stmt}
    (found : entry? unit = some (layout, method)) :
    layout ∈ unit.classes ∧ method ∈ layout.methods := by
  obtain ⟨here, inside, found⟩ := List.exists_of_findSome?_eq_some found
  obtain ⟨first, there, same⟩ := Option.map_eq_some_iff.mp found
  cases same
  exact ⟨inside, List.mem_of_find?_eq_some there⟩

/-- The loop that copies the arguments of the command line. -/
theorem linesMove_arguments :
    LinesMove awaited awaited [
      ⟨1, options.runtimeName "Array<" ++ options.classRef Reserved.string ++ "> args = new " ++
        options.runtimeName "__Array<" ++ options.classRef Reserved.string ++ ">(argc - 1);"⟩,
      ⟨1, "for (int32_t i = 1; i < argc; i++) \x7b"⟩,
      ⟨2, "(*args)[i - 1] = " ++ options.runtimeName "literal" ++ "(argv[i]);"⟩,
      ⟨1, "\x7d"⟩] := by
  have text : BracketFree (options.classRef Reserved.string) :=
    bracketFree_classRef plain (by decide)
  have array : BracketFree (options.runtimeName "Array<") :=
    bracketFree_runtimeName plain (by decide)
  have struct : BracketFree (options.runtimeName "__Array<") :=
    bracketFree_runtimeName plain (by decide)
  have literal : BracketFree (options.runtimeName "literal") :=
    bracketFree_runtimeName plain (by decide)
  have made : BracketFree "> args = new " := by decide
  have size : Nested ">(argc - 1);" := by decide
  have element : Nested "(*args)[i - 1] = " := by decide
  have argument : Nested "(argv[i]);" := by decide
  have first := ((((array.append text).append made).append struct).append text).nested.append size
  have second := (element.append literal.nested).append argument
  have opens : Moves awaited ('\x7d' :: awaited) "for (int32_t i = 1; i < argc; i++) \x7b" := rfl
  have closes : Moves ('\x7d' :: awaited) awaited "\x7d" := rfl
  exact .cons (first.moves _) (.cons opens (.cons (second.moves _) (.single closes)))

theorem nestedLines_mainLines {unit : TreeUnit} (package : AllFree unit.package)
    (known : ∀ layout ∈ unit.classes, PlainLayout layout) :
    NestedLines (mainLines options unit) := by
  unfold mainLines
  split
  · exact fun _ => .nil
  · rename_i layout method found
    obtain ⟨inside, declared⟩ := mem_of_entry? found
    have here := known layout inside
    have named := here.routines method (List.mem_append_right _ declared) method.name
      List.mem_cons_self
    have target := (bracketFree_fromOutside options package
      (bracketFree_scope (bracketFree_structName plain here.name) named)).nested
    have keyword : Nested "return " := by decide
    have args : Nested "args" := by decide
    have called := nested_ended (keyword.append (nested_callText target (List.forall_mem_nil _)))
    have passed := nested_ended (keyword.append
      (nested_callText target (List.forall_mem_singleton.mpr args)))
    intro awaited
    have opens : Moves awaited ('\x7d' :: awaited) "int main(int argc, char* argv[]) \x7b" := rfl
    have closes : Moves ('\x7d' :: awaited) awaited "\x7d" := rfl
    have head : LinesMove awaited ('\x7d' :: awaited)
        [.blank, ⟨0, "int main(int argc, char* argv[]) \x7b"⟩] :=
      .cons (nested_empty.moves _) (.single opens)
    refine (head.append ?_).append (.single closes)
    split
    · exact .single (called.moves _)
    · exact (linesMove_arguments plain).append (.single (passed.moves _))

/-! ### Files -/

/-- What is known of the parts of a unit whose texts have no bracket. -/
structure PlainUnit (unit : TreeUnit) : Prop where
  path : BracketFree unit.path
  package : AllFree unit.package
  imports : AllFree unit.imports
  classes : ∀ layout ∈ unit.classes, PlainLayout layout

omit plain in
theorem plainUnit_of_texts {unit : TreeUnit} (free : AllFree unit.texts) : PlainUnit unit := by
  unfold Lowered.CodeUnit.texts at free
  rw [allFree_cons, allFree_append, allFree_append] at free
  obtain ⟨path, package, imports, classes⟩ := free
  exact ⟨path, package, imports, fun layout inside =>
    plainLayout_of_texts (List.forall_mem_flatMap.mp classes layout inside)⟩

variable {unit : TreeUnit}

theorem nestedLines_headerLines (known : PlainUnit unit) :
    NestedLines (headerLines options unit) := by
  intro awaited
  have pragma : Nested "#pragma once" := by decide
  have runtime := nested_includeLine plain.runtimeHeader
  have front : LinesMove awaited awaited
      [⟨0, "#pragma once"⟩, .blank, includeLine options.runtimeHeader] :=
    .cons (pragma.moves _) (.cons (nested_empty.moves _) (.single (runtime.moves _)))
  have imports : LinesMove awaited awaited
      (unit.imports.map fun path => includeLine (headerName path)) :=
    linesMove_of_forall (List.forall_mem_map.mpr fun path inside =>
      nested_includeLine (bracketFree_headerName (known.imports path inside)))
  have forward : NestedLines (unit.classes.flatMap (forwardLines options)) :=
    nestedLines_flatMap fun layout inside =>
      nestedLines_forwardLines plain (known.classes layout inside).name
  have structs : NestedLines (unit.classes.flatMap fun layout =>
      .blank :: dataStruct options layout ++ .blank :: vtableStruct options layout) := by
    refine nestedLines_flatMap fun layout inside behind => ?_
    have here := known.classes layout inside
    exact (LinesMove.cons (nested_empty.moves _) (nestedLines_dataStruct plain here behind)).append
      (.cons (nested_empty.moves _) (nestedLines_vtableStruct plain here behind))
  have opened := ((front.append imports).append .blank).append
    (linesMove_openNamespaces options known.package)
  exact (((opened.append (forward _)).append (structs _)).append .blank).append
    (linesMove_closeNamespaces options known.package)

theorem nestedLines_bodyLines (known : PlainUnit unit) : NestedLines (bodyLines options unit) := by
  intro awaited
  have own := nested_includeLine (bracketFree_headerName known.path)
  have streams : Nested "#include <iostream>" := by decide
  have front : LinesMove awaited awaited
      [includeLine (headerName unit.path), .blank, ⟨0, "#include <iostream>"⟩, .blank] :=
    .cons (own.moves _) (.cons (nested_empty.moves _) (.cons (streams.moves _) .blank))
  have classes : NestedLines (unit.classes.flatMap (classLines options)) :=
    nestedLines_flatMap fun layout inside =>
      nestedLines_classLines plain (known.classes layout inside)
  have definitions := ((front.append (linesMove_openNamespaces options known.package)).append
    (classes _)).append (linesMove_closeNamespaces options known.package)
  refine definitions.append ?_
  split
  · exact nestedLines_mainLines plain known.package known.classes awaited
  · exact .nil

/-- **The header and the body of a unit without brackets in its texts are nested.** -/
theorem nested_files (free : AllFree unit.texts) :
    Nested (headerText options unit) ∧ Nested (bodyText options unit) :=
  ⟨nested_fileText options (nestedLines_headerLines plain (plainUnit_of_texts free)),
    nested_fileText options (nestedLines_bodyLines plain (plainUnit_of_texts free))⟩

end Cpp

/-- **The brackets of the files of a lowered unit are properly nested and closed**, all three kinds
together and each by itself, if no name, path or literal of the unit has a bracket and no text of
the options. -/
theorem emitted_brackets_nested {units : List Source.SourceUnit} {options : LoweringOptions}
    {facts : Facts} {lowered : List Lowered.TreeUnit}
    (done : (Program.ofUnits units).lower facts options = .ok lowered)
    {unit : Lowered.TreeUnit} (produced : unit ∈ lowered) (free : AllFree unit.texts)
    {emit : Cpp.EmitOptions} (plain : Cpp.PlainOptions emit) :
    ∃ files, Cpp.emitUnit? emit unit = some files ∧ Nested files.header ∧ Nested files.body ∧
      ∀ close, isClosing close = true →
        NestedIn close files.header ∧ NestedIn close files.body := by
  obtain ⟨header, body⟩ := Cpp.nested_files plain free
  have printed := exists_emitUnit? done produced emit
  generalize Cpp.headerText emit unit = headerText at printed header
  generalize Cpp.bodyText emit unit = bodyText at printed body
  exact ⟨_, printed, header, body, fun _ closes => ⟨header.alone closes, body.alone closes⟩⟩

/-- Both files of two classes with constructors are nested. -/
theorem emitted_brackets_nested_point :
    ∃ facts unit files, (Program.ofUnits [.point]).facts ⟨["Point", "Nested"]⟩ {} = .ok facts ∧
      (Program.ofUnits [.point]).lower facts {} = .ok [unit] ∧
      Cpp.emitUnit? {} unit = some files ∧ Nested files.header ∧ Nested files.body := by
  have succeeds : (((Program.ofUnits [.point]).facts ⟨["Point", "Nested"]⟩ {}).toOption.any
      fun facts => ((Program.ofUnits [.point]).lower facts {}).toOption.any fun lowered =>
        lowered.length == 1 && lowered.all fun unit => decide (AllFree unit.texts)) = true := by
    decide +kernel
  obtain ⟨facts, computed, succeeds⟩ := exists_of_any_toOption succeeds
  obtain ⟨lowered, done, succeeds⟩ := exists_of_any_toOption succeeds
  rw [Bool.and_eq_true, beq_iff_eq, List.all_eq_true] at succeeds
  obtain ⟨alone, free⟩ := succeeds
  have plain : Cpp.PlainOptions {} := ⟨by decide, by decide⟩
  obtain ⟨unit, rfl⟩ := List.length_eq_one_iff.mp alone
  obtain ⟨files, printed, header, body, _⟩ := emitted_brackets_nested done
    List.mem_cons_self (of_decide_eq_true (free unit List.mem_cons_self)) plain
  exact ⟨facts, unit, files, computed, done, printed, header, body⟩

end ObjectLowering
