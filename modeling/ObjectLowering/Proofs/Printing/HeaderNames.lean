/-
**Which header an import includes.**

A header is called like the last name of its unit's path, while units are told apart by their whole
canonical paths. So the headers of a run have names of their own exactly if their units do without
their directories; and a line that includes the header of an import means the unit that the import
resolves to among all of the same last name. A written path that does not end in a name, such as
`zoo/Zoo/..`, stands for a header of a name of its own.

* `Path.stem?_eq_of_canonical`: spellings of one path that end in names end in the same.
* `UnitStore.closed_of_sourceSet`: the paths of a source set are apart and have their imports.
* `Cpp.exists_headerText`: the lines with which a header begins are not trimmed.
* `Cpp.Includes`: the files of a unit with the lines for its imports.
* `includes_of_compileUnits`: the files of a run, unit by unit.
* `Compiled.Resolves`: what the line for an import means.
* **`header_names_by_stem`**: when the headers of a run are apart and each import includes its own.
* **`header_names_repeat`**: a run with two headers of one name.
-/

import ObjectLowering.Proofs.Sources.SourceSet
import ObjectLowering.Proofs.Units.Runs

namespace ObjectLowering

open Source (Path SourceUnit UnitStore canonicalPath)
open Text (Line Style)

namespace Source

/-! ### The name at the end of a path -/

namespace Path

variable {path other : String} {canonical : Path} {name : String}

/-- A name at the end stays there. -/
theorem getLast?_settle {stack front settled : Path}
    (done : settle stack (front ++ [.normal name]) = some settled) :
    settled.getLast? = some (.normal name) := by
  induction stack, front using settle.induct with
  | case1 stack =>
    cases done
    rw [List.getLast?_reverse, List.head?_cons]
  | case2 stack rest step => exact step done
  | case3 _ stack rest step => exact step done
  | case4 stack rest climbs =>
    cases stack with
    | nil => cases done
    | cons top stack =>
      cases top with
      | normal name => exact absurd rfl (climbs name stack)
      | root | current | parent => cases done
  | case5 stack component rest notCurrent _ notParent step =>
    cases component with
    | root | normal => exact step done
    | current => exact absurd rfl notCurrent
    | parent => exact absurd rfl notParent

/-- **A canonical path ends in the name that the written one ends in.** -/
theorem getLast?_canonical (ends : (components path).getLast? = some (.normal name))
    (resolved : canonicalPath path = .ok canonical) : canonical.getLast? = some (.normal name) := by
  obtain ⟨front, written⟩ := List.getLast?_eq_some_iff.mp ends
  unfold canonicalPath at resolved
  split at resolved
  · rename_i settled
    cases resolved
    unfold canonical? at settled
    rw [written] at settled
    exact getLast?_settle settled
  · cases resolved

theorem exists_name_of_stem? (named : (stem? path).isSome) :
    ∃ name, (components path).getLast? = some (.normal name) ∧
      stem? path = some (String.ofList (withoutExtension name.toList)) := by
  unfold stem? at named ⊢
  split at named
  · rename_i name ends
    exact ⟨name, ends, rfl⟩
  · cases named

/-- **Spellings of one path have one stem**, if both end in a name or none does. -/
theorem stem?_eq_of_canonical (here : canonicalPath path = .ok canonical)
    (there : canonicalPath other = .ok canonical)
    (alike : (stem? path).isSome = (stem? other).isSome) : stem? path = stem? other := by
  cases named : (stem? path).isSome with
  | false =>
    rw [Option.not_isSome_iff_eq_none.mp (Bool.eq_false_iff.mp named),
      Option.not_isSome_iff_eq_none.mp (Bool.eq_false_iff.mp (alike.symm.trans named))]
  | true =>
    obtain ⟨name, ends, stem⟩ := exists_name_of_stem? named
    obtain ⟨nameToo, endsToo, stemToo⟩ := exists_name_of_stem? (alike.symm.trans named)
    have same := (getLast?_canonical ends here).symm.trans (getLast?_canonical endsToo there)
    cases same
    rw [stem, stemToo]

end Path

/-! ### The paths of a source set -/

namespace UnitStore

variable {store : UnitStore} {sources : List SourceUnit}

theorem registered_of_inserted {start : UnitStore} (registered : start.Registered)
    (inserted : sources.foldlM UnitStore.insert start = .ok store) : store.Registered := by
  induction sources generalizing start with
  | nil =>
    cases inserted
    exact registered
  | cons unit rest step =>
    rw [List.foldlM_cons] at inserted
    obtain ⟨after, first, behind⟩ := ok_of_bind inserted
    exact step (registered.insert first) behind

/-- **The units of a source set have paths of their own, and every import is the path of one.** -/
theorem closed_of_sourceSet (registered : store.Registered) {entry : String}
    {units : List SourceUnit} (done : store.sourceSet entry = .ok units) :
    (units.map (canonicalPath ·.path)).Nodup ∧
      ∀ unit ∈ units, ∀ written ∈ unit.imports, ∃ path, canonicalPath written = .ok path ∧
        ∃ target ∈ units, canonicalPath target.path = .ok path := by
  obtain ⟨start, canonical, done⟩ := ok_of_bind done
  obtain ⟨paths, follows, returns⟩ := exists_follows (.initial store start)
  rw [List.nil_append] at follows
  rw [returns (.initial (Nat.le_refl _))] at done
  have found := map_find?_of_outcome done
  have ofPaths := registered.map_path found
  constructor
  · rw [ofPaths]
    exact follows.distinct.map fun _ _ => Except.ok.inj
  · intro unit member written imported
    obtain ⟨path, reached, here⟩ : ∃ path ∈ paths, store.find? path = some unit := by
      have listed : some unit ∈ paths.map store.find? := found ▸ List.mem_map_of_mem member
      exact List.mem_map.mp listed
    cases resolved : canonicalPath written with
    | error error =>
      exact absurd (problems_of_outcome done reached)
        (problems_ne_nil_iff.mpr (.inr ⟨unit, here, written, imported, error, resolved⟩))
    | ok other =>
      have next : other ∈ store.importsOf path := by
        unfold importsOf
        rw [here]
        exact List.mem_filterMap.mpr ⟨written, imported, by rw [resolved]; rfl⟩
      have inside := (follows.reached other).mpr (((follows.reached path).mp reached).tail next)
      have listed : Except.ok other ∈ units.map (canonicalPath ·.path) :=
        ofPaths ▸ List.mem_map_of_mem inside
      exact ⟨other, rfl, List.mem_map.mp listed⟩

end UnitStore

end Source

/-! ### The first lines of a text -/

namespace Text

/-- Nothing is taken off before a line break behind a character that is no blank. -/
theorem exists_trimBackwards {solid : Char} (ink : solid ≠ '\n' ∧ solid ≠ ' ')
    (behind front : List Char) : ∃ rest, trimBackwards (behind ++ '\n' :: solid :: front) =
      rest ++ '\n' :: solid :: front := by
  induction behind with
  | nil =>
    refine ⟨[], if_neg ?_⟩
    rintro ⟨_, same | same⟩
    · exact ink.1 (Option.some.inj same)
    · exact ink.2 (Option.some.inj same)
  | cons char behind step =>
    rw [List.cons_append]
    unfold trimBackwards
    split
    · exact step
    · exact ⟨char :: behind, rfl⟩

/-- Trimming keeps a text up to the end of a line that ends so. -/
theorem exists_trimBlankLines {text : String} {front : List Char} {solid : Char}
    (ink : solid ≠ '\n' ∧ solid ≠ ' ') (ends : text.toList = front ++ [solid, '\n'])
    (behind : String) : ∃ after, trimBlankLines (text ++ behind) = text ++ after := by
  have reversed : (text ++ behind).toList.reverse =
      behind.toList.reverse ++ '\n' :: solid :: front.reverse := by
    rw [String.toList_append, ends]
    simp
  obtain ⟨rest, trimmed⟩ := exists_trimBackwards ink behind.toList.reverse front.reverse
  refine ⟨String.ofList rest.reverse, ?_⟩
  unfold trimBlankLines
  rw [reversed, trimmed, ← String.toList_inj, String.toList_ofList, String.toList_append,
    String.toList_ofList, ends]
  simp

theorem exists_ensureNewline (text : String) : ∃ after, ensureNewline text = text ++ after := by
  unfold ensureNewline
  split
  · exact ⟨"", String.append_empty.symm⟩
  · exact ⟨"\n", rfl⟩

end Text

namespace Cpp

/-- A text keeps its lines up to one that includes a header. -/
theorem exists_fileText (options : EmitOptions) {lines : List Line} {header : String}
    (last : lines.getLast? = some (includeLine header)) (rest : List Line) :
    ∃ after, fileText options (lines ++ rest) =
      (Style.lines options.indentWidth).layOut lines ++ after := by
  obtain ⟨front, rfl⟩ := List.getLast?_eq_some_iff.mp last
  have ends : ((Style.lines options.indentWidth).layOut (front ++ [includeLine header])).toList =
      ((Style.lines options.indentWidth).layOut front ++ "#include \"" ++ header).toList ++
        ['"', '\n'] := by
    have blank : "".pushn ' ' 0 = "" := rfl
    simp [Style.layOut, Line.layOut, Style.indent, Style.newline, includeLine, blank,
      String.toList_join]
  obtain ⟨kept, trimmed⟩ := Text.exists_trimBlankLines (by decide) ends
    ((Style.lines options.indentWidth).layOut rest)
  obtain ⟨after, ended⟩ := Text.exists_ensureNewline
    ((Style.lines options.indentWidth).layOut (front ++ [includeLine header]) ++ kept)
  refine ⟨kept ++ after, ?_⟩
  unfold fileText
  rw [Text.layOut_append, trimmed, ended, String.append_assoc]

end Cpp

/-! ### The files of a run -/

/-- The stem of a header: the last name of a path without its extension, `unit` if there is none. -/
def Cpp.headerStem (path : String) : String := (Path.stem? path).getD "unit"

theorem Cpp.headerName_inj {path other : String} :
    headerName path = headerName other ↔ headerStem path = headerStem other :=
  String.append_left_inj _

/-- The lines with which a header begins: it includes that of the run time, then each import. -/
def Cpp.firstLines (options : EmitOptions) (imports : List String) : List Line :=
  [⟨0, "#pragma once"⟩, .blank, includeLine options.runtimeHeader] ++
    imports.map fun written => includeLine (headerName written)

theorem Cpp.getLast?_firstLines (options : EmitOptions) (imports : List String) :
    ∃ header, (firstLines options imports).getLast? = some (includeLine header) := by
  unfold firstLines
  rw [List.getLast?_append, List.getLast?_map]
  cases imports.getLast? with
  | none => exact ⟨options.runtimeHeader, rfl⟩
  | some written => exact ⟨headerName written, rfl⟩

theorem Cpp.exists_headerText (options : EmitOptions) (tree : Lowered.TreeUnit) :
    ∃ rest, headerText options tree =
      (Style.lines options.indentWidth).layOut (firstLines options tree.imports) ++ rest := by
  obtain ⟨rest, lines⟩ : ∃ rest, headerLines options tree =
      firstLines options tree.imports ++ rest := by
    unfold headerLines firstLines
    simp only [List.append_assoc]
    exact ⟨_, rfl⟩
  obtain ⟨header, last⟩ := getLast?_firstLines options tree.imports
  unfold headerText
  rw [lines]
  exact exists_fileText options last rest

/-- A unit was printed to files whose header includes the headers of its imports, in order. -/
structure Cpp.Includes (options : EmitOptions) (unit : SourceUnit) (files : EmittedUnit) :
    Prop where
  path : files.path = unit.path
  headerName : files.headerName = headerName unit.path
  header : ∃ rest, files.header =
    (Style.lines options.indentWidth).layOut (firstLines options unit.imports) ++ rest

/-- A unit that was lowered has its path and its imports. -/
theorem kept_of_lowerUnit {index : Nat} {unit : SourceUnit} {facade : Facade} {facts : Facts}
    {options : LoweringOptions} {tree : Lowered.TreeUnit}
    (done : lowerUnit index unit facade facts options = .ok tree) :
    tree.path = unit.path ∧ tree.imports = unit.imports := by
  obtain ⟨_, _, built⟩ := ok_of_bind done
  cases built
  exact ⟨rfl, rfl⟩

theorem includes_of_emitUnit? {options : Cpp.EmitOptions} {unit : SourceUnit}
    {tree : Lowered.TreeUnit} {files : Cpp.EmittedUnit}
    (kept : tree.path = unit.path ∧ tree.imports = unit.imports)
    (printed : Cpp.emitUnit? options tree = some files) : Cpp.Includes options unit files := by
  unfold Cpp.emitUnit? at printed
  split at printed
  · cases printed
    refine ⟨kept.1, congrArg Cpp.headerName kept.1, ?_⟩
    dsimp only
    rw [← kept.2]
    exact Cpp.exists_headerText options tree
  · cases printed

variable {names : NameTable} {options : CompileOptions} {units : List SourceUnit}
  {compiled : Compiled}

/-- **A run that prints has the files of its units**, in order. -/
theorem includes_of_compileUnits (done : (compileUnits names options units).2 = .ok compiled) :
    compiled.units = units ∧ (options.emitText = false → compiled.emitted = []) ∧
      (options.emitText = true →
        List.Forall₂ (Cpp.Includes options.emit) units compiled.emitted) := by
  obtain ⟨facts, _, done⟩ := ok_of_bind done
  obtain ⟨lowered, lowers, done⟩ := ok_of_bind done
  have kept : List.Forall₂ (fun unit tree => tree.path = unit.path ∧ tree.imports = unit.imports)
      units lowered := by
    have each := ok_of_lowerUnits (mapError_eq_ok.mp lowers)
    rw [Program.zipIdx_parts, List.forall₂_map_left_iff] at each
    rw [← List.zipIdx_map_fst 0 units, List.forall₂_map_left_iff]
    exact each.imp fun _ _ ran => kept_of_lowerUnit ran
  dsimp only at done
  split at done
  · rename_i asked
    obtain ⟨emitted, printed, done⟩ := ok_of_bind done
    cases done
    refine ⟨rfl, fun unasked => ?_, fun _ => ?_⟩
    · rw [asked] at unasked
      cases unasked
    · exact forall₂_trans kept (ok_of_mapM printed) fun _ _ _ kept prints =>
        includes_of_emitUnit? kept (emitOrFail_eq_ok.mp prints)
  · rename_i unasked
    cases done
    exact ⟨rfl, fun _ => rfl, fun asked => absurd asked unasked⟩

/-- What the line for an import means: the path resolves to the unit of the files. -/
structure Compiled.Resolves (compiled : Compiled) (written : String) (target : Cpp.EmittedUnit) :
    Prop where
  emitted : target ∈ compiled.emitted
  /-- The files are those of the one unit that the path resolves to. -/
  resolved : ∃ path, canonicalPath written = .ok path ∧
    ∀ other ∈ compiled.emitted, canonicalPath other.path = .ok path ↔ other = target
  /-- The line has the name of this header if both paths end in a name, or none does. -/
  named : (Path.stem? written).isSome = (Path.stem? target.path).isSome →
    target.headerName = Cpp.headerName written
  /-- Then it has the name of just those headers whose units have the same stem. -/
  shared : target.headerName = Cpp.headerName written → ∀ other ∈ compiled.emitted,
    other.headerName = Cpp.headerName written ↔
      Cpp.headerStem other.path = Cpp.headerStem target.path
  /-- If no two headers have one name, there is no other. -/
  alone : target.headerName = Cpp.headerName written → (compiled.emitted.map (·.headerName)).Nodup →
    ∀ other ∈ compiled.emitted, other.headerName = Cpp.headerName written → other = target

/-- Headers that are called after the paths are apart exactly if the stems are. -/
theorem Cpp.nodup_headers_iff {emitted : List EmittedUnit}
    (ofPath : ∀ files ∈ emitted, files.headerName = Cpp.headerName files.path) :
    (emitted.map (·.headerName)).Nodup ↔ (emitted.map (headerStem ·.path)).Nodup := by
  have headers :
      emitted.map (·.headerName) = (emitted.map (headerStem ·.path)).map (· ++ ".h") := by
    rw [List.map_map]
    exact List.map_congr_left ofPath
  rw [headers]
  exact List.nodup_map_iff fun _ _ => (String.append_left_inj _).mp

/-- What resolves to the path of an emitted unit means that unit. -/
theorem Compiled.resolves
    (ofPath : ∀ files ∈ compiled.emitted, files.headerName = Cpp.headerName files.path)
    (distinct : (compiled.emitted.map (canonicalPath ·.path)).Nodup)
    {written : String} {path : Path} (resolved : canonicalPath written = .ok path)
    {target : Cpp.EmittedUnit} (member : target ∈ compiled.emitted)
    (here : canonicalPath target.path = .ok path) : compiled.Resolves written target where
  emitted := member
  resolved := by
    refine ⟨path, resolved, fun other inside => ⟨fun there => ?_, fun same => same ▸ here⟩⟩
    exact List.inj_on_of_nodup_map distinct inside member (there.trans here.symm)
  named alike := by
    have stems := Path.stem?_eq_of_canonical here resolved alike.symm
    exact (ofPath target member).trans
      (Cpp.headerName_inj.mpr (congrArg (Option.getD · "unit") stems))
  shared names other inside := by
    rw [← names, ofPath other inside, ofPath target member, Cpp.headerName_inj]
  alone names apart other inside same :=
    List.inj_on_of_nodup_map apart inside member (same.trans names.symm)

/-- **Headers have names of their own exactly if their units have stems of their own**, though their
canonical paths always differ. An import resolves to the unit of one header, and the line for it has
the name of this header if both paths end in a name; it has that of another one, too, if their units
have one stem. -/
theorem header_names_by_stem {sources : List SourceUnit} {store : UnitStore} {entry : String}
    (inserted : sources.foldlM UnitStore.insert {} = .ok store)
    (done : (compile names options store entry).2 = .ok compiled) :
    store.sourceSet entry = .ok compiled.units ∧
    (options.emitText = true →
      List.Forall₂ (Cpp.Includes options.emit) compiled.units compiled.emitted) ∧
    (compiled.emitted.map (canonicalPath ·.path)).Nodup ∧
    ((compiled.emitted.map (·.headerName)).Nodup ↔
      (compiled.emitted.map (Cpp.headerStem ·.path)).Nodup) ∧
    ∀ files ∈ compiled.emitted, ∃ unit ∈ compiled.units, Cpp.Includes options.emit unit files ∧
      ∀ written ∈ unit.imports, ∃ target, compiled.Resolves written target := by
  have registered : store.Registered :=
    UnitStore.registered_of_inserted (fun _ member => absurd member List.not_mem_nil) inserted
  unfold compile at done
  split at done
  · cases done
  · rename_i units sourced
    obtain ⟨distinct, closed⟩ := UnitStore.closed_of_sourceSet registered sourced
    obtain ⟨rfl, unprinted, printed⟩ := includes_of_compileUnits done
    cases asked : options.emitText with
    | false =>
      rw [unprinted asked]
      exact ⟨sourced, nofun, List.nodup_nil, iff_of_true List.nodup_nil List.nodup_nil, nofun⟩
    | true =>
      have each := printed asked
      have ofPath : ∀ files ∈ compiled.emitted, files.headerName = Cpp.headerName files.path :=
        forall_of_forall₂ each fun _ _ included =>
          included.headerName.trans (congrArg _ included.path.symm)
      have paths : compiled.units.map (canonicalPath ·.path) =
          compiled.emitted.map (canonicalPath ·.path) :=
        map_eq_of_forall₂ each fun _ _ included => congrArg _ included.path.symm
      rw [paths] at distinct
      refine ⟨sourced, fun _ => each, distinct, Cpp.nodup_headers_iff ofPath,
        fun files member => ?_⟩
      obtain ⟨unit, inside, included⟩ := exists_of_mem_right each member
      refine ⟨unit, inside, included, fun written imported => ?_⟩
      obtain ⟨path, resolved, source, listed, canonical⟩ := closed unit inside written imported
      obtain ⟨target, emitted, ofSource⟩ := exists_of_mem_right each.flip listed
      exact ⟨target, compiled.resolves ofPath distinct resolved emitted
        (ofSource.path ▸ canonical)⟩

/-- Units with names of their own, imported under several spellings. -/
def Source.SourceUnit.zoo : List SourceUnit :=
  [.importing "Main.java" ["./zoo/Animal.java", "Main.java"],
    .importing "zoo/Animal.java" ["zoo//Food.java"], .importing "zoo/Food.java" []]

/-- Each line of this program has the name of one header. -/
theorem header_names_by_stem_zoo :
    ∃ store compiled, Source.SourceUnit.zoo.foldlM UnitStore.insert {} = .ok store ∧
      (compile .start {} store "Main.java").2 = .ok compiled ∧
      compiled.emitted.map (Cpp.headerStem ·.path) = ["Main", "Animal", "Food"] ∧
      (compiled.emitted.map (·.headerName)).Nodup ∧
      ∀ files ∈ compiled.emitted, ∃ unit ∈ compiled.units, Cpp.Includes {} unit files ∧
        ∀ written ∈ unit.imports, ∃ target, compiled.Resolves written target ∧
          ∀ other ∈ compiled.emitted,
            other.headerName = Cpp.headerName written ↔ other = target := by
  have ran : (Source.SourceUnit.zoo.foldlM UnitStore.insert {}).toOption.any (fun store =>
      (compile .start {} store "Main.java").2.toOption.any fun compiled =>
        compiled.emitted.map (Cpp.headerStem ·.path) == ["Main", "Animal", "Food"] &&
        compiled.emitted.all (fun files => (Path.stem? files.path).isSome) &&
        compiled.units.all fun unit => unit.imports.all fun written =>
          (Path.stem? written).isSome) = true := by
    decide +kernel
  obtain ⟨store, inserted, ran⟩ := exists_of_any_toOption ran
  obtain ⟨compiled, ran, known⟩ := exists_of_any_toOption ran
  rw [Bool.and_eq_true, Bool.and_eq_true, beq_iff_eq, List.all_eq_true, List.all_eq_true] at known
  obtain ⟨⟨stems, named⟩, namedToo⟩ := known
  obtain ⟨_, _, _, apart, each⟩ := header_names_by_stem inserted ran
  have headers : (compiled.emitted.map (·.headerName)).Nodup := by
    rw [apart, stems]
    decide
  refine ⟨store, compiled, inserted, ran, stems, headers, fun files member => ?_⟩
  obtain ⟨unit, inside, included, means⟩ := each files member
  refine ⟨unit, inside, included, fun written imported => ?_⟩
  obtain ⟨target, meant⟩ := means written imported
  have ends := List.all_eq_true.mp (namedToo unit inside) written imported
  have same := meant.named (ends.trans (named target meant.emitted).symm)
  refine ⟨target, meant, fun other listed => ⟨meant.alone same headers other listed, ?_⟩⟩
  rintro rfl
  exact same

/-- Two units of one name in two directories, one of them imported under a path that ends
otherwise. -/
def Source.SourceUnit.zoos : List SourceUnit :=
  [.importing "Main.java" ["a/Zoo.java", "b/Zoo.java/x/.."], .importing "a/Zoo.java" [],
    .importing "b/Zoo.java" []]

/-- **Two headers of one program have one name**, so the line for the one import may mean either;
the line for the other import means none. -/
theorem header_names_repeat :
    ∃ store compiled, Source.SourceUnit.zoos.foldlM UnitStore.insert {} = .ok store ∧
      (compile .start {} store "Main.java").2 = .ok compiled ∧
      compiled.emitted.map (·.path) = ["Main.java", "a/Zoo.java", "b/Zoo.java"] ∧
      compiled.emitted.map (·.headerName) = ["Main.h", "Zoo.h", "Zoo.h"] ∧
      Cpp.headerName "a/Zoo.java" = "Zoo.h" ∧
      canonicalPath "b/Zoo.java/x/.." = canonicalPath "b/Zoo.java" ∧
      Cpp.headerName "b/Zoo.java/x/.." = "unit.h" := by
  have ran : (Source.SourceUnit.zoos.foldlM UnitStore.insert {}).toOption.any (fun store =>
      (compile .start {} store "Main.java").2.toOption.any fun compiled =>
        compiled.emitted.map (·.path) == ["Main.java", "a/Zoo.java", "b/Zoo.java"] &&
          compiled.emitted.map (·.headerName) == ["Main.h", "Zoo.h", "Zoo.h"]) = true := by
    decide +kernel
  obtain ⟨store, inserted, ran⟩ := exists_of_any_toOption ran
  obtain ⟨compiled, ran, known⟩ := exists_of_any_toOption ran
  rw [Bool.and_eq_true, beq_iff_eq, beq_iff_eq] at known
  exact ⟨store, compiled, inserted, ran, known.1, known.2, by decide +kernel, rfl,
    by decide +kernel⟩

end ObjectLowering
