import Scaffold.Proofs.Generation.Written
import Scaffold.Proofs.Output.Remains
import Scaffold.Proofs.Tree.Reached

/-!
Cleaning after a run. What a run writes below an empty directory, cleaning takes away again: every file begins
with the mark, whatever the formatter makes of the body, and has a suffix of a kind that is cleaned; and every
directory that was made is left empty.
-/

namespace Scaffold

open Scaffold.Graph Naming Output Scaffold.Tree

variable {c : Config} {t : Tree} {a : Artifact} {as : List Artifact} {p : Path} {above rest at_ : Location}
  {names : List String} {content : ByteArray}

/-- What is written under the configuration is recognized: the mark stands above every body, on one line
without blanks at its ends, and the files of all targets are cleaned. -/
structure Config.Recognizes (c : Config) : Prop where
  header : c.writeHeader.isSet = true
  mark : ∃ mark, c.generatedLabel = .str mark ∧ Text.strip mark = mark ∧ Text.isSingleLine mark = true
  kinds : ∀ target : Target, target.extension ∈ c.customizableExtensions

/-- The folder of every unit is given from the output path on. -/
def Config.FoldersBelow (c : Config) : Prop :=
  ∀ (unit : UnitKind) p, c.projectPath unit.name = .ok p →
    c.outputPath.anchor = p.anchor ∧ c.outputPath.parts <+: p.parts

theorem Path.suffix_file {stem : String} (some_ : stem ≠ "") (target : Target) :
    (Path.splitName (stem ++ target.extension)).2 = target.extension := by
  have chars : stem.toList ≠ [] := by simpa using some_
  cases target <;> simp [Path.splitName, Target.extension, chars]

theorem lower_extension (target : Target) : Text.lower target.extension = target.extension := by
  cases target <;> decide +kernel

namespace Output

/-- The path of a file goes on from the output path. -/
theorem parts_of_filePath (folders : c.FoldersBelow) (file : IsFilePath a.subPath) (path : filePath c a = .ok p) :
    ∃ more, p = ⟨c.outputPath.anchor, c.outputPath.parts ++ more⟩ := by
  obtain ⟨project, located, rfl⟩ := filePath_eq_ok path
  obtain ⟨anchor, names, parts⟩ := folders a.unit project located
  refine ⟨names ++ (Path.ofText a.subPath).parts, ?_⟩
  rw [Artifact.path, Path.join, if_pos file.1, anchor, ← List.append_assoc, parts]

/-- The mark stands on the first line of every file, whatever the formatter did. -/
theorem isMarked_of_bytes (ok : c.Recognizes) (encoded : bytes c a = .ok content) :
    isMarked c content = true := by
  obtain ⟨mark, label, trimmed, single⟩ := ok.mark
  obtain ⟨text, rendered, encoded⟩ := exists_of_bind_eq_ok encoded
  obtain ⟨ls, built, joined⟩ := exists_of_bind_eq_ok (mapError_eq_ok.mp rendered)
  obtain ⟨body, -, rfl⟩ := lines_eq_ok.mp built
  obtain ⟨texts, eq, rfl⟩ := Artifact.joined?_eq_ok.mp joined
  rw [markLines, if_pos ok.header, label] at eq
  obtain ⟨first, more, rfl, same, -⟩ := List.map_eq_cons_iff.mp eq.symm
  obtain rfl := Json.str.inj same
  have decoded := Text.decode_of_encode? (mapError_eq_ok.mp encoded)
  simp [isMarked, firstLine?, decoded, isMark, label, Text.firstFileLine_joinLines single, trimmed]

/-- What is at the place of a file has the suffix of a target, also when it is named from above. -/
theorem suffix_of_place (file : IsFilePath a.subPath) (path : filePath c a = .ok p)
    (place : t.placeOf p = above ++ rest) (some_ : rest ≠ []) (anchor : Anchor) (before : List String) :
    ∃ target : Target, (⟨anchor, before ++ rest⟩ : Path).suffix = target.extension := by
  obtain ⟨-, folders, stem, target, eq, stem_, plain⟩ := file
  obtain ⟨front, parts⟩ := last_of_filePath path eq
  have whole : p = ⟨p.anchor, front ++ [stem ++ target.extension]⟩ := by rw [← parts]
  rw [whole, placeOf_file stem_ plain] at place
  have last := congrArg List.getLast? place.symm
  rw [List.getLast?_append_of_ne_nil _ some_, List.getLast?_concat] at last
  have name : (⟨anchor, before ++ rest⟩ : Path).name = stem ++ target.extension := by
    rw [Path.name, List.getLast?_append_of_ne_nil _ some_, last, Option.getD_some]
  exact ⟨target, by rw [Path.suffix, name, Path.suffix_file stem_]⟩

section Written

variable (located : t.locate c.outputPath = .ok above)
  (empty : Generation.EmptyBelow t c.outputPath)

include located empty

/-- The way to an empty output path does not lead below it. -/
theorem eq_nil_of_passed (passes : above ++ rest ∈ t.passed c.outputPath) : rest = [] := by
  by_contra some_
  have free := empty rest some_
  rw [← locate_eq_ok located, directory_of_passed located _ passes] at free
  cases free

/-- All that writing puts below an empty output path can be found there. -/
theorem reached_of_written (sound : t.Sound) (folders : c.FoldersBelow) (files : ∀ a ∈ as, IsFilePath a.subPath)
    (isThere : ((write c as t).state.node? (above ++ rest)).isSome = true) :
    (write c as t).state.locate ⟨c.outputPath.anchor, c.outputPath.parts ++ rest⟩ =
      .ok (above ++ rest) := by
  obtain ⟨node, there⟩ := Option.isSome_iff_exists.mp isThere
  have soundAfter := preserves_write c as t sound
  have changed : ChangedAlong (fun p => ∃ a ∈ as, filePath c a = .ok p) t (write c as t).state :=
    preserves_changedAlong (fun a mem p path => ⟨a, mem, path⟩) t (.refl t)
  have rootAfter := changed.keeps.locate located
  by_cases none_ : rest = []
  · simpa [none_] using rootAfter
  have free := empty rest none_
  rw [← locate_eq_ok located] at free
  obtain ⟨p, names, ⟨a, mem, path⟩, start, reached⟩ := changed.along (above ++ rest) (by simp [there, free])
  obtain ⟨more, rfl⟩ := parts_of_filePath folders (files a mem) path
  have place : t.placeOf ⟨c.outputPath.anchor, names⟩ = above ++ rest := by
    rw [← changed.keeps.placeOf, ← locate_eq_ok reached]
  rcases List.prefix_or_prefix_of_prefix start (List.prefix_append _ _) with ⟨later, split⟩ | ⟨further, rfl⟩
  · -- a start of the output path leads to no new node
    exfalso
    by_cases last : later = []
    · rw [last, List.append_nil] at split
      rw [split] at place
      have same := (locate_eq_ok located).trans place
      simp [none_] at same
    · exact none_ (eq_nil_of_passed located empty (mem_passed_of_start split.symm last place))
  · exact soundAfter.locate_below rootAfter there none_ reached

/-- All files that writing puts below an empty output path are deleted. -/
theorem doomed_of_written (ok : c.Recognizes) (files : ∀ a ∈ as, IsFilePath a.subPath) {paths : List Path}
    (written : (write c as t).result = .ok paths) (some_ : rest ≠ [])
    (there : (write c as t).state.node? (above ++ rest) = some (.file content)) :
    Doomed c c.outputPath rest content := by
  have each := write_eq_ok_iff.mp written
  obtain ⟨-, -, laid⟩ := writeEach_eq_ok each
  rw [← state_write each] at laid
  have free := empty rest some_
  rw [← locate_eq_ok located] at free
  have here := laid (above ++ rest)
  split at here
  · rename_i last found
    obtain rfl : last = content := by simpa [there] using here.symm
    obtain ⟨a, mem, file⟩ := List.mem_filterMap.mp (mem_of_lastAt found)
    obtain ⟨p, path, encoded, place⟩ := fileOf?_eq_some_iff.mp file
    obtain ⟨target, suffix⟩ := suffix_of_place (files a mem) path place some_ c.outputPath.anchor
      c.outputPath.parts
    refine ⟨?_, isMarked_of_bytes ok encoded⟩
    rw [List.contains_iff_mem, suffix, lower_extension]
    exact ok.kinds target
  · simp [there, free] at here

end Written

end Output

namespace Generation

open Output

/-- Cleaning undoes a run. Where a run is written to a tree with an empty directory at the output path, cleaning
runs through and leaves that directory empty again, whatever the formatter did. All that is not below it is left as
the run left it. The packages have to leave the tree when they render. -/
theorem clean_undoes_run {packages : Packages} (quiet : EngineQuiet packages c t) {r : Registry} {hooks : Hooks}
    {document : Json} {provider : Metadata.Provider} {targets : List String} {settings : Settings.Resolver}
    {run : Result} {paths : List Path}
    (read : Metadata.Provider.ofJson document = .ok provider)
    (named : ∀ raw ∈ provider.types, IsIdentifier raw.name)
    (hooked : hooks.KeepThroughout fun a => IsFilePath a.subPath) (folders : c.FoldersBelow)
    (ok : c.Recognizes) (sound : t.Sound) (located : t.locate c.outputPath = .ok above)
    (there : t.node? above = some .directory) (empty : EmptyBelow t c.outputPath)
    (ran : (fromDocument packages r c hooks document targets { settings, tree := t }).result = .ok run)
    (written : (write c run.artifacts t).result = .ok paths) :
    let w := (write c run.artifacts t).state
    let deleting := deleteGenerated c c.outputPath w
    let removing := cleanDirectories c.outputPath deleting.state
    (fromDocument packages r c hooks document targets { settings, tree := t }).state.tree = t ∧
      (∃ deleted, deleting.result = .ok deleted) ∧ (∃ removed, removing.result = .ok removed) ∧
      removing.state.locate c.outputPath = .ok above ∧
      removing.state.node? above = some .directory ∧ EmptyBelow removing.state c.outputPath ∧
      ∀ x, (∀ rest, rest ≠ [] → x ≠ above ++ rest) → removing.state.node? x = w.node? x := by
  intro w deleting removing
  have files := subPath_of_types (Q := fun name _ => IsIdentifier name) read named hooked
    (fun d named target item mem s => Generator.isFilePath_plannedPath named mem) ran
  have apart : ∀ x ∈ t.passed c.outputPath, ∀ rest, rest ≠ [] → x ≠ above ++ rest := by
    rintro x passes rest some_ rfl
    exact some_ (eq_nil_of_passed located empty passes)
  have changed : ChangedAlong (fun _ => True) t w :=
    preserves_changedAlong (fun _ _ _ _ => trivial) t (.refl t)
  have locatedAfter := changed.keeps.locate located
  obtain ⟨deleted, removed, ranFiles, -, -, ranDirectories, -, -, cleaned⟩ :=
    exists_cleaned (preserves_write c _ t sound) (changed.keeps.directory above there)
      (fun rest => reached_of_written located empty sound folders files)
      (fun rest some_ passes => absurd rfl (apart _ (changed.keeps.passed c.outputPath ▸ passes) rest some_))
  have home : removing.state.home = w.home := cleaned.emptied.home.trans cleaned.purged.home
  have kept : ∀ x, (∀ rest, rest ≠ [] → x ≠ above ++ rest) → removing.state.node? x = w.node? x :=
    fun x => cleaned.outside
  have left := tree_fromDocument (w := { settings, tree := t }) quiet r hooks document targets
  refine ⟨left, ⟨deleted, ranFiles⟩, ⟨removed, ranDirectories⟩, ?_, ?_, ?_, kept⟩
  · refine locate_of_passed home locatedAfter fun x passes => ?_
    refine (kept x (apart x ?_)).trans (directory_of_passed locatedAfter x passes)
    rwa [← changed.keeps.passed]
  · refine (kept above fun rest some_ => ?_).trans (changed.keeps.directory above there)
    simpa using some_
  · intro rest some_
    have root : removing.state.placeOf c.outputPath = above := by
      rw [placeOf_of_home home, changed.keeps.placeOf, ← locate_eq_ok located]
    rw [root]
    exact cleaned.nothing (fun rest bytes some_ => doomed_of_written located empty ok files written some_) some_

/-- A configuration whose formatter drops every body. -/
def droppingConfig : Config := { enumConfig with
  outputPath := ⟨.relative, ["out"]⟩
  formatter := some (.change fun _ => .ok []) }

/-- A text beside an empty directory. -/
def besideTree : Tree := (empty.put ["notes.ts"] (.file (Text.encode "//g\n"))).put ["out"] .directory

/-- Two files without bodies are taken away with their folders; a file beside them stays, though it begins with
the mark. -/
theorem clean_undoes_run_dropped :
    ∃ run paths, (fromDocument .builtin .builtin droppingConfig .none (enumsOf ["Color", "Size"]) ["typescript"]
        { settings := .empty, tree := besideTree }).result = .ok run ∧
      (write droppingConfig run.artifacts besideTree).result = .ok paths ∧ paths.length = 2 ∧
      let w := (write droppingConfig run.artifacts besideTree).state
      let u := (cleanDirectories droppingConfig.outputPath
        (deleteGenerated droppingConfig droppingConfig.outputPath w).state).state
      w.node? ["out", "ng", "enums", "size.ts"] = some (.file (Text.encode "//g\n")) ∧
        EmptyBelow u droppingConfig.outputPath ∧ u.node? ["notes.ts"] = besideTree.node? ["notes.ts"] := by
  have checked : (fromDocument .builtin .builtin droppingConfig .none (enumsOf ["Color", "Size"])
      ["typescript"] { settings := .empty, tree := besideTree }).result.toOption.any (fun run =>
        (write droppingConfig run.artifacts besideTree).result.toOption.any (fun paths => paths.length = 2) &&
        decide ((write droppingConfig run.artifacts besideTree).state.node? ["out", "ng", "enums", "size.ts"] =
          some (.file (Text.encode "//g\n"))) &&
        decide ((write droppingConfig run.artifacts besideTree).state.node? ["notes.ts"] =
          besideTree.node? ["notes.ts"])) = true := by
    decide +kernel
  obtain ⟨run, ran, checked⟩ := exists_ok_of_any checked
  simp only [Bool.and_eq_true, decide_eq_true_eq] at checked
  obtain ⟨⟨isWritten, dropped⟩, beside⟩ := checked
  obtain ⟨paths, written, two⟩ := exists_ok_of_any isWritten
  have checkedTypes : (Metadata.Provider.ofJson (enumsOf ["Color", "Size"])).toOption.any (fun p =>
      decide (∀ raw ∈ p.types, IsIdentifier raw.name)) = true := by
    decide +kernel
  obtain ⟨provider, read, named⟩ := exists_ok_of_any checkedTypes
  have recognizes : droppingConfig.Recognizes :=
    ⟨by decide +kernel, ⟨"//g", rfl, by decide +kernel, by decide +kernel⟩, fun target => by
      cases target <;> decide +kernel⟩
  have sound : besideTree.Sound := by decide
  have located : besideTree.locate droppingConfig.outputPath = .ok ["out"] :=
    eq_ok_of_toOption (by decide +kernel)
  have free : EmptyBelow besideTree droppingConfig.outputPath := by
    intro rest some_
    have place : besideTree.placeOf droppingConfig.outputPath = ["out"] := rfl
    rw [place]
    cases rest with
    | nil => exact absurd rfl some_
    | cons name rest => simp [besideTree, node?, put, empty]
  have folders : droppingConfig.FoldersBelow := by
    intro unit p path
    have located : droppingConfig.projectPath unit.name =
        .ok ⟨.relative, ["out", enumUnitFolder unit]⟩ := by
      cases unit <;> exact eq_ok_of_toOption (by decide +kernel)
    obtain rfl := Except.ok.inj (located.symm.trans path)
    exact ⟨rfl, List.prefix_append ["out"] _⟩
  have quiet : EngineQuiet .builtin droppingConfig besideTree := fun e _ => Packages.builtin_quiet e _
  obtain ⟨-, -, -, -, -, nothing, kept⟩ := clean_undoes_run quiet read (of_decide_eq_true named)
    Hooks.keepThroughout_none folders recognizes sound located (by decide) free ran written
  refine ⟨run, paths, ran, written, of_decide_eq_true two, dropped, nothing, ?_⟩
  exact (kept _ (by simp)).trans beside

end Generation

end Scaffold
