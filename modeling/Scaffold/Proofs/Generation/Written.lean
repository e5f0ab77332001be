import Scaffold.Proofs.Generation.Cleaned
import Scaffold.Proofs.Generation.Location
import Scaffold.Proofs.Graph.Extracted
import Scaffold.Proofs.Output.Writing
import Scaffold.Proofs.Region.Externalized

/-!
What a run leaves in a tree. The artifacts of a run have distinct paths, and paths that do not lead up lead
to distinct places; so every file holds the artifact that it was written for, and no other file is changed.
-/

namespace Scaffold

open Scaffold.Graph Naming Output Region Scaffold.Tree

variable {c : Config} {t u : Tree} {a b : Artifact} {as : List Artifact} {p q s : Path} {paths : List Path}
  {at_ : Location}

/-- The folders that are given for the files of the targets do not lead up. -/
def Config.IsStraight (c : Config) : Prop :=
  ∀ item root, pathPart (Generator.rootGiven c item) = .ok root → ".." ∉ Path.partsOf root

/-- The folder of no unit lies in that of another. -/
def Config.UnitsApart (c : Config) (t : Tree) : Prop :=
  ∀ (unit unit' : UnitKind) p q, c.projectPath unit.name = .ok p → c.projectPath unit'.name = .ok q →
    t.placeOf p <+: t.placeOf q → unit = unit'

/-- From its first dot on the custom extension is not that of a target. -/
def Config.SidecarsApart (c : Config) : Prop :=
  ∀ target : Target, c.customExtension.text.toList.dropWhile (· != '.') ≠ target.extension.toList

/-- A path that is seen from where it is used. Its last name is a stem without dots under the extension of a
target. -/
def IsFilePath (s : String) : Prop :=
  (Path.ofText s).anchor = .relative ∧ ∃ folders stem, ∃ target : Target,
    Path.partsOf s = folders ++ [stem ++ target.extension] ∧ stem ≠ "" ∧ '.' ∉ stem.toList

theorem Generator.isFilePath_plannedPath {d : TypeDescriptor} {item : ItemKind} {planned : String}
    (named : IsIdentifier d.name) {target : Target} (mem : item ∈ target.items)
    (h : plannedPath c d item = .ok planned) : IsFilePath planned := by
  obtain ⟨folders, front, last, names, eq⟩ := ofText_plannedPath_file mem h
  obtain ⟨_, stem, names', some_, plain, slash⟩ := namesOf_file named mem
  obtain rfl : last = stem ++ target.extension :=
    List.singleton_inj.mp (List.append_inj' (names.symm.trans names') rfl).2
  refine ⟨by rw [eq], folders, stem, target, ?_, some_, plain⟩
  rw [← Path.parts_ofText, eq, Path.partsOf_file slash]

/-- A name that does not lead up is that of the place. -/
theorem Tree.placeOf_file {anchor : Anchor} {before : List String} {stem : String} (some_ : stem ≠ "")
    (plain : '.' ∉ stem.toList) (rest : String) :
    t.placeOf ⟨anchor, before ++ [stem ++ rest]⟩ = t.placeOf ⟨anchor, before⟩ ++ [stem ++ rest] := by
  have straight : ".." ∉ [stem ++ rest] := by simpa using ne_dotted some_ plain rfl rest
  rw [placeOf_append t ⟨anchor, before⟩, placeFrom_of_straight _ straight]

namespace Output

theorem filePath_eq_ok (path : filePath c a = .ok p) :
    ∃ project, c.projectPath a.unit.name = .ok project ∧ p = a.path project := by
  unfold filePath at path
  cases project : c.projectPath a.unit.name with
  | error e => simp [project, Except.map] at path
  | ok root => exact ⟨root, rfl, by simpa [project, Except.map, eq_comm] using path⟩

/-- Artifacts whose paths stay below the folders of their units have one place only if they have one path. -/
theorem path_eq_of_place (units : c.UnitsApart t) (belowA : Path.StaysBelow a.subPath)
    (belowB : Path.StaysBelow b.subPath) (pathA : filePath c a = .ok p) (pathB : filePath c b = .ok q)
    (place : t.placeOf p = t.placeOf q) : p = q := by
  obtain ⟨project, located, rfl⟩ := filePath_eq_ok pathA
  obtain ⟨project', located', rfl⟩ := filePath_eq_ok pathB
  rw [Artifact.path, belowA.join, Artifact.path, belowB.join, placeOf_append, placeOf_append,
    placeFrom_of_straight _ belowA.2, placeFrom_of_straight _ belowB.2] at place
  have unit : a.unit = b.unit := by
    rcases List.prefix_or_prefix_of_prefix ⟨_, place⟩ ⟨_, rfl⟩ with inside | inside
    · exact units _ _ _ _ located located' inside
    · exact (units _ _ _ _ located' located inside).symm
  obtain rfl : project = project' := by simpa [unit, located'] using located.symm
  rw [Artifact.path, Artifact.path, belowA.join, belowB.join, List.append_cancel_left place]

theorem last_of_filePath {names : List String} {last : String} (path : filePath c a = .ok p)
    (eq : Path.partsOf a.subPath = names ++ [last]) : ∃ front, p.parts = front ++ [last] := by
  obtain ⟨project, _, rfl⟩ := filePath_eq_ok path
  exact Artifact.path_concat eq project

/-- The paths that are returned are those of the artifacts. -/
theorem located_of_written (h : (Action.mapEach (writeOne c) as t).result = .ok paths) :
    Generation.Located c as paths := by
  induction as generalizing t paths with
  | nil =>
    obtain rfl := Except.ok.inj h
    exact .nil
  | cons a rest ih =>
    obtain ⟨p, more, rfl, first, others, _⟩ := Action.mapEach_cons_eq_ok h
    exact Generation.Located.cons_iff.mpr ⟨(writeOne_eq_ok first).1, ih others⟩

/-- Where no two artifacts have one place, each is in its own. -/
theorem read_of_apart (written : (Action.mapEach (writeOne c) as t).result = .ok paths)
    (apart : ∀ a ∈ as, ∀ b ∈ as, ∀ p q, filePath c a = .ok p → filePath c b = .ok q →
      t.placeOf p = t.placeOf q → a = b) (mem : a ∈ as) :
    ∃ p content, filePath c a = .ok p ∧ bytes c a = .ok content ∧
      (Action.mapEach (writeOne c) as t).state.read p = .ok content := by
  obtain ⟨p, _, _, path, _⟩ := (writeEach_eq_ok written).1 a mem
  obtain ⟨b, memB, content, encoded, found, q, pathB, place⟩ := read_of_written written mem path
  obtain rfl := apart a mem b memB p q path pathB place
  exact ⟨p, content, path, encoded, found⟩

/-- Where no artifact leads, the files are as before. -/
theorem file_of_elsewhere (written : (Action.mapEach (writeOne c) as t).result = .ok paths)
    (elsewhere : ∀ p ∈ paths, t.placeOf p ≠ at_) (content : ByteArray) :
    (Action.mapEach (writeOne c) as t).state.node? at_ = some (.file content) ↔
      t.node? at_ = some (.file content) := by
  obtain ⟨_, _, laid⟩ := writeEach_eq_ok written
  have here := laid at_
  cases last : lastAt (as.filterMap (fileOf? t c)) at_ with
  | some other =>
    obtain ⟨a, mem, file⟩ := List.mem_filterMap.mp (mem_of_lastAt last)
    obtain ⟨p, path, _, place⟩ := fileOf?_eq_some_iff.mp file
    obtain ⟨q, memQ, path'⟩ := (located_of_written written).path mem
    obtain rfl := Except.ok.inj (path.symm.trans path')
    exact absurd place (elsewhere p memQ)
  | none =>
    rw [last] at here
    rcases here with same | ⟨free, made⟩
    · rw [same]
    · simp [free, made]

end Output

theorem dropWhile_dot {stem : String} (plain : '.' ∉ stem.toList) (rest : String) :
    (stem ++ rest).toList.dropWhile (· != '.') = rest.toList.dropWhile (· != '.') := by
  rw [String.toList_append, List.dropWhile_append_of_pos]
  intro ch mem
  simpa using ne_of_mem_of_not_mem mem plain

/-- A sidecar is at no artifact's place. -/
theorem sidecar_elsewhere (apart : c.SidecarsApart) (fileA : IsFilePath a.subPath)
    (fileB : IsFilePath b.subPath) (pathA : filePath c a = .ok p) (pathB : filePath c b = .ok q)
    (sidecar : sidecarPath c p = .ok s) : t.placeOf s ≠ t.placeOf q := by
  intro place
  obtain ⟨-, folders, stem, target, eq, some_, plain⟩ := fileA
  obtain ⟨-, folders', stem', target', eq', some', plain'⟩ := fileB
  obtain ⟨front, parts⟩ := last_of_filePath pathA eq
  obtain ⟨front', parts'⟩ := last_of_filePath pathB eq'
  have stemP : p.stem = stem := by
    rw [Path.stem, Path.name, parts]
    simpa using Path.stem_file some_ target
  have whole : q = ⟨q.anchor, front' ++ [stem' ++ target'.extension]⟩ := by rw [← parts']
  rw [(sidecarPath_eq_ok sidecar).1, stemP, placeOf_file some_ plain, whole, placeOf_file some' plain'] at place
  have same := List.singleton_inj.mp (List.append_inj' place rfl).2
  refine apart target' ?_
  rw [← dropWhile_dot plain, same, dropWhile_dot plain']
  cases target' <;> rfl

namespace Generation

/-- What writing artifacts makes of one tree in another: every file that is written holds its artifact alone,
and every other file is as before. -/
structure WrittenWhole (c : Config) (as : List Artifact) (paths : List Path) (t u : Tree) : Prop where
  located : Located c as paths
  distinct : paths.Nodup
  whole : ∀ a ∈ as, ∃ p text content, filePath c a = .ok p ∧ render c a = .ok text ∧
    Text.encode? text = .ok content ∧ u.read p = .ok content
  elsewhere : ∀ at_, (∀ p ∈ paths, t.placeOf p ≠ at_) → ∀ content,
    u.node? at_ = some (.file content) ↔ t.node? at_ = some (.file content)

theorem writtenWhole_of_apart (units : c.UnitsApart t) (below : ∀ a ∈ as, Path.StaysBelow a.subPath)
    {paths' : List Path} (located : Located c as paths') (distinct : paths'.Nodup)
    (written : (Action.mapEach (writeOne c) as t).result = .ok paths) :
    WrittenWhole c as paths t (Action.mapEach (writeOne c) as t).state := by
  have returned := located_of_written written
  obtain rfl := located.unique returned
  refine ⟨returned, distinct, fun a mem => ?_, fun at_ elsewhere => file_of_elsewhere written elsewhere⟩
  have apart : ∀ a ∈ as, ∀ b ∈ as, ∀ p q, filePath c a = .ok p → filePath c b = .ok q →
      t.placeOf p = t.placeOf q → a = b := by
    intro a memA b memB p q pathA pathB place
    obtain rfl := path_eq_of_place units (below a memA) (below b memB) pathA pathB place
    exact returned.eq_of_path distinct memA memB pathA pathB
  obtain ⟨p, content, path, encoded, found⟩ := read_of_apart written apart mem
  obtain ⟨text, rendered, encoded⟩ := exists_of_bind_eq_ok encoded
  exact ⟨p, text, content, path, mapError_eq_ok.mp rendered, mapError_eq_ok.mp encoded, found⟩

/-- What holds of all paths that are planned for the types of a document holds of the paths of a run. -/
theorem subPath_of_types {packages : Packages} {r : Registry} {hooks : Hooks} {document : Json}
    {provider : Metadata.Provider} {names : List String} {w : Workshop} {run : Result} {P : String → Prop}
    {Q : String → String → Prop}
    (read : Metadata.Provider.ofJson document = .ok provider)
    (named : ∀ raw ∈ provider.types, Q raw.name raw.namespace_)
    (keep : hooks.KeepThroughout fun a => P a.subPath)
    (planned : ∀ (d : TypeDescriptor), Q d.name d.namespace_ → ∀ (target : Target), ∀ item ∈ target.items,
      ∀ s, Generator.plannedPath c d item = .ok s → P s)
    (ran : (fromDocument packages r c hooks document names w).result = .ok run) :
    ∀ a ∈ run.artifacts, P a.subPath := by
  obtain ⟨graph, gs, first, extracted, made, generated, rfl⟩ := fromDocument_eq_ok ran
  obtain ⟨provider', read', extracted⟩ := extractDocument_eq_ok extracted
  obtain rfl := Except.ok.inj (read.symm.trans read')
  have described : ∀ d ∈ graph.descriptors, Q d.name d.namespace_ := by
    intro d mem
    obtain ⟨raw, memRaw, described⟩ := exists_of_mem_extract extracted mem
    obtain ⟨_, name, namespace_, _⟩ := describe_eq_ok described
    exact name ▸ namespace_ ▸ named raw (mem_types_of_mem_candidates memRaw)
  have config : ∀ g ∈ gs, g.config = c ∧ g.hooks = hooks := by
    intro g mem
    obtain ⟨name, _, found⟩ := exists_of_mem_mapM made mem
    exact (generatorFor_eq_ok found).1
  intro a mem
  exact generated_keeps keep config (fun d mem => planned d (described d mem)) generated a mem

/-- The paths of a run do not lead up, and their files are named for types. -/
theorem subPath_of_run {packages : Packages} {r : Registry} {hooks : Hooks} {document : Json}
    {provider : Metadata.Provider} {names : List String} {w : Workshop} {run : Result} {P : String → Prop}
    (read : Metadata.Provider.ofJson document = .ok provider)
    (named : ∀ raw ∈ provider.types,
      IsIdentifier raw.name ∧ ∀ segment ∈ segments raw.namespace_, IsIdentifier segment)
    (keep : hooks.KeepThroughout fun a => P a.subPath)
    (planned : ∀ (d : TypeDescriptor), d.HasIdentifiers → ∀ (target : Target), ∀ item ∈ target.items,
      ∀ s, Generator.plannedPath c d item = .ok s → P s)
    (ran : (fromDocument packages r c hooks document names w).result = .ok run) :
    ∀ a ∈ run.artifacts, P a.subPath :=
  subPath_of_types (Q := fun name space =>
      IsIdentifier name ∧ ∀ segment ∈ segments space, IsIdentifier segment) read named keep
    (fun d identifiers => planned d ⟨identifiers.1, identifiers.2⟩) ran

/-- A run over a document whose types have identifiers for names, written to a tree: the paths that are
returned are those of the artifacts, all distinct; the file of each artifact holds just its text; and every
other file is as before. If no hook moves a file and a sidecar is told by its extension, this goes for all
sidecars. What the packages do does not count. -/
theorem run_written_whole {packages : Packages} {r : Registry} {hooks : Hooks} {document : Json}
    {provider : Metadata.Provider} {names : List String} {w : Workshop} {run : Result}
    (read : Metadata.Provider.ofJson document = .ok provider)
    (named : ∀ raw ∈ provider.types,
      IsIdentifier raw.name ∧ ∀ segment ∈ segments raw.namespace_, IsIdentifier segment)
    (straight : c.IsStraight) (units : c.UnitsApart u)
    (hooked : hooks.KeepThroughout fun a => Path.StaysBelow a.subPath)
    (ran : (fromDocument packages r c hooks document names w).result = .ok run)
    (written : (write c run.artifacts u).result = .ok paths) :
    let v := (write c run.artifacts u).state
    WrittenWhole c run.artifacts paths u v ∧
      (c.SidecarsApart → (∀ s, hooks.KeepThroughout fun a => a.subPath = s) →
        ∀ a ∈ run.artifacts, ∀ p s content, filePath c a = .ok p → sidecarPath c p = .ok s →
          u.read s = .ok content → v.read s = .ok content) := by
  intro v
  have writtenEach := write_eq_ok_iff.mp written
  have v_eq : v = (Action.mapEach (writeOne c) run.artifacts u).state := state_write writtenEach
  have below := subPath_of_run read named hooked
    (fun d named target item mem s => Generator.staysBelow_plannedPath named mem straight) ran
  obtain ⟨paths', located, distinct⟩ := distinct_of_run ran
  have whole := writtenWhole_of_apart units below located distinct writtenEach
  rw [← v_eq] at whole
  refine ⟨whole, fun apart unmoved a memA p s content path sidecar found => ?_⟩
  have files := subPath_of_run read named (.of_subPath unmoved IsFilePath)
    (fun d named target item mem s => Generator.isFilePath_plannedPath named.name mem) ran
  obtain ⟨at_, locatedS, node⟩ := read_eq_ok.mp found
  have keeps : KeepsDirectories u v := v_eq ▸ (writeEach_eq_ok writtenEach).2.1
  refine read_eq_ok.mpr ⟨at_, keeps.locate locatedS, (whole.elsewhere at_ ?_ content).mpr node⟩
  intro q memQ place
  obtain ⟨b, memB, pathB⟩ := whole.located.artifact memQ
  exact sidecar_elsewhere apart (files a memA) (files b memB) path pathB sidecar
    ((locate_eq_ok locatedS).symm.trans place.symm)

theorem isStraight_enum (extension : Json) :
    { enumConfig with customExtension := extension }.IsStraight := by
  intro item root located
  cases item <;> cases located <;> decide

/-- The folders of the units are two folders beside each other. -/
def enumUnitFolder : UnitKind → String
  | .webApi => "webapi"
  | .angularApp => "ng"

theorem projectPath_enum (extension : Json) (unit : UnitKind) :
    { enumConfig with customExtension := extension }.projectPath unit.name =
      .ok ⟨.workingDirectory, [enumUnitFolder unit]⟩ := by
  change enumConfig.projectPath unit.name = _
  cases unit <;> exact eq_ok_of_toOption (by decide +kernel)

theorem unitsApart_enum (extension : Json) (nodes : List (Location × Node)) :
    { enumConfig with customExtension := extension }.UnitsApart ⟨[], nodes⟩ := by
  intro unit unit' p q path path' inside
  obtain rfl := Except.ok.inj ((projectPath_enum extension unit).symm.trans path)
  obtain rfl := Except.ok.inj ((projectPath_enum extension unit').symm.trans path')
  revert inside
  cases unit <;> cases unit' <;> simp [placeOf, start, placeFrom, enumUnitFolder]

def colorSidecar : Location × Node := (["color.user"], .file (Text.encode (Text.joinLines
  ["//<c", "  keep();", "//c>"])))

/-- Two enumerations, written beside the sidecar of one. -/
theorem run_written_whole_enums :
    let u := enumTree [colorSidecar]
    ∃ run paths, runEnums ["Color", "Size"] u = .ok run ∧
      (write enumConfig run.artifacts u).result = .ok paths ∧ run.artifacts.length = 2 ∧
      WrittenWhole enumConfig run.artifacts paths u (write enumConfig run.artifacts u).state ∧
      ∃ content, u.read (enumPath ["color.user"]) = .ok content ∧
        (write enumConfig run.artifacts u).state.read (enumPath ["color.user"]) = .ok content := by
  intro u
  have checked : (runEnums ["Color", "Size"] u).toOption.any (fun run =>
      decide (run.artifacts.length = 2) && (write enumConfig run.artifacts u).result.toOption.isSome &&
      decide ((run.artifacts.map (filePath enumConfig)).filterMap Except.toOption =
          [enumPath ["color.ts"], enumPath ["size.ts"]])) = true := by
    decide +kernel
  obtain ⟨run, ran, checked⟩ := exists_ok_of_any checked
  simp only [Bool.and_eq_true, decide_eq_true_eq] at checked
  obtain ⟨⟨two, isWritten⟩, files⟩ := checked
  obtain ⟨paths, written⟩ := Option.isSome_iff_exists.mp isWritten
  have checkedTypes : (Metadata.Provider.ofJson (enumsOf ["Color", "Size"])).toOption.any (fun p =>
      decide (p.types.map (·.name) = ["Color", "Size"]) &&
      decide (∀ raw ∈ p.types, segments raw.namespace_ = [])) = true := by
    decide +kernel
  obtain ⟨provider, read, checkedTypes⟩ := exists_ok_of_any checkedTypes
  simp only [Bool.and_eq_true, decide_eq_true_eq] at checkedTypes
  obtain ⟨typeNames, spaces⟩ := checkedTypes
  have named : ∀ raw ∈ provider.types,
      IsIdentifier raw.name ∧ ∀ segment ∈ segments raw.namespace_, IsIdentifier segment := by
    intro raw mem
    refine ⟨?_, by simp [spaces raw mem]⟩
    have memName : raw.name ∈ ["Color", "Size"] := typeNames ▸ List.mem_map_of_mem mem
    rcases List.mem_pair.mp memName with eq | eq <;> rw [eq] <;> decide
  obtain ⟨whole, sidecars⟩ := run_written_whole read named (isStraight_enum _) (unitsApart_enum _ _)
    Hooks.keepThroughout_none ran (eq_ok_of_toOption written)
  have found : u.read (enumPath ["color.user"]) = .ok (Text.encode (Text.joinLines
      ["//<c", "  keep();", "//c>"])) := eq_ok_of_toOption (by decide +kernel)
  have mem : enumPath ["color.ts"] ∈ (run.artifacts.map (filePath enumConfig)).filterMap Except.toOption := by
    simp [files]
  obtain ⟨r, memR, path⟩ := List.mem_filterMap.mp mem
  obtain ⟨a, memA, rfl⟩ := List.mem_map.mp memR
  have apart : enumConfig.SidecarsApart := by
    intro target
    cases target <;> decide +kernel
  exact ⟨run, paths, ran, eq_ok_of_toOption written, two, whole, _, found,
    sidecars apart (fun s => Hooks.keepThroughout_none) a memA _ _ _ (eq_ok_of_toOption path)
      (eq_ok_of_toOption (by decide +kernel)) found⟩

/-- Sidecars that are files of enumerations, too. -/
def overlapConfig : Config := { enumConfig with customExtension := .str "b.ts" }

/-- The sidecar of one enumeration in the place of another. -/
def overlapTree : Tree := enumTree [(["ab.ts"], colorSidecar.2)]

/-- A hook that sends the file of one type elsewhere. -/
def sendTo (path : String) : Hook := fun a subject =>
  .ok (if subject.name = "B" then { a with subPath := path } else a, false)

/-- With an extension that makes the file of one type the sidecar of another, a run writes over the sidecar;
and with a hook that leads a path up, or gives it from the root on, it writes over the file of an artifact. -/
theorem lost_by_extension_or_hook :
    (overlapConfig.IsStraight ∧ overlapConfig.UnitsApart overlapTree ∧ ∃ run,
      (fromDocument .builtin .builtin overlapConfig .none (enumsOf ["A", "Ab"]) ["typescript"]
        { settings := .empty, tree := overlapTree }).result = .ok run ∧ run.isSuccess = true ∧
      (∃ paths, (write overlapConfig run.artifacts overlapTree).result = .ok paths) ∧
      ∃ a ∈ run.artifacts, filePath overlapConfig a = .ok (enumPath ["a.ts"]) ∧
        sidecarPath overlapConfig (enumPath ["a.ts"]) = .ok (enumPath ["ab.ts"]) ∧
        ∃ content, overlapTree.read (enumPath ["ab.ts"]) = .ok content ∧
          (write overlapConfig run.artifacts overlapTree).state.read (enumPath ["ab.ts"]) ≠ .ok content) ∧
    (enumConfig.IsStraight ∧ enumConfig.UnitsApart .empty ∧
      ∀ path ∈ ["enums/../enums/a.ts", "/ng/enums/a.ts"], ∃ run,
      (fromDocument .builtin .builtin enumConfig { finish := [sendTo path] } (enumsOf ["A", "B"]) ["typescript"]
        { settings := .empty, tree := .empty }).result = .ok run ∧ run.isSuccess = true ∧
      (∃ paths, (write enumConfig run.artifacts .empty).result = .ok paths) ∧
      ∃ a ∈ run.artifacts, ∃ p content, filePath enumConfig a = .ok p ∧ bytes enumConfig a = .ok content ∧
        (write enumConfig run.artifacts .empty).state.read p ≠ .ok content) := by
  constructor
  · have checked : (fromDocument .builtin .builtin overlapConfig .none (enumsOf ["A", "Ab"]) ["typescript"]
        { settings := .empty, tree := overlapTree }).result.toOption.any (fun run => run.isSuccess &&
          (write overlapConfig run.artifacts overlapTree).result.toOption.isSome &&
          run.artifacts.any (fun a => decide ((filePath overlapConfig a).toOption = some (enumPath ["a.ts"]))) &&
          decide (((write overlapConfig run.artifacts overlapTree).state.read (enumPath ["ab.ts"])).toOption ≠
            (overlapTree.read (enumPath ["ab.ts"])).toOption) &&
          (overlapTree.read (enumPath ["ab.ts"])).toOption.isSome) = true := by
      decide +kernel
    obtain ⟨run, ran, checked⟩ := exists_ok_of_any checked
    simp only [Bool.and_eq_true, decide_eq_true_eq, List.any_eq_true] at checked
    obtain ⟨⟨⟨⟨success, isWritten⟩, a, mem, path⟩, lost⟩, isThere⟩ := checked
    obtain ⟨paths, written⟩ := Option.isSome_iff_exists.mp isWritten
    obtain ⟨content, found⟩ := Option.isSome_iff_exists.mp isThere
    exact ⟨isStraight_enum _, unitsApart_enum _ _, run, ran, success, ⟨paths, eq_ok_of_toOption written⟩, a,
      mem, eq_ok_of_toOption path, eq_ok_of_toOption (by decide +kernel), content, eq_ok_of_toOption found,
      fun same => lost (by rw [same, found]; rfl)⟩
  · refine ⟨isStraight_enum _, unitsApart_enum _ _, fun path mem => ?_⟩
    have checked : (fromDocument .builtin .builtin enumConfig { finish := [sendTo path] } (enumsOf ["A", "B"])
        ["typescript"] { settings := .empty, tree := .empty }).result.toOption.any (fun run => run.isSuccess &&
          (write enumConfig run.artifacts .empty).result.toOption.isSome &&
          run.artifacts.any (fun a => (filePath enumConfig a).toOption.any fun p =>
            (bytes enumConfig a).toOption.any fun content =>
              decide (((write enumConfig run.artifacts .empty).state.read p).toOption ≠ some content))) = true := by
      revert path
      decide +kernel
    obtain ⟨run, ran, checked⟩ := exists_ok_of_any checked
    simp only [Bool.and_eq_true, List.any_eq_true] at checked
    obtain ⟨⟨success, isWritten⟩, a, mem, lost⟩ := checked
    obtain ⟨paths, written⟩ := Option.isSome_iff_exists.mp isWritten
    obtain ⟨p, path, lost⟩ := exists_ok_of_any lost
    obtain ⟨content, encoded, lost⟩ := exists_ok_of_any lost
    exact ⟨run, ran, success, ⟨paths, eq_ok_of_toOption written⟩, a, mem, p, content,
      path, encoded, fun same => of_decide_eq_true lost (by rw [same]; rfl)⟩

end Generation

end Scaffold
