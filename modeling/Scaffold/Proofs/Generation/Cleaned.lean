import Scaffold.Proofs.Generation.Savable
import Scaffold.Proofs.Template.Rendering

/-!
Cleaning between two runs. The files of a first run are written to by hand; a later run gives the same
files whether the regions were saved and the project was cleaned before it, or not.
-/

namespace Scaffold

open Region Output Scaffold.Tree

variable {c : Config} {t u : Tree} {project p : Path} {as : List Artifact}

namespace Generation

/-- Nothing in the directory of templates, nor that itself, is one of some files or a sidecar of one. -/
def TemplatesApart (c : Config) (t : Tree) (files : List Path) : Prop :=
  ∀ directory, Generator.templateDirectory? c.custom = .ok (some directory) → ∀ below, ".." ∉ below →
    Apart c t files ⟨directory.anchor, directory.parts ++ below⟩

theorem sameTemplates_of_externalized {files : List Path} (apart : TemplatesApart c t files)
    (h : Externalized c files t u) : SameTemplates c t u :=
  fun directory found below plain => (h.nodeAt? (apart directory found below plain)).symm

/-- The paths of the files of some artifacts. -/
def pathsOf (c : Config) (as : List Artifact) : List Path :=
  as.filterMap fun a => (filePath c a).toOption

/-- Artifacts that are written with the same files can be read alike. -/
theorem read_of_written_alike {as' : List Artifact} (keeps : KeepsDirectories t u)
    (same : as'.map Artifact.unstated = as.map Artifact.unstated) {paths paths' : List Path}
    (written : (write c as t).result = .ok paths) (written' : (write c as' u).result = .ok paths') :
    ∀ a ∈ as, ∀ p, filePath c a = .ok p →
      ∃ content, (write c as t).state.read p = .ok content ∧
        (write c as' u).state.read p = .ok content := by
  intro a mem p path
  have each := write_eq_ok_iff.mp written
  have each' := write_eq_ok_iff.mp written'
  obtain ⟨placed, keepsT, laid⟩ := writeEach_eq_ok each
  obtain ⟨placed', keepsU, laid'⟩ := writeEach_eq_ok each'
  rw [← state_write each] at placed keepsT laid
  rw [← state_write each', filterMap_fileOf?_congr same, fileOf?_of_keeps keeps] at laid'
  rw [← state_write each'] at placed' keepsU
  obtain ⟨q, at_, content, pathQ, encoded, isPlace⟩ := placed a mem
  obtain rfl := Except.ok.inj (path.symm.trans pathQ)
  obtain ⟨q, at', _, pathQ', _, isPlace'⟩ := placed'.congr same.symm a mem
  obtain rfl := Except.ok.inj (path.symm.trans pathQ')
  have place : t.placeOf p = at_ := (keepsT.placeOf p).symm.trans isPlace.eq_placeOf
  have place' : t.placeOf p = at' := by
    rw [← isPlace'.eq_placeOf, keepsU.placeOf, keeps.placeOf]
  obtain rfl := place.symm.trans place'
  have file : (at_, content) ∈ as.filterMap (fileOf? t c) :=
    List.mem_filterMap.mpr ⟨a, mem, fileOf?_eq_some_iff.mpr ⟨p, path, encoded, place⟩⟩
  obtain ⟨last, isLast, _⟩ := lastAt_of_mem file
  have here := laid at_
  have here' := laid' at_
  rw [isLast] at here here'
  exact ⟨last, read_eq_ok.mpr ⟨at_, isPlace.located, here⟩, read_eq_ok.mpr ⟨at_, isPlace'.located, here'⟩⟩

/-- The configurations whose regions survive a cleaning: no label or mark is taken for another, and no sidecar
for a file with regions. -/
structure Cleanable (c : Config) : Prop where
  proper : c.labels.Proper
  labels : ∀ label ∈ c.labels.all, Text.isSingleLine label.text = true
  mark : Text.isSingleLine c.generatedLabel.text = true
  unlike : isLabelLine c.labels c.generatedLabel.text = false
  plain : c.formatter = none
  extension : ∃ extension, c.customExtension.text = "." ++ extension ∧ '.' ∉ extension.toList
  other : c.customizableExtensions.contains (Text.lower c.customExtension.text) = false

theorem Cleanable.legible (h : Cleanable c) : c.Legible := by
  refine ⟨h.proper, h.labels, fun _ text eq => ?_⟩
  have mark := h.mark
  have unlike := h.unlike
  rw [eq, Json.text] at mark unlike
  rw [Text.reread_of_single mark]
  simpa using unlike

/-- A later run finds the same regions for its artifacts in a project that was saved and cleaned. -/
theorem sameFor_of_externalized (ok : Cleanable c) (savable : Savable c project t)
    (free : SidecarsFree c t (customizableFiles c t project) (pathsOf c as))
    (h : Externalized c (customizableFiles c t project) t u) : ∀ a ∈ as, SameFor c t u a := by
  intro a mem p path
  obtain ⟨extension, dot, single⟩ := ok.extension
  have files : ∀ f ∈ customizableFiles c t project, _ := fun f => (mem_customizableFiles savable.sound).mp
  refine h.sameRegions savable.sound ok.proper (fun f memF => (files f memF).2.1)
    (fun f memF => (files f memF).1) ?_ free (List.mem_filterMap.mpr ⟨a, mem, by simp [path, Except.toOption]⟩)
    fun s sidecar f memF => savable.sidecar_ne dot single ok.other memF sidecar
  intro f memF bytes found
  obtain ⟨_, _, above, rest, located, _, below, there, rfl⟩ := files f memF
  obtain ⟨at_, locatedF, node⟩ := read_eq_ok.mp found
  obtain rfl := (locate_eq_ok locatedF).trans (savable.sound.placeOf_listed located there)
  rw [locate_eq_ok located] at node
  exact (savable.files rest bytes below node).1

/-- Lines are put by hand into the files of a first run. Whether the regions of the project are saved and the
project is cleaned before a later run or not, that run builds the same artifacts and gives the same files. The
packages have to leave the tree when they render, and in the later run to render alike where the templates are the
same. -/
theorem run_after_cleaning {packages : Packages} (quiet : EngineQuiet packages c t)
    (steady : EngineSteady packages c u) (ok : Cleanable c) (sound : t.Sound) (empty : EmptyBelow t project)
    {r r' : Registry} {document document' : Json} {names names' : List String}
    {settings settings' : Settings.Resolver} {first direct : Result}
    (ran : (fromDocument packages r c .none document names { settings, tree := t }).result = .ok first)
    (clean : ∀ a ∈ first.artifacts, Clean c.labels a) {paths paths' : List Path}
    (written : (write c first.artifacts t).result = .ok paths)
    (edited : HandWritten c.labels (write c first.artifacts t).state u)
    (ranDirect : (fromDocument packages r' c .none document' names' { settings := settings', tree := u }).result =
      .ok direct)
    (success : direct.isSuccess = true)
    (templates : TemplatesApart c u (customizableFiles c u project))
    (free : SidecarsFree c u (customizableFiles c u project) (pathsOf c direct.artifacts))
    (writtenDirect : (write c direct.artifacts u).result = .ok paths') :
    let saved := saveAll c project u
    let cleaned := deleteGenerated c project saved.state
    (∀ found, u.under? project = .ok found →
      (∃ paths, saved.result = .ok paths) ∧ ∃ paths, cleaned.result = .ok paths) ∧
    ∃ again, (fromDocument packages r' c .none document' names'
        { settings := settings', tree := cleaned.state }).result = .ok again ∧
      again.isSuccess = true ∧
      again.artifacts.map (fun a => (a.subPath, a.source)) =
        direct.artifacts.map (fun a => (a.subPath, a.source)) ∧
      ∀ paths, (write c again.artifacts cleaned.state).result = .ok paths →
        ∀ a ∈ direct.artifacts, ∀ p, filePath c a = .ok p →
          ∃ content, (write c direct.artifacts u).state.read p = .ok content ∧
            (write c again.artifacts cleaned.state).state.read p = .ok content := by
  intro saved cleaned
  have savable := (savable_of_written ok.legible ok.plain sound empty (fromDocument_gives quiet ran) clean
    written).handWritten edited
  obtain ⟨runs, moved⟩ := externalized savable.sound ok.proper ok.labels ok.unlike free
  obtain ⟨again, ranAgain, successAgain, unstated⟩ :=
    fromDocument_agree steady (sameTemplates_of_externalized templates moved) ranDirect success
      (sameFor_of_externalized ok savable free moved)
  refine ⟨runs, again, ranAgain, successAgain, ?_, fun paths writtenAgain =>
    read_of_written_alike moved.same.keeps unstated writtenDirect writtenAgain⟩
  have view := congrArg (List.map fun a : Artifact => (a.subPath, a.source)) unstated
  simpa only [List.map_map, Function.comp_def, Artifact.subPath_unstated, Artifact.source_unstated] using view

/-- A document of enumerations. -/
def enumsOf (names : List String) : Json :=
  .obj [("types", .arr (names.map fun name => .obj [("name", .str name), ("kind", .str "enum"),
    ("members", .arr [.obj [("name", .str "Red")]])]))]

/-- Short labels and folders. Sidecars are listed after the files of enumerations. -/
def enumConfig : Config := { Config.default with
  unitFolders := .obj [("AngularApp", .str "ng")]
  angularSourcePath := .str ""
  labels := ⟨.str "//<i", .str "//i>", .str "//<c", .str "//c>"⟩
  customExtension := .str ".user"
  generatedLabel := .str "//g" }

def runEnums (names : List String) (t : Tree) : Except DocumentError Result :=
  (fromDocument .builtin .builtin enumConfig .none (enumsOf names) ["typescript"]
    { settings := .empty, tree := t }).result

def enumProject : Path := ⟨.workingDirectory, ["ng"]⟩

def enumFolder : Location := ["ng", "enums"]

def enumPath (rest : Location) : Path := ⟨.workingDirectory, enumFolder ++ rest⟩

/-- What is written for an enumeration with some custom lines. -/
def enumLines (name : String) (custom : List String) : List String :=
  ["//g", "export enum " ++ name ++ " \x7b", "  Red = 0,", "//<c"] ++ custom ++ ["//c>", "\x7d"]

def enumText (name : String) (custom : List String) : ByteArray :=
  Text.encode (Text.joinLines (enumLines name custom))

/-- A project of enumerations. -/
def enumTree (nodes : List (Location × Node)) : Tree :=
  ⟨[], [(["ng"], .directory), (enumFolder, .directory)] ++
    nodes.map fun (rest, node) => (enumFolder ++ rest, node)⟩

theorem cleanable_enum : Cleanable enumConfig where
  proper := Config.proper_of_warnings (eq_ok_of_toOption (by decide +kernel))
  labels := by decide +kernel
  mark := by decide +kernel
  unlike := by decide +kernel
  plain := rfl
  extension := ⟨"user", by decide +kernel, by decide⟩
  other := by decide +kernel

theorem steady_enum (t : Tree) : EngineSteady .builtin enumConfig t :=
  engineSteady_of_memory rfl (Packages.builtin_steady_of_memory rfl _) t

theorem quiet_enum (t : Tree) : EngineQuiet .builtin enumConfig t :=
  (steady_enum t).quiet (sameTemplates_of_memory rfl t t)

theorem templatesApart_enum (t : Tree) (files : List Path) : TemplatesApart enumConfig t files := by
  intro directory found
  have memory : Generator.templateDirectory? enumConfig.custom = .ok none := rfl
  rw [memory] at found
  simp at found

/-- What is listed of a project. -/
def listing (ordered : List (Location × Node)) : List (Path × Node) :=
  ordered.map fun (rest, node) => (⟨enumProject.anchor, enumProject.parts ++ rest⟩, node)

theorem under?_enumProject (sound : t.Sound) (home : t.home = []) (there : t.node? ["ng"] = some .directory) :
    t.under? enumProject =
      .ok (listing ((t.descendants ["ng"]).insertionSort fun a b => precedes a b = true)) := by
  have possible : impossible? enumProject = none := by decide +kernel
  have start : t.start enumProject.anchor = [] := home
  refine sound.under?_eq (locate_eq_ok_iff.mpr ⟨possible, ?_, ?_⟩) there
  · rw [start, node?_nil]
  · rw [start]
    rfl

theorem cleaned_of_listed {found found' : List (Path × Node)} {v w : Tree}
    (listed : t.under? project = .ok found) (isSaved : (saveEach c (found.map (·.1)) t).state = v)
    (listed' : v.under? project = .ok found')
    (isCleaned : (Action.mapEach deleteOne ((found'.map (·.1)).filter (isDeletable c v)) v).state = w) :
    (deleteGenerated c project (saveAll c project t).state).state = w := by
  have saved : (saveAll c project t).state = v := by rw [← isSaved, saveAll, listed]
  rw [saved, state_deleteGenerated listed', isCleaned]

def runShop (t : Tree) : Except DocumentError Result :=
  (fromDocument .builtin .builtin enumConfig .none shopDocument ["typescript"] { settings := .empty, tree := t }).result

/-- What is written for an order, with lines put into its regions. -/
def orderLines (imports members : List String) : List String :=
  ["//g", "import \x7b Status \x7d from '@app-enums/shop/status';", "//<i"] ++ imports ++
    ["//i>", "export interface Order \x7b", "  total: number;", "  status: Status;", "//<c"] ++ members ++
    ["//c>", "\x7d"]

/-- What is written for its service. -/
def serviceLines (methods : List String) : List String :=
  ["//g", "import \x7b Injectable \x7d from '@angular/core';",
    "import \x7b HttpClient \x7d from '@angular/common/http';",
    "import \x7b ApiEntityBaseService \x7d from '@app-services/api-entity-base.service';",
    "import \x7b environment \x7d from '@environment/environment';",
    "import \x7b Order \x7d from '@app-models/shop/order';", "//<i", "//i>", "@Injectable(\x7b",
    "  providedIn: 'root',", "\x7d)", "export class OrderService extends ApiEntityBaseService<Order> \x7b",
    "  constructor(public override http: HttpClient) \x7b",
    "    super(http, environment.API_BASE_URL + '/orders');", "  \x7d", "//<c"] ++ methods ++ ["//c>", "\x7d"]

def statusPlace : Location := ["ng", "enums", "shop", "status.ts"]

def orderPlace : Location := ["ng", "models", "shop", "order.ts"]

def servicePlace : Location := ["ng", "services", "http", "shop", "order-service.ts"]

/-- The files of the order. -/
def shopPaths : List Path := [statusPlace, orderPlace, servicePlace].map (⟨.workingDirectory, ·⟩)

/-- A project with these files, and more after them. -/
def shopTree (imports members methods : List String) (more : List (Location × Node)) : Tree :=
  let file (lines : List String) : Node := .file (Text.encode (Text.joinLines lines))
  ⟨[], [(["ng"], .directory), (["ng", "enums"], .directory), (["ng", "enums", "shop"], .directory),
    (statusPlace, file ["//g", "export enum Status \x7b", "  Open = 0,", "//<c", "//c>", "\x7d"]),
    (["ng", "models"], .directory), (["ng", "models", "shop"], .directory),
    (orderPlace, file (orderLines imports members)), (["ng", "services"], .directory),
    (["ng", "services", "http"], .directory), (["ng", "services", "http", "shop"], .directory),
    (servicePlace, file (serviceLines methods))] ++ more⟩

def itemImport : String := "import \x7b Item \x7d from '../../items';"

def itemsMember : String := "  items: Item[];"

def latestMethod : String := "  latest() \x7b return this.getAll(); \x7d"

/-- The project after an import, a member and a method were put in. -/
def shopEdited : Tree := shopTree [itemImport] [itemsMember] [latestMethod] []

def shopSidecars : List (Location × Node) := [
  (["ng", "models", "shop", "order.user"],
    .file (Text.encode (Text.joinLines ["//<i", itemImport, "//i>", "//<c", itemsMember, "//c>"]))),
  (["ng", "services", "http", "shop", "order-service.user"],
    .file (Text.encode (Text.joinLines ["//<c", latestMethod, "//c>"])))]

/-- The project after its regions were saved and it was cleaned. -/
def shopCleaned : Tree :=
  ⟨[], (shopEdited.nodes.filter fun (_, node) => node = .directory) ++ shopSidecars⟩

theorem listed_shopEdited : shopEdited.under? enumProject = .ok (listing (shopEdited.descendants ["ng"])) := by
  have sorted : (shopEdited.descendants ["ng"]).insertionSort (fun a b => precedes a b = true) =
      shopEdited.descendants ["ng"] := by
    decide +kernel
  rw [under?_enumProject (by decide) rfl (by decide), sorted]

theorem cleaned_shop :
    (deleteGenerated enumConfig enumProject (saveAll enumConfig enumProject shopEdited).state).state =
      shopCleaned := by
  have isSaved : (saveEach enumConfig ((listing (shopEdited.descendants ["ng"])).map (·.1)) shopEdited).state =
      shopTree [itemImport] [itemsMember] [latestMethod] shopSidecars := by
    decide +kernel
  exact cleaned_of_listed listed_shopEdited isSaved (under?_enumProject (by decide) rfl (by decide))
    (by decide +kernel)

theorem handWritten_shop : HandWritten enumConfig.labels (shopTree [] [] [] []) shopEdited := by
  have imported : HandWritten enumConfig.labels (shopTree [] [] [] []) (shopTree [itemImport] [] [] []) :=
    HandWritten.none.insert_after orderPlace (orderLines [] []) 3 itemImport (by decide +kernel) (by decide +kernel)
      (by decide +kernel) (by decide +kernel)
  have extended : HandWritten enumConfig.labels (shopTree [] [] [] []) (shopTree [itemImport] [itemsMember] [] []) :=
    imported.insert_after orderPlace (orderLines [itemImport] []) 9 itemsMember (by decide +kernel) (by decide +kernel)
      (by decide +kernel) (by decide +kernel)
  exact extended.insert_after servicePlace (serviceLines []) 16 latestMethod (by decide +kernel) (by decide +kernel)
    (by decide +kernel) (by decide +kernel)

theorem sidecarsFree_shop {later : List Path} (same : later = shopPaths) :
    SidecarsFree enumConfig shopEdited (customizableFiles enumConfig shopEdited enumProject) later := by
  have files : customizableFiles enumConfig shopEdited enumProject = shopPaths :=
    (customizableFiles_of_listed listed_shopEdited).trans (by decide +kernel)
  let place (p : Path) : Location := p.parent.parts ++ [p.stem ++ ".user"]
  have room : ∀ f ∈ shopPaths, (sidecarPath enumConfig f).toOption.any (fun s =>
      decide (IsPlace shopEdited s (place f) ∧ shopEdited.node? (place f) = none)) = true := by
    decide +kernel
  have isFile : ∀ f ∈ shopPaths, shopEdited.isFile f = true := by decide +kernel
  have distinct : (shopPaths.map place).Nodup := by decide +kernel
  rw [files]
  refine sidecarsFree_of_places isFile (fun f mem => ?_) distinct fun p mem => same ▸ mem
  obtain ⟨s, sidecar, isPlace⟩ := exists_ok_of_any (room f mem)
  exact ⟨s, sidecar, of_decide_eq_true isPlace⟩

/-- The lines in an order and in its service are there again after their regions were saved, the files were
deleted and the run was repeated. -/
theorem run_after_cleaning_shop :
    let cleaned := (deleteGenerated enumConfig enumProject (saveAll enumConfig enumProject shopEdited).state).state
    (∀ p ∈ shopPaths, cleaned.isFile p = false) ∧
      ∃ again, runShop cleaned = .ok again ∧ ∀ p ∈ shopPaths, ∃ content,
        shopEdited.read p = .ok content ∧ (write enumConfig again.artifacts cleaned).state.read p = .ok content := by
  intro cleaned
  have isCleaned : cleaned = shopCleaned := cleaned_shop
  have checkedFirst : (runShop .empty).toOption.any (fun first =>
      decide (∀ a ∈ first.artifacts, Clean enumConfig.labels a) &&
      (write enumConfig first.artifacts .empty).result.toOption.isSome &&
      decide ((write enumConfig first.artifacts .empty).state = shopTree [] [] [] [])) = true := by
    decide +kernel
  have checkedDirect : (runShop shopEdited).toOption.any (fun direct =>
      direct.isSuccess && decide (pathsOf enumConfig direct.artifacts = shopPaths) &&
      (write enumConfig direct.artifacts shopEdited).result.toOption.isSome &&
      decide ((write enumConfig direct.artifacts shopEdited).state = shopEdited)) = true := by
    decide +kernel
  have checkedAgain : (runShop cleaned).toOption.any (fun again =>
      (write enumConfig again.artifacts cleaned).result.toOption.isSome) = true := by
    rw [isCleaned]
    decide +kernel
  obtain ⟨first, ran, checkedFirst⟩ := exists_ok_of_any checkedFirst
  obtain ⟨direct, ranDirect, checkedDirect⟩ := exists_ok_of_any checkedDirect
  obtain ⟨again, ranAgain, checkedAgain⟩ := exists_ok_of_any checkedAgain
  simp only [Bool.and_eq_true, decide_eq_true_eq] at checkedFirst checkedDirect
  obtain ⟨⟨clean, written⟩, isFirst⟩ := checkedFirst
  obtain ⟨⟨⟨success, paths⟩, writtenDirect⟩, isDirect⟩ := checkedDirect
  obtain ⟨_, written⟩ := Option.isSome_iff_exists.mp written
  obtain ⟨_, writtenDirect⟩ := Option.isSome_iff_exists.mp writtenDirect
  obtain ⟨_, writtenAgain⟩ := Option.isSome_iff_exists.mp checkedAgain
  have edited : HandWritten enumConfig.labels (write enumConfig first.artifacts .empty).state shopEdited :=
    isFirst ▸ handWritten_shop
  have emptyBelow : EmptyBelow .empty enumProject := fun rest some_ => by
    simp [node?_of_ne_nil _ (show _ ++ rest ≠ [] by simp [some_]), Tree.empty]
  obtain ⟨_, again', ranAgain', _, _, alike⟩ := run_after_cleaning (quiet_enum _) (steady_enum _) cleanable_enum
    sound_empty emptyBelow ran clean (eq_ok_of_toOption written) edited ranDirect success (templatesApart_enum _ _)
    (sidecarsFree_shop paths) (eq_ok_of_toOption writtenDirect)
  obtain rfl : again = again' := Except.ok.inj (ranAgain.symm.trans ranAgain')
  have gone : ∀ p ∈ shopPaths, shopCleaned.isFile p = false := by decide +kernel
  refine ⟨isCleaned ▸ gone, again, ranAgain, fun p mem => ?_⟩
  obtain ⟨a, mem, path⟩ := List.mem_filterMap.mp (paths ▸ mem)
  obtain ⟨content, here, there⟩ := alike _ (eq_ok_of_toOption writtenAgain) a mem p (eq_ok_of_toOption path)
  exact ⟨content, isDirect ▸ here, there⟩

/-- A file whose sidecar would be a directory, after a line was put in. -/
def nestedTree : Tree :=
  enumTree [(["a.ts"], .file (enumText "A" ["  keep();"])), (["a.user"], .directory),
    (["a.user", "b.ts"], .file (enumText "A.user/B" []))]

theorem nestedTree_cleaned :
    (deleteGenerated enumConfig enumProject (saveAll enumConfig enumProject nestedTree).state).state =
      enumTree [(["a.user"], .directory)] := by
  have isSaved : (saveEach enumConfig ((listing ((nestedTree.descendants ["ng"]).insertionSort
      fun a b => precedes a b = true)).map (·.1)) nestedTree).state = nestedTree := by
    decide +kernel
  exact cleaned_of_listed (under?_enumProject (by decide) rfl (by decide)) isSaved
    (under?_enumProject (by decide) rfl (by decide)) (by decide +kernel)

/-- A directory at the path of a sidecar: the regions are not saved, the file is deleted all the same, and
the line is lost. -/
theorem lost_of_sidecar_directory :
    let cleaned := (deleteGenerated enumConfig enumProject
      (saveAll enumConfig enumProject nestedTree).state).state
    Cleanable enumConfig ∧ enumConfig.projectPath "AngularApp" = .ok enumProject ∧
      (∃ first, runEnums ["A", "A.user/B"] .empty = .ok first ∧ first.isSuccess = true ∧
        (∀ a ∈ first.artifacts, Clean enumConfig.labels a) ∧
        (∃ paths, (write enumConfig first.artifacts .empty).result = .ok paths) ∧
        HandWritten enumConfig.labels (write enumConfig first.artifacts .empty).state nestedTree) ∧
      ∃ direct again, runEnums ["A"] nestedTree = .ok direct ∧ direct.isSuccess = true ∧
        runEnums ["A"] cleaned = .ok again ∧ again.isSuccess = true ∧
        pathsOf enumConfig direct.artifacts = [enumPath ["a.ts"]] ∧
        (∀ a ∈ direct.artifacts ++ again.artifacts, Clean enumConfig.labels a) ∧
        (∃ paths, (write enumConfig direct.artifacts nestedTree).result = .ok paths) ∧
        (∃ paths, (write enumConfig again.artifacts cleaned).result = .ok paths) ∧
        (write enumConfig direct.artifacts nestedTree).state.read (enumPath ["a.ts"]) =
          .ok (enumText "A" ["  keep();"]) ∧
        (write enumConfig again.artifacts cleaned).state.read (enumPath ["a.ts"]) =
          .ok (enumText "A" []) := by
  intro cleaned
  have isCleaned : cleaned = enumTree [(["a.user"], .directory)] := nestedTree_cleaned
  have checkedFirst : (runEnums ["A", "A.user/B"] .empty).toOption.any (fun first =>
      first.isSuccess && decide (∀ a ∈ first.artifacts, Clean enumConfig.labels a) &&
      (write enumConfig first.artifacts .empty).result.toOption.isSome &&
      decide ((write enumConfig first.artifacts .empty).state =
        enumTree [(["a.ts"], .file (enumText "A" [])), (["a.user"], .directory),
          (["a.user", "b.ts"], .file (enumText "A.user/B" []))])) = true := by
    decide +kernel
  have checkedDirect : (runEnums ["A"] nestedTree).toOption.any (fun direct =>
      direct.isSuccess && decide (∀ a ∈ direct.artifacts, Clean enumConfig.labels a) &&
      decide (pathsOf enumConfig direct.artifacts = [enumPath ["a.ts"]]) &&
      (write enumConfig direct.artifacts nestedTree).result.toOption.isSome &&
      decide (((write enumConfig direct.artifacts nestedTree).state.read (enumPath ["a.ts"])).toOption =
        some (enumText "A" ["  keep();"]))) = true := by
    decide +kernel
  have checkedAgain : (runEnums ["A"] cleaned).toOption.any (fun again =>
      again.isSuccess && decide (∀ a ∈ again.artifacts, Clean enumConfig.labels a) &&
      (write enumConfig again.artifacts cleaned).result.toOption.isSome &&
      decide (((write enumConfig again.artifacts cleaned).state.read (enumPath ["a.ts"])).toOption =
        some (enumText "A" []))) = true := by
    rw [isCleaned]
    decide +kernel
  obtain ⟨first, ran, checkedFirst⟩ := exists_ok_of_any checkedFirst
  obtain ⟨direct, ranDirect, checkedDirect⟩ := exists_ok_of_any checkedDirect
  obtain ⟨again, ranAgain, checkedAgain⟩ := exists_ok_of_any checkedAgain
  simp only [Bool.and_eq_true, decide_eq_true_eq] at checkedFirst checkedDirect checkedAgain
  obtain ⟨⟨⟨success, clean⟩, written⟩, isFirst⟩ := checkedFirst
  obtain ⟨⟨⟨⟨successDirect, cleanDirect⟩, paths⟩, writtenDirect⟩, isDirect⟩ := checkedDirect
  obtain ⟨⟨⟨successAgain, cleanAgain⟩, writtenAgain⟩, isAgain⟩ := checkedAgain
  obtain ⟨_, written⟩ := Option.isSome_iff_exists.mp written
  obtain ⟨_, writtenDirect⟩ := Option.isSome_iff_exists.mp writtenDirect
  obtain ⟨_, writtenAgain⟩ := Option.isSome_iff_exists.mp writtenAgain
  have edited : HandWritten enumConfig.labels (write enumConfig first.artifacts .empty).state nestedTree := by
    rw [isFirst]
    exact HandWritten.none.insert_after (enumFolder ++ ["a.ts"]) (enumLines "A" []) 4 "  keep();" (by decide +kernel)
      (by decide +kernel) (by decide +kernel) (by decide +kernel)
  exact ⟨cleanable_enum, eq_ok_of_toOption (by decide +kernel),
    ⟨first, ran, success, clean, ⟨_, eq_ok_of_toOption written⟩, edited⟩, direct, again, ranDirect, successDirect,
    ranAgain, successAgain, paths, List.forall_mem_append.mpr ⟨cleanDirect, cleanAgain⟩,
    ⟨_, eq_ok_of_toOption writtenDirect⟩, ⟨_, eq_ok_of_toOption writtenAgain⟩, eq_ok_of_toOption isDirect,
    eq_ok_of_toOption isAgain⟩

end Generation

end Scaffold
