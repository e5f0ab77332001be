import Scaffold.Proofs.Generation.Agreement
import Scaffold.Proofs.Output.Writing
import Scaffold.Proofs.Region.Inserted
import Scaffold.Proofs.Template.Rendering

/-!
Running twice. The second run finds the files of the first where that found none, builds the same artifacts
from them, and writes what is there already.
-/

namespace Scaffold

open Region Output Artifact

variable {c : Config} {t u : Tree} {a a' b : Artifact} {as as' : List Artifact}

namespace Output

theorem bytes_congr (same : a'.unstated = a.unstated) : bytes c a' = bytes c a := by
  have source : a'.source = a.source := by simpa using congrArg Artifact.source same
  simp only [bytes, render, lines, source]

theorem fileOf?_congr (same : a'.unstated = a.unstated) : fileOf? t c a' = fileOf? t c a := by
  rw [fileOf?, fileOf?, Generation.filePath_congr same, bytes_congr same]

/-- Artifacts that differ in the states of their merges alone have the same files. -/
theorem filterMap_fileOf?_congr (same : as'.map Artifact.unstated = as.map Artifact.unstated) :
    as'.filterMap (fileOf? t c) = as.filterMap (fileOf? t c) := by
  induction as generalizing as' with
  | nil =>
    obtain rfl := List.map_eq_nil_iff.mp same
    rfl
  | cons a rest ih =>
    obtain ⟨a', rest', rfl, first, more⟩ := List.map_eq_cons_iff.mp same
    rw [List.filterMap_cons, List.filterMap_cons, fileOf?_congr first, ih more]

theorem AllPlaced.congr (h : AllPlaced c t as)
    (same : as'.map Artifact.unstated = as.map Artifact.unstated) : AllPlaced c t as' := by
  intro a' mem'
  have mem : a'.unstated ∈ as.map Artifact.unstated := same ▸ List.mem_map_of_mem mem'
  obtain ⟨a, mem, eq⟩ := List.mem_map.mp mem
  rw [Generation.filePath_congr eq.symm, bytes_congr eq.symm]
  exact h a mem

end Output

namespace Generation

/-- No artifact has a file or a sidecar in the tree. -/
def Unwritten (c : Config) (t : Tree) (as : List Artifact) : Prop :=
  ∀ a ∈ as, ∀ p, filePath c a = .ok p →
    t.fileAt? p = none ∧ ∀ s, sidecarPath c p = .ok s → t.fileAt? s = none

/-- Where neither a file nor a sidecar is, an artifact is merged with no regions. -/
theorem mergedTo_of_unwritten {e : Artifact} {r : Regions} {p : Path}
    (extracted : e.hasRegions = true → ∃ state, (extract c t p).result = .ok (state, r))
    (unwritten : t.fileAt? p = none ∧ ∀ s, sidecarPath c p = .ok s → t.fileAt? s = none) :
    mergedTo c.labels e r = mergedTo c.labels e .none := by
  unfold mergedTo
  by_cases regions : e.hasRegions = true
  · obtain ⟨state, extracted⟩ := extracted regions
    have empty := linesOf_extract_of_no_file unwritten.1 unwritten.2 extracted
    rw [spliced_congr (extract_labelled extracted) (none_labelled c.labels)
      fun kind => by rw [empty kind, linesOf_none]]
  · simp [regions]

theorem not_isLabelLine_empty {l : RegionLabels} (proper : l.Proper) : isLabelLine l "" = false := by
  cases isLabel : isLabelLine l ""
  · rfl
  · obtain ⟨label, mem, holds⟩ := List.any_eq_true.mp isLabel
    have text := proper.not_blank_of_holds mem holds
    simp [Text.isBlankLine] at text

/-- The file of a clean artifact that was built without prior regions holds no custom lines. -/
theorem linesOf_readLines (legible : c.Legible) (plain : c.formatter = none) (built : IsBuilt c t b)
    (clean : Clean c.labels b) (unwritten : Unwritten c t [b]) {content : ByteArray}
    (encoded : bytes c b = .ok content) {p : Path} (found : u.read p = .ok content) :
    ∃ lines, readLines u p = .ok lines ∧ ∀ kind, (parse c.labels lines).linesOf kind = [] := by
  obtain ⟨_, e, q, r, above, below, _, path, parts, extracted⟩ := built
  obtain ⟨body, source, single, labels⟩ := clean
  obtain ⟨texts, eq, encodedTexts⟩ := (bytes_eq_ok plain).mp encoded
  rw [source] at eq
  obtain ⟨mark, marked, rfl⟩ := markLines_append eq
  have noRegions : mergedTo c.labels e r = mergedTo c.labels e .none :=
    mergedTo_of_unwritten extracted (unwritten b (by simp) q path)
  have sourceE : above ++ (mergedTo c.labels e .none).source ++ below = body.map .str := by
    rw [noRegions] at parts
    exact (congrArg Artifact.source parts).symm.trans source
  -- but for its state and source, what was built is the artifact that the regions were inserted in
  have regions : b.hasRegions = e.hasRegions := (congrArg Artifact.hasRegions parts :)
  have custom : b.hasCustomImports = e.hasCustomImports :=
    (congrArg Artifact.hasCustomImports parts :)
  have labelsE : body.filter (isLabelLine c.labels) = insertedLabels c.labels e := by
    rw [labels, insertedLabels, insertedLabels, regions, custom]
  have free := not_isLabelLine_mark legible marked
  by_cases some_ : mark ++ body = []
  · refine ⟨[""], ?_, linesOf_of_free fun x hx => ?_⟩
    · rw [← (Text.encode?_eq_ok.mp encodedTexts).2] at found
      rw [readLines_of_text found, some_, Text.splitLines_joinLines_nil]
    · obtain rfl := List.mem_singleton.mp hx
      exact not_isLabelLine_empty legible.proper
  · refine ⟨_, readLines_written some_ encodedTexts found, ?_⟩
    rw [List.flatMap_append, Text.flatMap_reread_of_single single]
    exact linesOf_of_clean legible.proper sourceE labelsE free

/-- After a first run was written, the same regions are found for its artifacts as before: none. -/
theorem sameFor_of_written (legible : c.Legible) (plain : c.formatter = none)
    (built : ∀ a ∈ as, IsBuilt c t a) (clean : ∀ a ∈ as, Clean c.labels a)
    (unwritten : Unwritten c t as) {paths : List Path}
    (written : (Action.mapEach (writeOne c) as t).result = .ok paths) :
    ∀ a ∈ as, SameFor c t (Action.mapEach (writeOne c) as t).state a := by
  intro a mem p path state r extracted
  obtain ⟨here, beside⟩ := unwritten a mem p path
  obtain ⟨b, memB, content, encoded, found, -⟩ := read_of_written written mem path
  have alone : Unwritten c t [b] := by
    intro x hx
    obtain rfl := List.mem_singleton.mp hx
    exact unwritten x memB
  obtain ⟨lines, isRead, empty⟩ :=
    linesOf_readLines legible plain (built b memB) (clean b memB) alone encoded found
  refine ⟨_, _, extract_of_prior (priorPath?_of_read found) isRead, fun kind => ?_⟩
  rw [empty kind, linesOf_extract_of_no_file here beside extracted kind]

/-- A run over a document into a tree without its files, written, run again over that tree and written again:
the same artifacts are built, and the tree stays as it is. What is asked of the packages is that the templates
that are always there are rendered alike in all trees. -/
theorem run_write_twice {packages : Packages}
    (steady : packages.Steady ⟨none, Template.builtins⟩ (Template.Within fun _ => True))
    {r : Registry} {document : Json} {names : List String} {settings : Settings.Resolver}
    (valid : c.warnings = .ok []) (plain : c.formatter = none)
    (memory : Generator.templateDirectory? c.custom = .ok none)
    (labels : ∀ label ∈ c.labels.all, Text.isSingleLine label.text = true)
    (mark : Text.isSingleLine c.generatedLabel.text = true)
    (unlike : isLabelLine c.labels c.generatedLabel.text = false) {first : Result}
    (ran : (fromDocument packages r c .none document names { settings, tree := t }).result = .ok first)
    (success : first.isSuccess = true) (unwritten : Unwritten c t first.artifacts)
    (clean : ∀ a ∈ first.artifacts, Clean c.labels a) {paths : List Path}
    (written : (write c first.artifacts t).result = .ok paths) :
    let run := fun tree => fromDocument packages r c .none document names { settings, tree }
    let u := (write c first.artifacts t).state
    (run t).state.tree = t ∧ (run u).state.tree = u ∧
    ∃ second, (run u).result = .ok second ∧ second.isSuccess = true ∧
      second.artifacts.map (fun a => (a.subPath, a.source)) =
        first.artifacts.map (fun a => (a.subPath, a.source)) ∧
      (∃ paths, (write c second.artifacts u).result = .ok paths) ∧
      ∀ at_, (write c second.artifacts u).state.node? at_ = u.node? at_ := by
  intro run u
  have legible : c.Legible := by
    refine ⟨Config.proper_of_warnings valid, labels, fun _ text eq => ?_⟩
    rw [eq, Json.text] at mark unlike
    rw [Text.reread_of_single mark]
    simpa using unlike
  have writtenEach := write_eq_ok_iff.mp written
  have u_eq : u = (Action.mapEach (writeOne c) first.artifacts t).state := state_write writtenEach
  have steadyIn := engineSteady_of_memory memory steady
  have templates := sameTemplates_of_memory memory
  have quiet (t : Tree) := (steadyIn t).quiet (templates t t)
  have built := fromDocument_gives (w := { settings, tree := t }) (quiet t) ran
  have same := sameFor_of_written legible plain built clean unwritten writtenEach
  rw [← u_eq] at same
  have left (t : Tree) : (run t).state.tree = t :=
    tree_fromDocument (w := { settings, tree := t }) (quiet t) r .none document names
  refine ⟨left t, left u, ?_⟩
  obtain ⟨second, ran', success', unstated⟩ := fromDocument_agree (steadyIn t) (templates t u) ran success same
  obtain ⟨placed, keeps, laid⟩ := writeEach_eq_ok writtenEach
  rw [← u_eq] at placed keeps laid
  rw [← fileOf?_of_keeps keeps] at laid
  have files := filterMap_fileOf?_congr (c := c) (t := u) unstated
  have free : ∀ file ∈ second.artifacts.filterMap (fileOf? u c), u.node? file.1 ≠ some .directory := by
    intro file mem
    rw [files] at mem
    obtain ⟨last, isLast, _⟩ := lastAt_of_mem mem
    have here := laid file.1
    rw [isLast] at here
    simp [here]
  obtain ⟨⟨paths', again⟩, nodes⟩ := writeEach_of_placed (placed.congr unstated) free
  refine ⟨second, ran', success', ?_, ⟨paths', write_eq_ok_iff.mpr again⟩, fun at_ => ?_⟩
  · have view := congrArg (List.map fun a : Artifact => (a.subPath, a.source)) unstated
    simpa only [List.map_map, Function.comp_def, subPath_unstated, source_unstated] using view
  · rw [state_write again, nodes at_, files]
    have here := laid at_
    cases last : lastAt (first.artifacts.filterMap (fileOf? u c)) at_ with
    | none => rfl
    | some content =>
      rw [last] at here
      exact here.symm

theorem unwritten_empty (c : Config) (as : List Artifact) : Unwritten c .empty as := fun _ _ p _ =>
  ⟨Tree.fileAt?_empty p, fun s _ => Tree.fileAt?_empty s⟩

/-- An order with its status: a model in a namespace, with usings and an envelope, and a model that imports an
enumeration and has a service. -/
def shopDocument : Json := .obj [("types", .arr [
  .obj [("name", .str "Order"), ("namespace", .str "Shop"), ("kind", .str "entity"), ("properties", .arr [
    .obj [("name", .str "Total"), ("type", .str "decimal")],
    .obj [("name", .str "Status"), ("type", .str "Shop.Status"), ("is_enum", .bool true)]])],
  .obj [("name", .str "Status"), ("namespace", .str "Shop"), ("kind", .str "enum"),
    ("members", .arr [.obj [("name", .str "Open")]])]])]

/-- The files of the order. -/
def shopFiles : List String := ["Models/Shop/Order.cs", "Models/Shop/OrderInheritance.cs",
  "src/app/enums/shop/status.ts", "src/app/models/shop/order.ts", "src/app/services/http/shop/order-service.ts"]

/-- A line of each part: an envelope, a using, an import, and what the template of the service gives. -/
def shopLines : List String := ["namespace App.Models.Shop", "using System;",
  "import \x7b Status \x7d from '@app-enums/shop/status';",
  "    super(http, environment.API_BASE_URL + '/orders');"]

/-- The order, generated for both targets and written twice. -/
theorem run_write_twice_shop :
    let c := { Config.default with outputPath := Path.ofText "out" }
    let run := fun tree => fromDocument .builtin .builtin c .none shopDocument ["csharp", "typescript"]
      { settings := .empty, tree }
    ∃ first, (run .empty).result = .ok first ∧ first.artifacts.map Artifact.subPath = shopFiles ∧
      shopLines.all (fun line => (first.artifacts.flatMap Artifact.source).contains (.str line)) = true ∧
      ∃ second, (run (write c first.artifacts .empty).state).result = .ok second ∧
        ∀ at_, (write c second.artifacts (write c first.artifacts .empty).state).state.node? at_ =
          (write c first.artifacts .empty).state.node? at_ := by
  intro c run
  have checked : (run .empty).result.toOption.any (fun first => first.isSuccess &&
      decide (first.artifacts.map Artifact.subPath = shopFiles) &&
      shopLines.all (fun line => (first.artifacts.flatMap Artifact.source).contains (.str line)) &&
      decide (∀ a ∈ first.artifacts, Clean c.labels a) &&
      (write c first.artifacts .empty).result.toOption.isSome) = true := by
    decide +kernel
  obtain ⟨first, ran, checked⟩ := exists_ok_of_any checked
  simp only [Bool.and_eq_true, decide_eq_true_eq] at checked
  obtain ⟨⟨⟨⟨success, files⟩, lines⟩, clean⟩, isWritten⟩ := checked
  obtain ⟨paths, written⟩ := Option.isSome_iff_exists.mp isWritten
  obtain ⟨_, _, second, ran', _, _, _, nodes⟩ := run_write_twice (c := c) (t := .empty)
    (Packages.builtin_steady_of_memory rfl _)
    (eq_ok_of_toOption (by decide +kernel)) rfl rfl (by decide +kernel) (by decide +kernel)
    (by decide +kernel) ran success (unwritten_empty c _) clean (eq_ok_of_toOption written)
  exact ⟨first, ran, files, lines, second, ran', nodes⟩

end Generation

end Scaffold
