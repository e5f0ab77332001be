import Scaffold.Proofs.Generation.Order
import Scaffold.Proofs.Generation.Recorded
import Scaffold.Proofs.Graph.ReportTexts
import Scaffold.Proofs.Region.Page
import Scaffold.Proofs.TypeScript.Accounted

/-!
The warnings of a run over a document. None is missing: each text that a validation finds or that is recorded is
there. A run over a graph gives each text once, but the reports of the extraction are put before its warnings as
they are. So a text is there twice just where two reports have it, or a report and a warning about an option.
-/

namespace Scaffold

namespace Config

variable {c : Config} {text text' : String} {found : List String}

theorem eq_of_mem_warningIf {condition : Bool} {message : String} (mem : text ∈ warningIf condition message) :
    text = message := by
  unfold warningIf at mem
  split at mem
  · exact List.mem_singleton.mp mem
  · cases mem

/-- The first word of the text is one that warnings about options begin with. -/
def BeginsAsOption (text : String) : Prop :=
  ∃ word ∈ ["Invalid", "Unsupported", "angular_source_path"], word.toList ++ [' '] <+: text.toList

instance (text : String) : Decidable (BeginsAsOption text) :=
  inferInstanceAs (Decidable (∃ word ∈ ["Invalid", "Unsupported", "angular_source_path"], _))

theorem BeginsAsOption.append (h : BeginsAsOption text) (more : String) : BeginsAsOption (text ++ more) := by
  obtain ⟨word, mem, front⟩ := h
  rw [BeginsAsOption, String.toList_append]
  exact ⟨word, mem, front.trans (List.prefix_append _ _)⟩

theorem beginsAsOption_of_namespace {what : String} {v : Json} (h : namespaceWarnings what v = .ok found)
    (mem : text ∈ found) : BeginsAsOption text := by
  obtain ⟨s, _, h⟩ := exists_of_bind_eq_ok h
  obtain rfl := Except.ok.inj h
  have invalid : BeginsAsOption "Invalid C# " := by decide
  rw [eq_of_mem_warningIf mem]
  exact ((invalid.append what).append ": ").append s

theorem beginsAsOption_of_baseClass {classes : List (String × Json)} (h : baseClassWarnings classes = .ok found)
    (mem : text ∈ found) : BeginsAsOption text := by
  induction classes generalizing found with
  | nil =>
    obtain rfl := Except.ok.inj h
    cases mem
  | cons first rest ih =>
    obtain ⟨source, v⟩ := first
    cases v with
    | str target =>
      obtain ⟨more, others, h⟩ := exists_of_bind_eq_ok h
      obtain rfl := Except.ok.inj h
      rcases List.mem_append.mp mem with here | later
      · have invalid : BeginsAsOption "Invalid model base class for " := by decide
        rw [eq_of_mem_warningIf here]
        exact ((invalid.append source).append ": ").append target
      · exact ih others later
    | _ => cases h

theorem beginsAsOption_of_csharp (h : c.csharpWarnings = .ok found) (mem : text ∈ found) :
    BeginsAsOption text := by
  obtain ⟨root, ofRoot, h⟩ := exists_of_bind_eq_ok h
  obtain ⟨folder, ofFolder, h⟩ := exists_of_bind_eq_ok h
  split at h
  · obtain ⟨bases, ofBases, h⟩ := exists_of_bind_eq_ok h
    obtain rfl := Except.ok.inj h
    rcases List.mem_append.mp mem with mem | mem
    · exact (List.mem_append.mp mem).elim (beginsAsOption_of_namespace ofRoot) (beginsAsOption_of_namespace ofFolder)
    · exact beginsAsOption_of_baseClass ofBases mem
  · cases h

theorem beginsAsOption_of_alias {option : String} {v : Json} (h : aliasWarnings option v = .ok found)
    (mem : text ∈ found) : BeginsAsOption text := by
  obtain ⟨bad, _, h⟩ := exists_of_bind_eq_ok h
  obtain rfl := Except.ok.inj h
  have invalid : BeginsAsOption "Invalid " := by decide
  rw [eq_of_mem_warningIf mem]
  exact ((invalid.append option).append ": ").append v.literal

theorem beginsAsOption_of_typescript (h : c.typescriptWarnings = .ok found) (mem : text ∈ found) :
    BeginsAsOption text := by
  obtain ⟨enums, ofEnums, h⟩ := exists_of_bind_eq_ok h
  obtain ⟨models, ofModels, h⟩ := exists_of_bind_eq_ok h
  obtain ⟨services, ofServices, h⟩ := exists_of_bind_eq_ok h
  obtain ⟨cased, _, h⟩ := exists_of_bind_eq_ok h
  obtain ⟨sourcePath, _, h⟩ := exists_of_bind_eq_ok h
  obtain rfl := Except.ok.inj h
  simp only [List.mem_append] at mem
  rcases mem with (((mem | mem) | mem) | mem) | mem
  · exact beginsAsOption_of_alias ofEnums mem
  · exact beginsAsOption_of_alias ofModels mem
  · exact beginsAsOption_of_alias ofServices mem
  · have unsupported : BeginsAsOption "Unsupported property_case for TypeScript: " := by decide
    rw [eq_of_mem_warningIf mem]
    exact unsupported.append _
  · have relative : BeginsAsOption "angular_source_path must be relative to the project: " := by decide
    rw [eq_of_mem_warningIf mem]
    exact relative.append _

end Config

open Scaffold.Graph

namespace IsBuildWarning

/-- A warning of a build has another ending than a report. -/
theorem not_endsAsReport {d : Diagnostic} (h : IsBuildWarning d) : ¬ EndsAsReport d.text := by
  obtain ⟨front, eq⟩ := d.exists_text_eq
  rw [eq]
  cases h with
  | visibility | member | unclosed =>
    rw [← String.append_assoc]
    exact Graph.not_endsAsReport _ (by decide)
  | dropped =>
    change ¬ EndsAsReport (front ++ "custom imports found but not supported here; dropped")
    exact Graph.not_endsAsReport front (by decide)

end IsBuildWarning

theorem not_endsAsReport_of_type {d : TypeDescriptor} {text : String} (mem : text ∈ Generator.typeWarnings d) :
    ¬ EndsAsReport text := by
  rcases List.mem_append.mp mem with mem | mem
  · rw [Config.eq_of_mem_warningIf mem]
    exact not_endsAsReport _ (by decide)
  · obtain ⟨p, _, mem⟩ := List.mem_flatMap.mp mem
    rw [Config.eq_of_mem_warningIf mem]
    exact not_endsAsReport _ (by decide)

theorem CSharp.not_endsAsReport_of_base {c : Config} {ds : List TypeDescriptor} {found : List String} {text : String}
    (h : baseWarnings c ds = .ok found) (mem : text ∈ found) : ¬ EndsAsReport text := by
  induction ds generalizing found with
  | nil =>
    obtain rfl := Except.ok.inj h
    cases mem
  | cons d rest ih =>
    obtain ⟨base, _, h⟩ := exists_of_bind_eq_ok h
    obtain ⟨more, others, h⟩ := exists_of_bind_eq_ok h
    obtain rfl := Except.ok.inj h
    rcases List.mem_append.mp mem with here | later
    · split at here
      · rw [List.mem_singleton.mp here]
        exact not_endsAsReport _ (by decide)
      · cases here
    · exact ih others later

theorem TypeScript.not_endsAsReport_of_enum {graph : TypeGraph} {text : String} (mem : text ∈ enumWarnings graph) :
    ¬ EndsAsReport text := by
  obtain ⟨d, _, rfl⟩ := List.mem_map.mp mem
  exact not_endsAsReport _ (by decide)

namespace Generator

variable {g : Generator} {graph : TypeGraph} {found : List String} {text : String}

/-- What is wrong with the options for the target. -/
def optionWarnings (g : Generator) : Except Misfit (List String) :=
  match g.target with
  | .csharp => g.config.csharpWarnings
  | .typescript => g.config.typescriptWarnings

theorem beginsAsOption (h : g.optionWarnings = .ok found) (mem : text ∈ found) : Config.BeginsAsOption text := by
  unfold optionWarnings at h
  split at h
  · exact Config.beginsAsOption_of_csharp h mem
  · exact Config.beginsAsOption_of_typescript h mem

/-- A validation finds what is wrong with the types, with the options and with the graph for the target. -/
theorem validate_eq_ok (h : g.validate graph = .ok found) : ∃ options own, g.optionWarnings = .ok options ∧
    found = graph.descriptors.flatMap typeWarnings ++ options ++ own ∧ ∀ text ∈ own, ¬ EndsAsReport text := by
  unfold validate at h
  cases target : g.target with
  | csharp =>
    rw [target] at h
    obtain ⟨options, ofOptions, h⟩ := exists_of_bind_eq_ok h
    obtain ⟨bases, ofBases, h⟩ := exists_of_bind_eq_ok h
    refine ⟨options, bases, by rw [optionWarnings, target]; exact ofOptions, (Except.ok.inj h).symm, ?_⟩
    exact fun text => CSharp.not_endsAsReport_of_base ofBases
  | typescript =>
    rw [target] at h
    obtain ⟨options, ofOptions, h⟩ := exists_of_bind_eq_ok h
    refine ⟨options, _, by rw [optionWarnings, target]; exact ofOptions, (Except.ok.inj h).symm, ?_⟩
    exact fun text => TypeScript.not_endsAsReport_of_enum

/-- Of what a validation finds the warnings about options alone can end as reports do. -/
theorem mem_validate (h : g.validate graph = .ok found) (ends : EndsAsReport text) :
    text ∈ found ↔ ∃ options, g.optionWarnings = .ok options ∧ text ∈ options := by
  obtain ⟨options, own, ofOptions, rfl, others⟩ := validate_eq_ok h
  constructor
  · intro mem
    rcases List.mem_append.mp mem with mem | mem
    · rcases List.mem_append.mp mem with mem | mem
      · obtain ⟨d, _, mem⟩ := List.mem_flatMap.mp mem
        exact absurd ends (not_endsAsReport_of_type mem)
      · exact ⟨options, ofOptions, mem⟩
    · exact absurd ends (others text mem)
  · rintro ⟨options', ofOptions', mem⟩
    obtain rfl := Except.ok.inj (ofOptions.symm.trans ofOptions')
    exact List.mem_append_left own (List.mem_append_right _ mem)

end Generator

namespace Generation

open Metadata

variable {c : Config} {t : Tree} {graph : TypeGraph} {gs : List Generator} {w : Workshop} {document : Json}
  {p : Provider}

theorem validate_of_prepare {prepared : List (List String × List Job)}
    (h : (Action.mapEach (prepare graph) gs w).result = .ok prepared) :
    gs.mapM (·.validate graph) = .ok (prepared.map (·.1)) := by
  induction gs generalizing w prepared with
  | nil =>
    obtain rfl := Except.ok.inj h
    rfl
  | cons g rest ih =>
    obtain ⟨first, more, rfl, ready, others, _⟩ := Action.mapEach_cons_eq_ok h
    obtain ⟨warnings, valid, ready⟩ := Action.ofExcept_bind_eq_ok.mp ready
    obtain ⟨_, _, ready⟩ := Action.bind_eq_ok.mp ready
    obtain ⟨tasks, _, ready⟩ := Action.bind_eq_ok.mp ready
    obtain rfl := Except.ok.inj ready
    rw [List.mapM_cons, mapError_eq_ok.mp valid, ih others]
    rfl

/-- The warnings of a run over a graph: what the validations find and what the run records, each text once. -/
theorem warnings_of_generate {result : Result} (h : (generate graph c gs w).result = .ok result)
    (success : result.isSuccess = true) :
    ∃ validated, gs.mapM (·.validate graph) = .ok validated ∧ result.warnings = distinctLines
      (validated.flatten ++ (Note.diagnostics (generate graph c gs w).notes).map (·.text)) := by
  rcases generate_eq_ok h success with ⟨rfl, rfl⟩ | ⟨_, built, ran, _, rfl⟩
  · exact ⟨[], rfl, rfl⟩
  · rw [(generate_of_built ran).2]
    obtain ⟨prepared, _, _, _, ready, _, _, _, rfl⟩ := buildAll_eq_ok.mp ran
    refine ⟨prepared.map (·.1), validate_of_prepare ready, ?_⟩
    rw [← List.flatMap_def]
    rfl

/-- Of texts that end as reports do a run over a graph gives those alone that are warnings about an option. -/
theorem disjoint_warnings {validated : List (List String)} {emitted : List Diagnostic} {texts : List String}
    (valid : gs.mapM (·.validate graph) = .ok validated) (built : ∀ d ∈ emitted, IsBuildWarning d)
    (ends : ∀ text ∈ texts, EndsAsReport text) :
    texts.Disjoint (distinctLines (validated.flatten ++ emitted.map (·.text))) ↔
      ∀ g ∈ gs, ∀ options, g.optionWarnings = .ok options → texts.Disjoint options := by
  constructor
  · intro apart g memG options ofOptions text inTexts inOptions
    obtain ⟨found, memFound, ofG⟩ := exists_mem_of_mapM valid memG
    have inFound := (Generator.mem_validate ofG (ends text inTexts)).mpr ⟨options, ofOptions, inOptions⟩
    refine apart inTexts (Region.mem_distinctLines.mpr (List.mem_append_left _ ?_))
    exact List.mem_flatten.mpr ⟨found, memFound, inFound⟩
  · intro apart text inTexts inRun
    rcases List.mem_append.mp (Region.mem_distinctLines.mp inRun) with inValid | recorded
    · obtain ⟨found, memFound, inFound⟩ := List.mem_flatten.mp inValid
      obtain ⟨g, memG, ofG⟩ := exists_of_mem_mapM valid memFound
      obtain ⟨options, ofOptions, inOptions⟩ := (Generator.mem_validate ofG (ends text inTexts)).mp inFound
      exact apart g memG options ofOptions inTexts inOptions
    · obtain ⟨d, memD, eq⟩ := List.mem_map.mp recorded
      exact (built d memD).not_endsAsReport (eq ▸ ends text inTexts)

/-- Where the names are plain, no report has the text of a warning about an option. -/
theorem disjoint_options (plain : p.IsPlainlyNamed) {g : Generator} {options : List String}
    (ofOptions : g.optionWarnings = .ok options) : (reportTexts p).Disjoint options := by
  intro text inReports inOptions
  obtain ⟨source, message, spaceless, whole⟩ := exists_word_of_mem plain inReports
  obtain ⟨word, memWord, rest, front⟩ := Generator.beginsAsOption ofOptions inOptions
  have plainWord : ∀ word ∈ ["Invalid", "Unsupported", "angular_source_path"],
      ' ' ∉ word.toList ∧ ':' ∉ word.toList := by decide
  obtain ⟨noSpace, noColon⟩ := plainWord word memWord
  have same : word.toList = source ++ [':'] :=
    eq_of_first noSpace (by simp [spaceless]) (by simpa using front.trans whole)
  exact noColon (same ▸ List.mem_append_right source List.mem_cons_self)

/-- The warnings of a run over a document: the reports of the extraction, and those of the run over its graph. -/
theorem warnings_of_fromDocument {packages : Packages} {r : Registry} {names : List String} {result : Result}
    (ran : (fromDocument packages r c .none document names w).result = .ok result) (success : result.isSuccess = true) :
    ∃ p graph gs validated emitted, Provider.ofJson document = .ok p ∧ (graphOf c document).result = .ok graph ∧
      names.mapM (generatorFor packages r w.tree c .none) = .ok gs ∧ gs.mapM (·.validate graph) = .ok validated ∧
      Note.diagnostics (fromDocument packages r c .none document names w).notes =
        p.generated.flatMap (reports p) ++ emitted ∧
      (∀ d ∈ emitted, IsBuildWarning d) ∧
      result.warnings = reportTexts p ++ distinctLines (validated.flatten ++ emitted.map (·.text)) := by
  obtain ⟨graph, gs, inner, extracted, made, generated, rfl⟩ := fromDocument_eq_ok ran
  obtain ⟨p, read, extractedP⟩ := extractDocument_eq_ok extracted
  obtain ⟨validated, valid, warnings⟩ := warnings_of_generate generated success
  have reported : Note.diagnostics (graphOf c document).notes = p.generated.flatMap (reports p) := by
    rw [graphOf, notes_extractDocument read, diagnostics_extracted extractedP, candidates, List.filter_true]
  refine ⟨p, graph, gs, validated, Note.diagnostics (generate graph c gs { w with uses := [] }).notes, read, extracted,
    made, valid, ?_, generate_records c gs { w with uses := [] }, ?_⟩
  · simp only [fromDocument, extracted, made, Note.diagnostics_append, reported]
  · rw [Result.after, warnings, reported, reportTexts]

/-- No warning of a run over a document is missing: all that the validations find and all diagnostics of the run are
there, and nothing else. What is no report of the extraction is there once. No text is there twice just where no
text is reported twice, and none that is reported warns of an option; with plain names, just where no two types of
one name have a report in common. -/
theorem warnings_complete {packages : Packages} {r : Registry} {names : List String} {result : Result}
    (ran : (fromDocument packages r c .none document names w).result = .ok result) (success : result.isSuccess = true) :
    ∃ p graph gs validated, Provider.ofJson document = .ok p ∧ (graphOf c document).result = .ok graph ∧
      names.mapM (generatorFor packages r w.tree c .none) = .ok gs ∧ gs.mapM (·.validate graph) = .ok validated ∧
      (∀ text, text ∈ result.warnings ↔ text ∈ validated.flatten ∨
        ∃ d ∈ Note.diagnostics (fromDocument packages r c .none document names w).notes, d.text = text) ∧
      (∀ text ∈ result.warnings, text ∉ reportTexts p → result.warnings.count text = 1) ∧
      (result.warnings.Nodup ↔ (reportTexts p).Nodup ∧
        ∀ g ∈ gs, ∀ options, g.optionWarnings = .ok options → (reportTexts p).Disjoint options) ∧
      (p.IsPlainlyNamed → (result.warnings.Nodup ↔
        p.generated.Pairwise fun t u => t.name = u.name → (reports p t).Disjoint (reports p u))) := by
  obtain ⟨p, graph, gs, validated, emitted, read, extracted, made, valid, recorded, built, warnings⟩ :=
    warnings_of_fromDocument ran success
  have nodup : result.warnings.Nodup ↔ (reportTexts p).Nodup ∧
      ∀ g ∈ gs, ∀ options, g.optionWarnings = .ok options → (reportTexts p).Disjoint options := by
    have apart := disjoint_warnings valid built fun text (mem : text ∈ reportTexts p) => endsAsReport_of_mem mem
    rw [warnings, List.nodup_append', apart]
    exact and_congr_right fun _ => and_iff_right (Region.nodup_distinctLines _)
  refine ⟨p, graph, gs, validated, read, extracted, made, valid, ?_, ?_, nodup, ?_⟩
  · intro text
    rw [warnings, recorded, List.mem_append, Region.mem_distinctLines, List.mem_append, reportTexts, ← List.mem_map,
      List.map_append, List.mem_append]
    exact or_left_comm
  · intro text mem other
    rw [warnings] at mem ⊢
    have later := (List.mem_append.mp mem).resolve_left other
    rw [List.count_append, List.count_eq_zero.mpr other, Nat.zero_add]
    exact Region.count_distinctLines (Region.mem_distinctLines.mp later)
  · intro plain
    rw [nodup, nodup_reportTexts plain]
    exact and_iff_left fun g _ options => disjoint_options plain

/-- Two types of one name in two namespaces, each with a property of no known shape: the report is there twice. What
the validations say of both types is there once. -/
theorem warnings_complete_order :
    let order (namespace_ : String) : Json := .obj [("name", .str "Order"), ("namespace", .str namespace_),
      ("kind", .str "entity"), ("properties", .arr [.obj [("name", .str "Tags"), ("type", .str "Dictionary")]])]
    let document : Json := .obj [("types", .arr [order "Shop", order "Archive"])]
    let run := fromDocument .builtin .builtin Config.default .none document ["csharp"]
      { settings := .empty, tree := .empty }
    ∃ result p, run.result = .ok result ∧ result.isSuccess = true ∧ Provider.ofJson document = .ok p ∧
      p.IsPlainlyNamed ∧ ¬ result.warnings.Nodup ∧
      result.warnings = ["Order.Tags: unrecognized property shape (Dictionary); property skipped",
        "Order.Tags: unrecognized property shape (Dictionary); property skipped", "Type 'Order' has no properties",
        "No mapped model base class for Order; deriving from object"] ∧
      ¬ p.generated.Pairwise fun t u => t.name = u.name → (reports p t).Disjoint (reports p u) := by
  intro order document run
  have checked : run.result.toOption.any (fun result => result.isSuccess && decide (result.warnings =
      ["Order.Tags: unrecognized property shape (Dictionary); property skipped",
        "Order.Tags: unrecognized property shape (Dictionary); property skipped", "Type 'Order' has no properties",
        "No mapped model base class for Order; deriving from object"])) = true := by
    decide +kernel
  have plain : (Provider.ofJson document).toOption.any (fun p => decide
      ((∀ t ∈ p.types, '.' ∉ t.name.toList ∧ ' ' ∉ t.name.toList) ∧
        ∀ t ∈ p.types, ∀ q ∈ t.properties, ' ' ∉ q.name.toList)) = true := by
    decide +kernel
  obtain ⟨result, ran, checked⟩ := exists_ok_of_any checked
  obtain ⟨success, warnings⟩ := Bool.and_eq_true_iff.mp checked
  have warnings := of_decide_eq_true warnings
  obtain ⟨p, read, plain⟩ := exists_ok_of_any plain
  obtain ⟨types, properties⟩ := of_decide_eq_true plain
  have plain : p.IsPlainlyNamed := ⟨types, properties⟩
  obtain ⟨q, _, _, _, readQ, _, _, _, _, _, _, once⟩ := warnings_complete ran success
  obtain rfl := Except.ok.inj (read.symm.trans readQ)
  have twice : ¬ result.warnings.Nodup := by
    rw [warnings]
    decide
  exact ⟨result, p, ran, success, read, plain, twice, warnings, mt (once plain).mpr twice⟩

end Generation

end Scaffold
