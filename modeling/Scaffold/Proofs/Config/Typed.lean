import Scaffold.Config.Validation
import Scaffold.Graph.Basic
import Scaffold.Proofs.Json.Fields

/-!
Configurations whose options are of the kinds they should be. Every use of such an option finds what it asks
for: the checks end, the folders and the bases of types are there.
-/

namespace Scaffold

def Json.IsText (v : Json) : Prop := ∃ s, v = .str s

/-- An object whose values are texts. -/
def Json.IsMapping (v : Json) : Prop := ∃ fields, v = Config.mappingValue fields

namespace Config

variable {c : Config} {v : Json}

/-- The options that a run looks at are of their kinds. -/
structure IsTyped (c : Config) : Prop where
  unitFolders : c.unitFolders.IsMapping
  rootNamespace : c.rootNamespace.IsText
  modelsFolder : c.modelsFolder.IsText
  modelBaseClasses : c.modelBaseClasses.IsMapping
  angularSourcePath : c.angularSourcePath.IsText
  angularBaseClasses : c.angularBaseClasses.IsMapping
  enumAlias : c.enumAlias.IsText
  modelAlias : c.modelAlias.IsText
  serviceAlias : c.serviceAlias.IsText
  propertyCase : ∃ name case, c.propertyCase = .str name ∧ Naming.NamingCase.ofName? name = some case
  maxWorkers : ∃ n, c.maxWorkers = .int n

/-- Defaults are of the kinds they should be, wherever the output goes and whatever sidecars are called. -/
theorem isTyped_default (output : Path) (extension : Json) :
    { Config.default with outputPath := output, customExtension := extension }.IsTyped where
  unitFolders := ⟨_, rfl⟩
  rootNamespace := ⟨_, rfl⟩
  modelsFolder := ⟨_, rfl⟩
  modelBaseClasses := ⟨_, rfl⟩
  angularSourcePath := ⟨_, rfl⟩
  angularBaseClasses := ⟨_, rfl⟩
  enumAlias := ⟨_, rfl⟩
  modelAlias := ⟨_, rfl⟩
  serviceAlias := ⟨_, rfl⟩
  propertyCase := ⟨"camel", .camel, rfl, by decide⟩
  maxWorkers := ⟨1, rfl⟩

/-- Every unit has a project. -/
theorem projectPath_ok (folders : c.unitFolders.IsMapping) (unit : String) :
    ∃ p, c.projectPath unit = .ok p := by
  obtain ⟨fields, eq⟩ := folders
  simp only [projectPath, folderOf, eq, mappingValue, Fields.get?_map]
  cases Fields.get? fields unit with
  | none => exact ⟨_, rfl⟩
  | some folder => exact ⟨_, rfl⟩

theorem namespaceWarnings_ok (what : String) (h : v.IsText) :
    ∃ warnings, namespaceWarnings what v = .ok warnings := by
  obtain ⟨s, rfl⟩ := h
  exact ⟨_, rfl⟩

theorem aliasWarnings_ok (option : String) (h : v.IsText) :
    ∃ warnings, aliasWarnings option v = .ok warnings := by
  obtain ⟨s, rfl⟩ := h
  exact ⟨_, rfl⟩

theorem baseClassWarnings_ok (classes : List (String × String)) :
    ∃ warnings, baseClassWarnings (classes.map fun (key, value) => (key, .str value)) = .ok warnings := by
  induction classes with
  | nil => exact ⟨_, rfl⟩
  | cons pair rest ih =>
    obtain ⟨warnings, checked⟩ := ih
    simp only [List.map_cons, baseClassWarnings, checked]
    exact ⟨_, rfl⟩

/-- The check for C# ends. -/
theorem IsTyped.csharpWarnings_ok (h : c.IsTyped) : ∃ warnings, c.csharpWarnings = .ok warnings := by
  obtain ⟨root, eqRoot⟩ := namespaceWarnings_ok "root namespace" h.rootNamespace
  obtain ⟨folder, eqFolder⟩ := namespaceWarnings_ok "models folder" h.modelsFolder
  obtain ⟨classes, eqClasses⟩ := h.modelBaseClasses
  obtain ⟨bases, checked⟩ := baseClassWarnings_ok classes
  simp only [csharpWarnings, eqRoot, eqFolder, eqClasses, mappingValue, checked]
  exact ⟨_, rfl⟩

/-- The check for TypeScript ends. -/
theorem IsTyped.typescriptWarnings_ok (h : c.IsTyped) :
    ∃ warnings, c.typescriptWarnings = .ok warnings := by
  obtain ⟨enums, eqEnums⟩ := aliasWarnings_ok "enum_import_alias" h.enumAlias
  obtain ⟨models, eqModels⟩ := aliasWarnings_ok "model_import_alias" h.modelAlias
  obtain ⟨services, eqServices⟩ := aliasWarnings_ok "service_import_alias" h.serviceAlias
  obtain ⟨name, case, eqCase, _⟩ := h.propertyCase
  obtain ⟨source, eqSource⟩ := h.angularSourcePath
  simp only [typescriptWarnings, eqEnums, eqModels, eqServices, eqCase, eqSource, namesCase, Json.asText?]
  exact ⟨_, rfl⟩

end Config

open Scaffold.Graph

/-- A mapping of texts gives every type a base, and that is a text. -/
theorem Graph.TypeDescriptor.baseIn_ok (d : TypeDescriptor) {mapping : Json} (h : mapping.IsMapping) :
    ∃ base : String, d.baseIn mapping = .ok (.str base) := by
  obtain ⟨fields, rfl⟩ := h
  have first (names : List String) :
      firstMapped? (Config.mappingValue fields) names = .ok none ∨
        ∃ base : String, firstMapped? (Config.mappingValue fields) names = .ok (some (.str base)) := by
    induction names with
    | nil => exact .inl rfl
    | cons name rest ih =>
      have known : mapped? (Config.mappingValue fields) name = .ok ((Fields.get? fields name).map .str) :=
        congrArg Except.ok (Fields.get?_map Json.str fields name)
      simp only [firstMapped?, known, bind, Except.bind]
      cases Fields.get? fields name with
      | none => exact ih
      | some base => exact .inr ⟨base, rfl⟩
  rcases first d.ancestors with none_ | ⟨base, some_⟩
  · exact ⟨"object", by rw [baseIn, none_]; rfl⟩
  · exact ⟨base, by rw [baseIn, some_]; rfl⟩

end Scaffold
