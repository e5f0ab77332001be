import Scaffold.Config.Basic

/-!
Configurations as documents give them, by the names of the options. What is not given has its default, and
options that are not known are kept by their names.
-/

namespace Scaffold.Config

/-- The text values of a mapping as a value. -/
def mappingValue (fields : List (String × String)) : Json :=
  .obj (fields.map fun (key, value) => (key, .str value))

/-- The default configuration. -/
def default : Config where
  outputPath := .working
  unitFolders := mappingValue [("WebApi", "webapi"), ("AngularApp", "angular")]
  rootNamespace := .str "App"
  modelsFolder := .str "Models"
  modelBaseClasses := mappingValue [("EntityObject", "ModelObject"),
    ("VersionEntityObject", "VersionModelObject"), ("ViewObject", "ViewModelObject")]
  angularSourcePath := .str "src/app"
  angularBaseClasses := mappingValue [("EntityObject", "IdentityModel"),
    ("VersionEntityObject", "VersionModel"), ("ViewObject", "ViewModel")]
  enumAlias := .str "@app-enums"
  modelAlias := .str "@app-models"
  serviceAlias := .str "@app-services"
  propertyCase := .str "camel"
  versionProperties := [.str "RowVersion"]
  labels := ⟨.str "//@CustomImportBegin", .str "//@CustomImportEnd", .str "//@CustomCodeBegin",
    .str "//@CustomCodeEnd"⟩
  customExtension := .str ".custom"
  customizableExtensions := [".cs", ".ts"]
  writeHeader := .bool true
  generatedLabel := .str "//@GeneratedCode"
  addComments := .bool true
  formatter := none
  maxWorkers := .int 1
  custom := .entries []

/-- The known options with their values, but for the unknown ones and the formatter. -/
def options (c : Config) : List (String × Json) := [
  ("output_path", .str c.outputPath.text),
  ("unit_folders", c.unitFolders),
  ("root_namespace", c.rootNamespace),
  ("models_folder", c.modelsFolder),
  ("model_base_class_mapping", c.modelBaseClasses),
  ("angular_source_path", c.angularSourcePath),
  ("angular_base_class_mapping", c.angularBaseClasses),
  ("enum_import_alias", c.enumAlias),
  ("model_import_alias", c.modelAlias),
  ("service_import_alias", c.serviceAlias),
  ("property_case", c.propertyCase),
  ("version_properties", .arr c.versionProperties),
  ("custom_import_begin_label", c.labels.importBegin),
  ("custom_import_end_label", c.labels.importEnd),
  ("custom_code_begin_label", c.labels.codeBegin),
  ("custom_code_end_label", c.labels.codeEnd),
  ("custom_file_extension", c.customExtension),
  ("customizable_extensions", .arr (c.customizableExtensions.map .str)),
  ("write_info_header", c.writeHeader),
  ("generated_code_label", c.generatedLabel),
  ("add_comments", c.addComments),
  ("max_workers", c.maxWorkers)]

/-- The option that holds the unknown ones. -/
def customOption : String := "custom"

/-- The option of the formatter. -/
def formatterOption : String := "formatter"

/-- All options as one value. -/
def toJson (c : Config) : Json := .obj (c.options ++ [(customOption, c.custom.toJson)])

/-- The names of the known options. -/
def knownNames : List String := customOption :: formatterOption :: default.options.map (·.1)

/-- Why given options make no configuration. -/
inductive OptionError where
  /-- An option cannot be taken over. -/
  | invalid (what : Misfit)
  /-- A value of the wrong kind stands where its kind was relied on. -/
  | misfit (what : Misfit)
  deriving DecidableEq, Repr

/-- The value as a path. -/
def pathOption : Json → Except OptionError Path
  | .str s => .ok (Path.ofText s)
  | v => .error (.invalid (.notPath v.kindName))

/-- The value as a list. -/
def listOption (v : Json) : Except OptionError (List Json) := v.items?.mapError .invalid

/-- Extensions in small letters. -/
def smallExtensions : List Json → Except OptionError (List String)
  | [] => .ok []
  | v :: rest => do
    let s ← (v.asText? "lower").mapError .misfit
    return Text.lower s :: (← smallExtensions rest)

/-- The unknown options: those under their own name, changed by those given among the known ones. -/
def customOf (given : List (String × Json)) : Except OptionError CustomOptions :=
  let unknown := given.filter fun (name, _) => !knownNames.contains name
  let nested := (Fields.get? given customOption).getD (.obj [])
  if unknown.isEmpty then .ok (.ofJson nested)
  else do
    let entries ← (Json.Entries.ofJson? nested).mapError .misfit
    return .entries (entries.merge (.ofFields unknown))

/-- The formatter that an option gives: none, or a value that cannot be one. -/
def formatterOf : Json → Option Formatter
  | .null => none
  | v => some (.value v)

/-- The configuration of the given options. -/
def ofGiven (given : List (String × Json)) : Except OptionError Config := do
  let custom ← customOf given
  let get (name : String) (value : Json) : Json := (Fields.get? given name).getD value
  let outputPath ← match Fields.get? given "output_path" with
    | some v => pathOption v
    | none => pure default.outputPath
  let versionProperties ← listOption (get "version_properties" (.arr default.versionProperties))
  let extensions ← listOption
    (get "customizable_extensions" (.arr (default.customizableExtensions.map .str)))
  let customizableExtensions ← smallExtensions extensions
  return {
    outputPath
    unitFolders := get "unit_folders" default.unitFolders
    rootNamespace := get "root_namespace" default.rootNamespace
    modelsFolder := get "models_folder" default.modelsFolder
    modelBaseClasses := get "model_base_class_mapping" default.modelBaseClasses
    angularSourcePath := get "angular_source_path" default.angularSourcePath
    angularBaseClasses := get "angular_base_class_mapping" default.angularBaseClasses
    enumAlias := get "enum_import_alias" default.enumAlias
    modelAlias := get "model_import_alias" default.modelAlias
    serviceAlias := get "service_import_alias" default.serviceAlias
    propertyCase := get "property_case" default.propertyCase
    versionProperties
    labels := {
      importBegin := get "custom_import_begin_label" default.labels.importBegin
      importEnd := get "custom_import_end_label" default.labels.importEnd
      codeBegin := get "custom_code_begin_label" default.labels.codeBegin
      codeEnd := get "custom_code_end_label" default.labels.codeEnd }
    customExtension := get "custom_file_extension" default.customExtension
    customizableExtensions
    writeHeader := get "write_info_header" default.writeHeader
    generatedLabel := get "generated_code_label" default.generatedLabel
    addComments := get "add_comments" default.addComments
    formatter := formatterOf (get formatterOption .null)
    maxWorkers := get "max_workers" default.maxWorkers
    custom }

end Scaffold.Config
