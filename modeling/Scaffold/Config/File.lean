import Scaffold.Action
import Scaffold.Config.Options
import Scaffold.Json.Parser
import Scaffold.Json.Printer
import Scaffold.Text.Lines
import Scaffold.Tree.Basic

/-!
Configuration files. Defaults are overridden by the options of a file, and those by options given
directly.
-/

namespace Scaffold.Config

inductive ConfigError where
  | fileNotFound (path : Path)
  | notJson (path : Path)
  | invalidJson (path : Path) (error : Json.ParseError)
  | unreadable (path : Path) (error : FileError)
  | notObject (path : Path)
  | invalid (what : Misfit)
  | saveFailed (path : Path) (error : FileError)
  deriving DecidableEq, Repr

def ConfigError.message : ConfigError → String
  | .fileNotFound path => "Configuration file not found: " ++ path.text
  | .notJson path => "Configuration file must be JSON: " ++ path.text
  | .invalidJson path e =>
    "Invalid JSON in configuration file " ++ path.text ++ ": " ++ e.message
  | .unreadable path e => "Failed to load configuration file " ++ path.text ++ ": " ++ e.message
  | .notObject path => "Configuration file must contain a JSON object: " ++ path.text
  | .invalid what => "Invalid configuration: " ++ what.message
  | .saveFailed path e => "Failed to save configuration to " ++ path.text ++ ": " ++ e.message

/-- Why there is no configuration: a refusal, or a fault that no refusal covers. -/
inductive ConfigFailure where
  | refused (e : ConfigError)
  | misfit (what : Misfit)
  | undecodable (e : Text.DecodeError)
  | number (e : Decimal.NumberError)
  /-- The values of a file stand inside one another too deeply. -/
  | tooDeep
  /-- The file system refuses to look for a file, or to be asked. -/
  | file (e : FileError)
  | unencodable (e : Text.EncodeError)

def ConfigFailure.ofOptionError : OptionError → ConfigFailure
  | .invalid what => .refused (.invalid what)
  | .misfit what => .misfit what

/-- The options in the text of a file. -/
def parseOptions (depth : Nat) (path : Path) (text : String) : Except ConfigFailure (List (String × Json)) :=
  match Json.parse depth (Text.readNewlines text) with
  | .error ⟨.number e, _⟩ => .error (.number e)
  | .error ⟨.tooDeep, _⟩ => .error .tooDeep
  | .error e => .error (.refused (.invalidJson path e))
  | .ok (.obj fields) => .ok fields
  | .ok _ => .error (.refused (.notObject path))

/-- The options in a file. -/
def readFile (depth : Nat) (t : Tree) (path : Path) : Except ConfigFailure (List (String × Json)) := do
  if !(← (t.exists? path).mapError .file) then .error (.refused (.fileNotFound path))
  else if Text.lower path.suffix ≠ ".json" then .error (.refused (.notJson path))
  else
    let bytes ← (t.read path).mapError fun e => .refused (.unreadable path e)
    let text ← (Text.decode bytes).mapError .undecodable
    parseOptions depth path text

/-- A note that a configuration file was read. -/
def fileNote (path : Path) : Note :=
  .record ⟨.debug, .configuration, "Loaded configuration file " ++ path.text⟩

/-- The options of a file, if one is named. -/
def fileOptions (depth : Nat) (t : Tree) : Option Path → Outcome ConfigFailure (List (String × Json))
  | none => .ok []
  | some path =>
    match readFile depth t path with
    | .error e => .fail e
    | .ok fields => ⟨[fileNote path], .ok fields⟩

/-- The configuration of defaults, a file and direct options, the later ones winning. -/
def load (depth : Nat) (t : Tree) (defaults : List (String × Json)) (file : Option Path)
    (direct : List (String × Json)) : Outcome ConfigFailure Config :=
  (fileOptions depth t file).bind fun fromFile =>
    .ofExcept ((ofGiven (Fields.merge (Fields.merge defaults fromFile) direct)).mapError
      .ofOptionError)

/-- Where a configuration comes from. -/
inductive Source where
  | defaults
  | options (given : List (String × Json))
  | file (path : Path)
  /-- Something else, of this kind. -/
  | other (kind : String)

/-- What a value gives as a source: an object its options, a text the path of a file. -/
def Source.ofJson : Json → Source
  | .null => .defaults
  | .obj given => .options given
  | .str path => if path = "" then .defaults else .file (Path.ofText path)
  | v => .other v.kindName

/-- The options that a file keeps, in order. -/
def savedOptions : List String := [
  "output_path", "unit_folders", "root_namespace", "models_folder", "model_base_class_mapping",
  "angular_source_path", "angular_base_class_mapping", "enum_import_alias", "model_import_alias",
  "service_import_alias", "property_case", "version_properties", "custom_file_extension",
  "write_info_header", "add_comments", "max_workers"]

/-- The fields that a file keeps: the saved options, changed by the unknown ones. -/
def saved? (c : Config) : Except Misfit (List (String × Json)) := do
  let fields := savedOptions.map fun name => (name, (Fields.get? c.options name).getD .null)
  return ((Json.Entries.ofFields fields).merge (← c.custom.entries?)).saved

/-- The bytes of a file that is written in pieces, up to the first that has none, and why it has none. -/
def bytesOf : List String → ByteArray × Option Text.EncodeError
  | [] => (ByteArray.empty, none)
  | piece :: rest =>
    match Text.encode? piece with
    | .error e => (ByteArray.empty, some e)
    | .ok bytes =>
      let (more, fault) := bytesOf rest
      (bytes ++ more, fault)

/-- Writes the configuration to a file. -/
def save (c : Config) (path : Path) : Action Tree ConfigFailure Unit := do
  let fields ← Action.ofExcept (c.saved?.mapError .misfit)
  let (bytes, fault) := bytesOf ((Json.obj fields).pieces 0)
  Action.change fun t => (t.write path bytes).mapError failure
  match fault with
  | some e => Action.fail (.unencodable e)
  | none => return ()
where
  failure (e : FileError) : ConfigFailure :=
    if e.isOfSystem then .refused (.saveFailed path e) else .file e

end Scaffold.Config
