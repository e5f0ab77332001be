import Scaffold.Action
import Scaffold.Config.File
import Scaffold.Generation.Generator

/-!
The registry: targets by primary names and by aliases, in small letters. Names are resolved to primary
names, and generators are configured for the targets behind them.
-/

namespace Scaffold

inductive RegistryError where
  | notGenerator
  | aliasIsTarget (nickname : String)
  | aliasTaken (nickname owner : String)
  | unknownTarget (given : String) (available : List String)
  | invalidConfig (kind : String)
  /-- A generator has no such part. -/
  | unexpectedPart (given part : String)
  | unsuitable (given : String) (what : Misfit)
  deriving DecidableEq, Repr

def RegistryError.message : RegistryError → String
  | .notGenerator => "Generator class must inherit from CodeGenerator"
  | .aliasIsTarget nickname => "Alias '" ++ nickname ++ "' conflicts with existing primary target"
  | .aliasTaken nickname owner => "Alias '" ++ nickname ++ "' already points to '" ++ owner ++ "'"
  | .unknownTarget given available =>
    "No generator registered for target: " ++ given ++ ". Available: " ++ ", ".intercalate available
  | .invalidConfig kind => "Invalid config type: <class '" ++ kind ++ "'>"
  | .unexpectedPart given part =>
    "Failed to create " ++ given ++ " generator: CodeGenerator.__init__() got an unexpected keyword " ++
      "argument '" ++ part ++ "'"
  | .unsuitable given what => "Failed to create " ++ given ++ " generator: " ++ what.message

structure Registry where
  /-- By primary name. -/
  targets : List (String × Target)
  /-- The primary names that aliases stand for. -/
  aliases : List (String × String)
  deriving DecidableEq, Repr

namespace Registry

def empty : Registry := ⟨[], []⟩

/-- Lets an alias stand for a primary name. -/
def addAlias (r : Registry) (primary : String) (replace : Bool) (nickname : String) :
    Except RegistryError Registry :=
  let key := Text.lower nickname
  let added := { r with aliases := Fields.put r.aliases key primary }
  if key = primary then .ok r
  else if replace then .ok added
  else if (Fields.get? r.targets key).isSome then .error (.aliasIsTarget nickname)
  else match Fields.get? r.aliases key with
    | some owner => if owner = primary then .ok added else .error (.aliasTaken nickname owner)
    | none => .ok added

/-- Why a registration ends: it is refused, or something that is no name is given for one. -/
inductive RegisterError where
  | refused (e : RegistryError)
  | misfit (what : Misfit)
  deriving DecidableEq, Repr

/-- Adds aliases in turn, up to the first that is refused or no text. -/
def addAliases (primary : String) (replace : Bool) : List Json → Action Registry RegisterError Unit
  | [] => .ok ()
  | nickname :: rest =>
    (Action.change fun r => do
      let nickname ← (nickname.asText? "lower").mapError .misfit
      (r.addAlias primary replace nickname).mapError .refused).bind fun _ =>
        addAliases primary replace rest

/-- Registers a target under a name with aliases. A name that is taken is left alone, unless it is to be
replaced; what is no target is refused. -/
def register (name : Json) (target : Option Target) (aliases : Json) (replace : Bool) :
    Action Registry RegisterError Unit := do
  let some target := target | Action.fail (.refused .notGenerator)
  let primary := Text.lower (← Action.ofExcept ((name.asText? "lower").mapError .misfit))
  let known ← (fun r => ⟨[], r, .ok (Fields.get? r.targets primary).isSome⟩ :
    Action Registry RegisterError Bool)
  if known && !replace then return ()
  Action.change fun r => .ok { r with targets := Fields.put r.targets primary target }
  addAliases primary replace (← Action.ofExcept (aliases.itemsIfSet?.mapError .misfit))

/-- Takes a target and the aliases that stand for it away. -/
def unregister (r : Registry) (name : String) : Registry :=
  let primary := Text.lower name
  ⟨Fields.erase r.targets primary, r.aliases.filter fun (_, owner) => owner != primary⟩

def sorted (names : List String) : List String := names.mergeSort fun a b => decide (a ≤ b)

/-- The primary names in order. -/
def names (r : Registry) : List String := sorted (r.targets.map (·.1))

/-- The aliases that stand for a name, in order. -/
def aliasesOf (r : Registry) (name : String) : List String :=
  sorted ((r.aliases.filter fun (_, owner) => owner = Text.lower name).map (·.1))

/-- The primary name behind a name. -/
def resolve (r : Registry) (name : String) : Except RegistryError String :=
  let key := Text.lower name
  if (Fields.get? r.targets key).isSome then .ok key
  else match Fields.get? r.aliases key with
    | some primary => .ok primary
    | none => .error (.unknownTarget name r.names)

def isSupported (r : Registry) (name : String) : Bool :=
  let key := Text.lower name
  (Fields.get? r.targets key).isSome || (Fields.get? r.aliases key).isSome

/-- Why there is no target. -/
inductive LookupError where
  | refused (e : RegistryError)
  /-- An alias stands for a primary name that is gone. -/
  | dangling (primary : String)
  deriving DecidableEq, Repr

/-- The target behind a name. -/
def target (r : Registry) (name : String) : Except LookupError Target :=
  match r.resolve name with
  | .error e => .error (.refused e)
  | .ok primary =>
    match Fields.get? r.targets primary with
    | some target => .ok target
    | none => .error (.dangling primary)

/-- What is told about a registered target. -/
structure Info where
  target : Target
  aliases : List String
  deriving DecidableEq, Repr

/-- What is told about a target as fields. -/
def Info.toJson (i : Info) : Json :=
  let texts (l : List String) : Json := .arr (l.map .str)
  .obj [("name", .str i.target.name), ("class", .str i.target.generatorName),
    ("file_extension", .str i.target.extension), ("unit", .str i.target.unit.name),
    ("item_types", texts (i.target.items.map ItemKind.name)), ("aliases", texts i.aliases),
    ("module", .str i.target.moduleName)]

def info (r : Registry) (name : String) : Except LookupError Info := do
  let target ← r.target name
  let primary ← (r.resolve name).mapError .refused
  return ⟨target, r.aliasesOf primary⟩

/-- The targets that come with the program. -/
def builtin : Registry where
  targets := [("csharp", .csharp), ("typescript", .typescript)]
  aliases := [("cs", "csharp"), ("models", "csharp"), ("ts", "typescript"), ("angular", "typescript")]

/-- A target with the configuration of its generator. -/
structure Configured where
  target : Target
  config : Config

def Configured.projectPath (c : Configured) : Except Misfit Path :=
  c.config.projectPath c.target.unit.name

/-- Why there is no generator for a name. -/
inductive CreationError where
  | lookup (e : LookupError)
  | refused (e : RegistryError)
  | config (e : Config.ConfigFailure)
  | misfit (what : Misfit)
  | file (e : FileError)

/-- The failure to make a generator. What is merely of the wrong kind or value is refused; what lacks an
ability is a fault. -/
def CreationError.ofCreate (given : String) : Generator.CreateError → CreationError
  | .misfit what@(.lacks ..) => .misfit what
  | .misfit what => .refused (.unsuitable given what)
  | .file e => .file e

/-- The parts besides its configuration that a generator can be given. -/
def parts : List String := ["settings", "hooks", "diagnostics"]

/-- The names that the registry takes for itself, so that no part can have them. -/
def ownNames : List String := ["self", "target", "config"]

/-- The configuration of a source. -/
def configOf (depth : Nat) (t : Tree) : Config.Source → Outcome CreationError Config
  | .other kind => .fail (.refused (.invalidConfig kind))
  | .defaults => load none []
  | .options given => load none given
  | .file path => load (some path) []
where
  load (file : Option Path) (given : List (String × Json)) : Outcome CreationError Config :=
    let loaded := Config.load depth t [] file given
    ⟨loaded.notes, loaded.result.mapError .config⟩

/-- Refuses parts that no generator has, and configurations that no generator starts with. -/
def configure (t : Tree) (given : String) (target : Target) (config : Config)
    (givenParts : List String) : Except CreationError Configured :=
  match givenParts.find? fun part => !parts.contains part with
  | some part => .error (.refused (.unexpectedPart given part))
  | none =>
    match Generator.engineFor t config with
    | .error e => .error (.ofCreate given e)
    | .ok _ => .ok ⟨target, config⟩

/-- The target behind a name, configured by a source. -/
def create (r : Registry) (depth : Nat) (t : Tree) (name : String) (source : Config.Source)
    (givenParts : List String) : Outcome CreationError Configured :=
  if givenParts.any ownNames.contains then .fail (.misfit .arguments)
  else
    (Outcome.ofExcept ((r.target name).mapError .lookup)).bind fun target =>
      (configOf depth t source).bind fun config =>
        .ofExcept (configure t name target config givenParts)

end Registry

end Scaffold
