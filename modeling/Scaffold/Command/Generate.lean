import Scaffold.Command.Console
import Scaffold.Command.Invocation
import Scaffold.Command.Journal
import Scaffold.Output.File

/-!
The command that generates. It loads its documents, runs over them, and writes the artifacts unless it
is told not to. Nothing is written before the run has succeeded.
-/

namespace Scaffold.Command

/-- What a command shows and the code it ends with. -/
structure Shown where
  items : List Item
  code : Nat
  deriving DecidableEq, Repr

/-- Where a command runs: the packages it stands on, the targets it knows, the net it can ask, and how many lists and
objects may stand inside one another in what it reads. -/
structure Surroundings where
  packages : Packages
  registry : Registry
  network : Loading.Network
  depth : Nat

/-- The options that are given on the command line. -/
def directOptions (o : GenerateOptions) : Except Failure (List (String × Json)) :=
  let output := match o.output with
    | some path => if path = "" then [] else [("output_path", Json.str path)]
    | none => []
  let flags (isOff : Bool) (name : String) := if isOff then [(name, Json.bool false)] else []
  let rest := flags o.noHeader "write_info_header" ++ flags o.noComments "add_comments"
  match o.workers with
  | none => .ok (output ++ rest)
  | some n =>
    if n < 1 then .error (.command .tooFewWorkers)
    else .ok (output ++ [("max_workers", .int n)] ++ rest)

/-- The configuration of a file and direct options. -/
def loadConfig (s : Surroundings) (file : Option String) (direct : List (String × Json)) : Acting Config :=
  let path := file.bind fun name => if name = "" then none else some (Path.ofText name)
  looking .config fun t => Config.load s.depth t [] path direct

/-- The targets to generate: those asked for, or all that are known. -/
def resolveTargets (r : Registry) (asked : List String) : Except Failure (List String) :=
  if asked.isEmpty then .ok r.names
  else
    let unsupported := asked.filter fun name => !r.isSupported name
    if unsupported.isEmpty then .ok asked
    else .error (.command (.unsupported unsupported r.names))

/-- Loads a document. -/
def loadDocument (s : Surroundings) (source : String) : Acting (String × Json) := do
  looking .load (Loading.prepare · source)
  looking .load (Loading.readDocument s.depth s.network · source)

/-- The metadata of a document. -/
def loadMetadata (s : Surroundings) (source : String) : Acting Json := do
  let document ← loadDocument s source
  Action.ofExcept ((Loading.metadataOf document).mapError .load)

/-- A failure while settings are loaded; one about a value is told as that of an entry. -/
def settingsFailure (source : String) : Failure → Failure
  | .load (.misfit what) => .command (.invalidEntry source what.message)
  | e => e

/-- The settings of a document. -/
def loadStore (s : Surroundings) (source : String) : Acting Settings.Resolver := do
  let document ← (loadDocument s source).mapError (settingsFailure source)
  let entries ← Action.ofExcept ((Loading.settingsOf document).mapError .load)
  let store ← Action.ofExcept
    ((Settings.Store.ofJson entries).mapError fun e => .command (.invalidEntry source e.message))
  return .ofStore store

/-- The settings that a command is given. -/
def loadResolver (s : Surroundings) : Option String → Acting Settings.Resolver
  | none => .ok .empty
  | some source => if source = "" then .ok .empty else loadStore s source

/-- Keeps the kinds of items in the order of their first artifact, with the paths of each. -/
def pathsByItem (as : List Artifact) : List (ItemKind × List String) :=
  as.foldl
    (fun groups a =>
      Fields.put groups a.item ((Fields.get? groups a.item).getD [] ++ [a.subPath]))
    []

/-- The row of a kind of items. -/
def artifactRow (verbose : Bool) (group : ItemKind × List String) : List String :=
  [group.1.name, toString group.2.length] ++
    if verbose then ["\n".intercalate group.2] else []

def artifactTable (verbose : Bool) (r : Generation.Result) : Item :=
  .table "📦 Generated Artifacts"
    (["Item", "Count"] ++ if verbose then ["Files"] else [])
    ((pathsByItem r.artifacts).map (artifactRow verbose))

def factTable (r : Generation.Result) : Item :=
  .table "📊 Generation Metadata" ["Property", "Value"]
    (r.facts.map fun (name, value) => [Item.heading name, value.text])

def warningItems (warnings : List String) : List Item :=
  if warnings.isEmpty then []
  else [.line "\n[yellow]⚠️  Warnings:[/yellow]"] ++ warnings.map .bullet ++ [.blank]

/-- What is shown of a successful run. -/
def summary (r : Generation.Result) (c : Config) (verbose : Bool) : List Item :=
  [.blank, artifactTable verbose r] ++
    (if verbose && !r.facts.isEmpty then [factTable r] else []) ++
    warningItems r.warnings ++
    [.success ("Output root: [cyan]" ++ c.outputPath.text ++ "[/cyan]")]

/-- What is shown of a run that failed. -/
def failureItems (e : BuildError) : List Item :=
  [.failure "Code generation failed" ("Code generation failed: " ++ e.message),
    .line ("[dim]Details: " ++ e.details ++ "[/dim]")]

/-- Writes artifacts in turn. -/
def writeArtifacts (c : Config) (as : List Artifact) : Acting Unit := do
  let written ← Action.mapEach
    (fun a => changing .write (fun _ => []) (Output.writeOne c a)) as
  noting (Output.writtenNote written.length)

/-- What is shown of files that were not written, if the file system refused them. -/
def unwritten? : Failure → Option Shown
  | .write (.file e) =>
    if e.isOfSystem then some ⟨[.failure "Failed to write artifacts" e.message], 1⟩ else none
  | _ => none

/-- Writes the artifacts of a run and shows what came of it. -/
def writeAndShow (r : Generation.Result) (c : Config) (verbose : Bool) : Acting Shown := fun d =>
  let written := writeArtifacts c r.artifacts d
  match written.result with
  | .ok _ => ⟨written.notes, written.state, .ok ⟨summary r c verbose, 0⟩⟩
  | .error e =>
    ⟨written.notes, written.state,
      match unwritten? e with
      | some shown => .ok shown
      | none => .error e⟩

def dryRunItem (r : Generation.Result) : Item :=
  .line ("[yellow]Dry run:[/yellow] " ++ toString r.artifacts.length ++ " artifact(s) not written")

/-- Shows a result, after writing it if it is to be written. -/
def finish (o : GenerateOptions) (c : Config) (verbose : Bool) (r : Generation.Result) :
    Acting Shown :=
  match r.failure with
  | some e => .ok ⟨failureItems e, 1⟩
  | none =>
    if o.dryRun then .ok ⟨dryRunItem r :: summary r c verbose, 0⟩
    else writeAndShow r c verbose

/-- The run over a document. Two artifacts of one path are what such a run may end with. -/
def runOver (s : Surroundings) (c : Config) (document : Json) (targets : List String)
    (r : Settings.Resolver) : Acting (Except Collision Generation.Result) :=
  changing .document (fun _ => []) fun tree =>
    let ran := Generation.fromDocument s.packages s.registry c .none document targets
      { settings := r, tree }
    ⟨ran.notes, ran.state.tree,
      match ran.result with
      | .ok result => .ok (.ok result)
      | .error (.collision e) => .ok (.error e)
      | .error e => .error e⟩

def generate (s : Surroundings) (verbose : Bool) (o : GenerateOptions) : Acting Shown := do
  let direct ← Action.ofExcept (directOptions o)
  let config ← loadConfig s o.config direct
  let targets ← Action.ofExcept (resolveTargets s.registry o.targets)
  let document ← loadMetadata s o.metadata
  let resolver ← loadResolver s o.settings
  match ← runOver s config document targets resolver with
  | .error e => return ⟨[.failure "Path collision" e.message], 1⟩
  | .ok result => finish o config verbose result

end Scaffold.Command
