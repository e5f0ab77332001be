import Scaffold.Generation.Plan
import Scaffold.Graph.Extraction
import Scaffold.Output.File
import Scaffold.Registry

/-!
A run over a graph: every generator is validated and planned, then all artifacts are built in the order
of the plan. A failure becomes a failed result; two artifacts with one path are an error of their own. For a run
over a metadata document its graph is extracted, a generator is made for each target, and the warnings of the
extraction come before those of the run.
-/

namespace Scaffold

/-- Two artifacts of one path. -/
structure Collision where
  path : Path
  first : Artifact
  second : Artifact

def Collision.message (e : Collision) : String :=
  "Artifacts " ++ e.first.fullName ++ " (" ++ e.first.item.name ++ ") and " ++ e.second.fullName ++
    " (" ++ e.second.item.name ++ ") both resolve to " ++ e.path.text

namespace Generation

/-- The first artifact whose path one before it has. -/
def collisionAfter? (c : Config) (seen : List (Path × Artifact)) :
    List Artifact → Except Misfit (Option Collision)
  | [] => .ok none
  | a :: rest => do
    let path ← Output.filePath c a
    match Fields.get? seen path with
    | some first => return some ⟨path, first, a⟩
    | none => collisionAfter? c ((path, a) :: seen) rest

def collision? (c : Config) (as : List Artifact) : Except Misfit (Option Collision) :=
  collisionAfter? c [] as

/-- The number of workers: what is given, but at least one. -/
def workers (given : Json) : Except Misfit Json :=
  match given with
  | .int n => .ok (.int (max 1 n))
  | .bool _ => .ok (.int 1)
  | .real x => .ok (if x.exceedsOne then given else .int 1)
  | v => .error (.notOrdered ">" v.kindName "int")

/-- What a run ends with, unless paths collide. -/
structure Result where
  artifacts : List Artifact
  warnings : List String
  /-- Facts about the run by name. -/
  facts : List (String × Json)
  failure : Option BuildError

namespace Result

def failed (e : BuildError) : Result := ⟨[], [], [], some e⟩

def isSuccess (r : Result) : Bool := r.failure.isNone

def errorMessage? (r : Result) : Option String :=
  r.failure.map fun e => "Code generation failed: " ++ e.message

/-- The result as fields, but for its artifacts. -/
def fields (r : Result) : List (String × Json) :=
  let text (s : Option String) : Json := (s.map Json.str).getD .null
  [("success", .bool r.isSuccess), ("error_message", text r.errorMessage?),
    ("exception", text (r.failure.map BuildError.name)),
    ("warnings", .arr (r.warnings.map .str)), ("metadata", .obj r.facts)]

/-- The artifact of a path. -/
def find? (r : Result) (subPath : String) : Option Artifact :=
  r.artifacts.find? fun a => a.subPath = subPath

def ofItem (r : Result) (item : ItemKind) : List Artifact := r.artifacts.filter (·.item = item)

end Result

open Scaffold.Graph

/-- One artifact to build. -/
structure Job where
  generator : Generator
  item : ItemKind
  type : TypeDescriptor

/-- The warnings and jobs of one generator. -/
def prepare (graph : TypeGraph) (g : Generator) : Building (List String × List Job) := do
  let warnings ← Building.orMisfit (g.validate graph)
  Building.prewarm (g.queries graph)
  let tasks ← g.plan graph
  return (warnings, tasks.map fun (item, d) => ⟨g, item, d⟩)

def runJob (graph : TypeGraph) (job : Job) : Building Artifact :=
  job.generator.build graph job.item job.type

/-- What a run has built. -/
structure Built where
  warnings : List String
  workers : Json
  artifacts : List Artifact
  collision : Option Collision

/-- Prepares all generators, then builds all artifacts and compares their paths. -/
def buildAll (graph : TypeGraph) (config : Config) (gs : List Generator) : Building Built := do
  let prepared ← Action.mapEach (prepare graph) gs
  let count ← Building.orMisfit (workers config.maxWorkers)
  let artifacts ← Action.mapEach (runJob graph) (prepared.flatMap (·.2))
  let collision ← Building.orMisfit (collision? config artifacts)
  return ⟨prepared.flatMap (·.1), count, artifacts, collision⟩

def record (level : Log.Level) (message : String) : Note := .record ⟨level, .generation, message⟩

/-- The result of artifacts that were built. Of equal warnings the first is kept. -/
def succeed (graph : TypeGraph) (gs : List Generator) (built : Built) (notes : List Note) :
    Result where
  artifacts := built.artifacts
  warnings := distinctLines (built.warnings ++ (Note.diagnostics notes).map (·.text))
  facts := [
    ("targets", .arr (gs.map fun g => .str g.target.name)),
    ("artifact_count", .int built.artifacts.length),
    ("type_count", .int graph.size),
    ("workers", built.workers)]
  failure := none

/-- The result of a run without generators. -/
def nothing : Result :=
  ⟨[], [], [("targets", .arr []), ("artifact_count", .int 0)], none⟩

/-- Generates for several targets; paths are compared under a configuration. -/
def generate (graph : TypeGraph) (config : Config) (gs : List Generator) :
    Action Workshop Collision Result := fun w =>
  if gs.isEmpty then ⟨[], w, .ok nothing⟩
  else
    let ran := buildAll graph config gs w
    match ran.result with
    | .error e =>
      ⟨ran.notes ++ [record .error "Code generation failed"], ran.state, .ok (.failed e)⟩
    | .ok built =>
      match built.collision with
      | some collision => ⟨ran.notes, ran.state, .error collision⟩
      | none =>
        ⟨ran.notes ++ [record .info ("Generated " ++ toString built.artifacts.length ++
            " artifacts for " ++ ", ".intercalate (gs.map fun g => g.target.name))],
          ran.state, .ok (succeed graph gs built ran.notes)⟩

/-- Why a run has no result. -/
inductive DocumentError where
  | config (e : Config.ConfigFailure)
  | entry (e : Settings.EntryError)
  | metadata (e : Metadata.MetadataError)
  | target (e : Registry.CreationError)
  | collision (e : Collision)

/-- A generator for the target behind a name. -/
def generatorFor (packages : Packages) (r : Registry) (t : Tree) (config : Config) (hooks : Hooks)
    (name : String) : Except Registry.CreationError Generator := do
  let target ← (r.target name).mapError .lookup
  (Generator.create packages t name target config hooks).mapError (.ofCreate name)

/-- The graph of everything in a document. -/
def graphOf (config : Config) (document : Json) : Outcome Metadata.MetadataError Graph.TypeGraph :=
  Graph.extractDocument document config.versionProperties fun _ => true

/-- The result with the texts of earlier diagnostics before its warnings. -/
def Result.after (r : Result) (earlier : List Note) : Result :=
  { r with warnings := (Note.diagnostics earlier).map (·.text) ++ r.warnings }

/-- Generates the targets behind some names from a document. The generators are made for this run, so their
engines know of no request before it. -/
def fromDocument (packages : Packages) (r : Registry) (config : Config) (hooks : Hooks) (document : Json)
    (names : List String) : Action Workshop DocumentError Result := fun w =>
  let extracted := graphOf config document
  match extracted.result with
  | .error e => ⟨extracted.notes, w, .error (.metadata e)⟩
  | .ok graph =>
    match names.mapM (generatorFor packages r w.tree config hooks) with
    | .error e => ⟨extracted.notes, w, .error (.target e)⟩
    | .ok generators =>
      let ran := generate graph config generators { w with uses := [] }
      ⟨extracted.notes ++ ran.notes, { ran.state with uses := w.uses },
        (ran.result.mapError .collision).map (·.after extracted.notes)⟩

end Generation

end Scaffold
