import Scaffold.Generation.Run
import Scaffold.Output.Cleaning

/-!
Working sessions: one configuration, one set of hooks, settings and diagnostics for a series of steps on
a tree. The graph is extracted when a step first needs it, and a generator is made when its target is
first asked for.
-/

namespace Scaffold

/-- Where the types of a session come from: a document with a filter, or descriptors that stand in for
it. A run over the document knows nothing of these. -/
structure TypeSource where
  document : Json
  accepts : Metadata.RawType → Bool
  descriptors : Option (List Graph.TypeDescriptor)

structure Session where
  packages : Packages
  /-- How many lists and objects may stand inside one another in a file. -/
  depth : Nat
  registry : Registry
  config : Config
  workshop : Workshop
  hooks : Hooks
  types : TypeSource
  diagnostics : List Diagnostic := []
  graph : Option Graph.TypeGraph := none
  /-- By the names that they were asked for. -/
  generators : List (String × Generator) := []
  /-- The artifacts that were made last. -/
  artifacts : List Artifact := []
  result : Option Generation.Result := none

namespace Session

inductive Failure where
  | build (e : BuildError)
  | document (e : Generation.DocumentError)
  | region (e : Region.Failure)
  | unencodable (e : Text.EncodeError)
  | misfit (what : Misfit)
  /-- One generator is asked for where there is none. -/
  | noGenerator

abbrev Step := Action Session Failure

def tree (s : Session) : Tree := s.workshop.tree

def withTree (s : Session) (tree : Tree) : Session := { s with workshop := { s.workshop with tree } }

/-- A step whose diagnostics the session keeps. -/
def keeping {α : Type} (x : Step α) : Step α := fun s =>
  let ended := x s
  { ended with
    state := { ended.state with
      diagnostics := ended.state.diagnostics ++ Note.diagnostics ended.notes } }

def fact {α : Type} (f : Session → α) : Step α := fun s => ⟨[], s, .ok (f s)⟩

/-- A fact that may not be there. -/
def check {α : Type} (f : Session → Except Failure α) : Step α := fun s => ⟨[], s, f s⟩

/-- A step that looks at the tree. -/
def looking {α : Type} (f : Session → Outcome Failure α) : Step α := fun s =>
  ⟨(f s).notes, s, (f s).result⟩

/-- A step that changes the tree. -/
def onTree {ε α : Type} (make : ε → Failure) (f : Session → Action Tree ε α) : Step α := fun s =>
  let ended := f s s.tree
  ⟨ended.notes, s.withTree ended.state, ended.result.mapError make⟩

/-- A step of building. -/
def building {α : Type} (f : Session → Building α) : Step α := fun s =>
  let ended := f s s.workshop
  ⟨ended.notes, { s with workshop := ended.state }, ended.result.mapError .build⟩

/-- The graph of the types that a session works with. -/
def extractGraph (s : Session) : Outcome Failure Graph.TypeGraph :=
  match s.types.descriptors with
  | some ds => .ok (.ofList ds)
  | none =>
    let extracted := Graph.extractDocument s.types.document s.config.versionProperties
      s.types.accepts
    ⟨extracted.notes, extracted.result.mapError fun e => .document (.metadata e)⟩

/-- The graph, extracted now if it was not before. -/
def needGraph : Step Graph.TypeGraph := fun s =>
  match s.graph with
  | some g => ⟨[], s, .ok g⟩
  | none =>
    let extracted := extractGraph s
    ⟨extracted.notes, { s with graph := extracted.result.toOption }, extracted.result⟩

/-- Replaces the types; the number of those in the new graph. -/
def setTypes (types : TypeSource) : Step Nat := do
  Action.change fun s => .ok { s with types, graph := none }
  return (← needGraph).size

/-- The generator for a target, made now if it was not before. -/
def needGenerator (name : String) : Step Generator := fun s =>
  match Fields.get? s.generators name with
  | some g => ⟨[], s, .ok g⟩
  | none =>
    match Generation.generatorFor s.packages s.registry s.tree s.config s.hooks name with
    | .error e => ⟨[], s, .error (.document (.target e))⟩
    | .ok g => ⟨[], { s with generators := Fields.put s.generators name g }, .ok g⟩

def createFailure : Generator.CreateError → Failure
  | .misfit what => .misfit what
  | .file e => .region (Region.fileFailure e)

/-- Gives a target a generator with a configuration of its own. -/
def createGenerator (target : Target) (given : List (String × Json))
    (formatter : Option Formatter) : Step Config := fun s =>
  let loaded := Config.load s.depth s.tree [] none given
  let made : Except Failure Generator := do
    let config ← loaded.result.mapError fun e => .document (.config e)
    (Generator.create s.packages s.tree target.name target (config.formattedBy formatter) s.hooks).mapError
      createFailure
  match made with
  | .error e => ⟨loaded.notes, s, .error e⟩
  | .ok g =>
    ⟨loaded.notes,
      { s with
        generators := Fields.put s.generators target.name g
        workshop := s.workshop.renew target.name },
      .ok g.config⟩

/-- Makes artifacts the current ones. -/
def setArtifacts (as : List Artifact) : Step Unit := Action.change fun s => .ok { s with artifacts := as }

/-- Keeps a result and its artifacts. -/
def keep (r : Generation.Result) : Step Generation.Result := fun s =>
  ⟨[], { s with result := some r, artifacts := r.artifacts }, .ok r⟩

/-- A step of a target's generator on the graph. -/
def generating {α : Type} (name : String)
    (f : Session → Generator → Graph.TypeGraph → Building α) : Step α := do
  let g ← needGenerator name
  let graph ← needGraph
  building fun s => f s g graph

def plan (name : String) : Step (List (ItemKind × Graph.TypeDescriptor)) :=
  generating name fun _ g graph => g.plan graph

def validate (name : String) : Step (List String) :=
  generating name fun _ g graph => Action.ofExcept ((g.validate graph).mapError .misfit)

def queries (name : String) : Step (List Settings.Query) :=
  generating name fun _ g graph => .ok (g.queries graph)

/-- The base of the type of a key. -/
def baseOf (name key : String) : Step Json := do
  let graph ← needGraph
  let g ← needGenerator name
  match graph.get? key with
  | some d => Action.ofExcept ((g.baseOf d).mapError .misfit)
  | none => Action.fail (.misfit (.lacks "NoneType" "ancestors"))

/-- Makes one artifact the current one. -/
def single (x : Step Artifact) : Step Artifact := do
  let a ← x
  setArtifacts [a]
  return a

/-- A step of a target's generator on the type of a key. -/
def onType (name : String) (item : ItemKind) (key : String)
    (f : Generator → Graph.TypeGraph → ItemKind → Graph.TypeDescriptor → Building Artifact) :
    Step Artifact :=
  single do
    let graph ← needGraph
    let g ← needGenerator name
    building fun _ => g.forKey graph item key (f g graph item)

def emit (name : String) (item : ItemKind) (key : String) : Step Artifact :=
  onType name item key Generator.emit

def build (name : String) (item : ItemKind) (key : String) : Step Artifact :=
  onType name item key Generator.build

/-- The artifacts of one target. -/
def generateTarget (name : String) : Step (List Artifact) := do
  let as ← generating name fun _ g graph => g.generate graph
  setArtifacts as
  return as

/-- The first of some generators. -/
def first (gs : List Generator) : Step (List Generator) :=
  match gs with
  | [] => Action.fail .noGenerator
  | g :: _ => .ok [g]

/-- Generates for some targets, or for the first of them alone, under the configuration of the session or
of the first generator. -/
def generate (names : List String) (alone own : Bool) : Step Generation.Result := do
  let gs ← Action.mapEach needGenerator names
  let gs ← if alone then first gs else pure gs
  let graph ← needGraph
  let r ← (fun s =>
    let config := if own then (gs.head?.map (·.config)).getD s.config else s.config
    let ran := Generation.generate graph config gs s.workshop
    ⟨ran.notes, { s with workshop := ran.state },
      ran.result.mapError fun e => .document (.collision e)⟩ : Step Generation.Result)
  keep r

/-- What a run over the document is configured by. -/
inductive RunConfig where
  | session
  | file (path : Path)
  | options (given : List (String × Json)) (formatter : Option Formatter)

/-- The configuration of a run. -/
def RunConfig.load (s : Session) : RunConfig → Outcome Failure Config
  | .session => .ok s.config
  | .file path => ofLoaded none (Config.load s.depth s.tree [] (some path) [])
  | .options given formatter => ofLoaded formatter (Config.load s.depth s.tree [] none given)
where
  ofLoaded (formatter : Option Formatter) (loaded : Outcome Config.ConfigFailure Config) :
      Outcome Failure Config :=
    ⟨loaded.notes,
      (loaded.result.map (·.formattedBy formatter)).mapError fun e => .document (.config e)⟩

/-- The settings of a run: those of the session, or some of its own. -/
inductive RunSettings where
  | session
  | entries (given : List Json)

def RunSettings.load (s : Session) : RunSettings → Except Failure Settings.Resolver
  | .session => .ok s.workshop.settings
  | .entries given =>
    ((Settings.Store.ofJson given).map Settings.Resolver.ofStore).mapError fun e =>
      .document (.entry e)

/-- The workshop of the session after a run; settings of the run's own are left behind. -/
def RunSettings.after (s : Session) (left : Workshop) : RunSettings → Workshop
  | .session => left
  | .entries _ => { left with settings := s.workshop.settings }

/-- A whole run over the document of the session. -/
def run (names : List String) (configuration : RunConfig) (settings : RunSettings) :
    Step Generation.Result := do
  let config ← looking fun s => configuration.load s
  let resolver ← check fun s => settings.load s
  let r ← (fun s =>
    let ran := Generation.fromDocument s.packages s.registry config s.hooks s.types.document names
      { s.workshop with settings := resolver }
    ⟨ran.notes, { s with workshop := settings.after s ran.state },
      ran.result.mapError .document⟩ : Step Generation.Result)
  keep r

/-- The artifact of the last result at a path. -/
def find? (s : Session) (subPath : String) : Option Artifact := s.result.bind (·.find? subPath)

/-- Fails if two artifacts have one path. -/
def checkCollisions (as : List Artifact) : Step Unit := check fun s => do
  match ← (Generation.collision? s.config as).mapError .misfit with
  | some e => .error (.document (.collision e))
  | none => .ok ()

def fileFailure (e : FileError) : Failure := .region (Region.fileFailure e)

def readFailure (e : Region.ReadFailure) : Failure := .region (.read e)

def writeFailure : Output.WriteFailure → Failure
  | .misfit what => .misfit what
  | .file e => fileFailure e
  | .unencodable e => .unencodable e

def write (as : Option (List Artifact)) : Step (List Path) :=
  onTree writeFailure fun s => Output.write s.config (as.getD s.artifacts)

def render (a : Artifact) : Step String := check fun s => (Output.render s.config a).mapError .misfit

def isGenerated (p : Path) : Step Bool := check fun s =>
  (Output.isGenerated s.config s.tree p).mapError fileFailure

def deleteGenerated (root : Path) : Step (List Path) :=
  onTree fileFailure fun s => Output.deleteGenerated s.config root

def cleanDirectories (root : Path) : Step (List Path) :=
  onTree fileFailure fun _ => Output.cleanDirectories root

def parseRegions (lines : List String) (source : String) : Step Region.Regions :=
  looking fun s => ⟨Region.parseNotes s.config.labels lines source,
    .ok (Region.parse s.config.labels lines)⟩

def readRegions (p : Path) : Step Region.Regions := looking fun s =>
  let found := Region.read s.config s.tree p
  ⟨found.notes, found.result.mapError readFailure⟩

def extractRegions (p : Path) : Step (RegionState × Region.Regions) := looking fun s =>
  let found := Region.extract s.config s.tree p
  ⟨found.notes, found.result.mapError .region⟩

/-- Merges the regions that a project holds for an artifact into it. -/
def merge (a : Artifact) (project : Path) : Step Artifact :=
  single <| looking fun s =>
    let merged := Region.merge s.config s.tree a project
    ⟨merged.notes, merged.result.mapError .region⟩

def saveRegions (p : Path) : Step (Option Path) := onTree .region fun s => Region.save s.config p

def saveAllRegions (root : Path) : Step (List Path) :=
  onTree .region fun s => Region.saveAll s.config root

/-- The lines of a file, which is removed. -/
def takeLines (p : Path) : Step (List String) := fun s =>
  match Region.takeLines s.tree p with
  | .ok (lines, tree) => ⟨[], s.withTree tree, .ok lines⟩
  | .error e => ⟨[], s, .error (readFailure e)⟩

def sidecarPath (p : Path) : Step Path := check fun s =>
  (Region.sidecarPath s.config p).mapError fun e => .region (.path e)

def isCustomizable (p : Path) : Step Bool := fact fun s => Region.isCustomizable s.config p

/-- Puts bytes into a file, with the directories that lead to it. -/
def put (p : Path) (bytes : ByteArray) : Step Unit :=
  onTree fileFailure fun _ => Output.place p bytes

/-- Makes a directory, with those that lead to it. -/
def putDirectory (p : Path) : Step Unit := onTree fileFailure fun _ => Output.makeDirectories p

def remove (p : Path) : Step Unit := onTree fileFailure fun _ => Action.change (·.remove p)

/-- Replaces a text throughout a file, whose line ends are read as one character; was it there? -/
def replace (p : Path) (old new : String) : Step Bool := fun s =>
  match Region.readText s.tree p with
  | .error e => ⟨[], s, .error (readFailure e)⟩
  | .ok text =>
    match s.tree.write p (Text.encode (Text.replace old new text)) with
    | .error e => ⟨[], s, .error (fileFailure e)⟩
    | .ok tree => ⟨[], s.withTree tree, .ok (Text.contains old text)⟩

/-- Adds a diagnostic. -/
def warn (source : Json) (message : String) : Step String := fun s =>
  let d : Diagnostic := ⟨source, message⟩
  ⟨[.diagnostic d], s, .ok d.text⟩

end Session

end Scaffold
