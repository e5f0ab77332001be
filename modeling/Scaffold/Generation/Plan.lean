import Scaffold.CSharp.Emission
import Scaffold.TypeScript.Emission

/-!
What a generator makes of a graph: the items that the settings switch on, each emitted, merged with the
regions of its previous file, and finished.
-/

namespace Scaffold.Generator

open Scaffold.Graph Scaffold.Settings

/-- The key of the setting that switches generation on and off. -/
def generateKey : String := "Generate"

/-- The types that an item may be generated for. -/
def candidates (item : ItemKind) (graph : TypeGraph) : List TypeDescriptor :=
  if item = .typeScriptEnum then graph.enumerations else graph.models

/-- The switch for all types. -/
def isOnForAll (g : Generator) (item : ItemKind) : Building Bool :=
  Building.askFlag (g.scope item allItems generateKey) "True"

/-- The switch for one type; without one of its own that for all types. -/
def isOn (g : Generator) (item : ItemKind) (d : TypeDescriptor) : Building Bool := do
  let forAll ← g.isOnForAll item
  Building.askFlag (g.scope item d.qualifiedName generateKey) (if forAll then "True" else "False")

def debugNote (message : String) : Note := .record ⟨.debug, .generation, message⟩

/-- Is an item planned for a type? -/
def isPlanned (g : Generator) (item : ItemKind) (d : TypeDescriptor) : Building Bool := do
  let on ← g.isOn item d
  if !on then
    Action.note (debugNote ("Skipping " ++ item.name ++ " for " ++ d.name ++ " (disabled)"))
  return on

/-- The items to generate, with their types. -/
def plan (g : Generator) (graph : TypeGraph) : Building (List (ItemKind × TypeDescriptor)) := do
  let groups ← Action.mapEach (fun item => do
    let ds ← Action.filterEach (g.isPlanned item) (candidates item graph)
    return ds.map (item, ·)) g.target.items
  return groups.flatten

/-- The queries that are worth answering ahead. -/
def queries (g : Generator) (graph : TypeGraph) : List Query :=
  let flag (scope : Scope) : Query := { scope, default := .str "True", type := .flag }
  let switches := g.target.items.map fun item => flag (g.scope item allItems generateKey)
  match g.target with
  | .typescript => switches
  | .csharp =>
    switches ++ graph.models.flatMap fun d =>
      d.properties.map fun p => flag (g.scope .modelProperty p.identity generateKey)

/-- The body of an item, with its pending imports. -/
def emit (g : Generator) (graph : TypeGraph) (item : ItemKind) (d : TypeDescriptor) :
    Building Artifact :=
  match g.target, item with
  | .csharp, .model => CSharp.createModel g graph d
  | .csharp, .modelInheritance => CSharp.createInheritance g graph d
  | .typescript, .typeScriptEnum => TypeScript.createEnum g d
  | .typescript, .typeScriptModel => TypeScript.createModel g graph d
  | .typescript, .typeScriptService => TypeScript.createService g d
  | target, item => .fail (.notEmitted target item)

/-- The last change of an artifact by its target. -/
def finish (g : Generator) (d : TypeDescriptor) (a : Artifact) : Except Misfit Artifact :=
  match g.target with
  | .csharp => CSharp.envelope g.config d a
  | .typescript => .ok a

/-- Emits an item, merges its regions and finishes it. -/
def build (g : Generator) (graph : TypeGraph) (item : ItemKind) (d : TypeDescriptor) :
    Building Artifact := do
  let a ← g.emit graph item d
  let project ← Building.orMisfit g.projectPath
  let a ← Building.looking fun t =>
    let merged := Region.merge g.config t a project
    ⟨merged.notes, merged.result.mapError .region⟩
  let a ← Building.orMisfit (g.finish d a)
  let a ← Building.orHook (Hooks.runAll (.type d) a g.hooks.finish)
  Action.note (debugNote ("Built " ++ a.label))
  return a

/-- A step for the type of a key; an item that is not emitted is refused first. -/
def forKey (g : Generator) (graph : TypeGraph) (item : ItemKind) (key : String)
    (step : TypeDescriptor → Building Artifact) : Building Artifact :=
  if g.target.items.contains item then
    match graph.get? key with
    | some d => step d
    | none => .fail (.misfit (.lacks "NoneType" "namespace"))
  else .fail (.notEmitted g.target item)

/-- All artifacts of the generator, one after the other. -/
def generate (g : Generator) (graph : TypeGraph) : Building (List Artifact) := do
  let tasks ← g.plan graph
  Action.mapEach (fun (item, d) => g.build graph item d) tasks

/-- The base that the target's mapping gives a type. -/
def baseOf (g : Generator) (d : TypeDescriptor) : Except Misfit Json :=
  match g.target with
  | .csharp => CSharp.baseClass g.config d
  | .typescript => TypeScript.baseInterface g.config d

/-- The warnings about one type: no properties, and references out of the graph. -/
def typeWarnings (d : TypeDescriptor) : List String :=
  Config.warningIf (d.isModel && d.properties.isEmpty) ("Type '" ++ d.name ++ "' has no properties") ++
    d.properties.flatMap fun p =>
      Config.warningIf (p.valueKind == .entityReference && p.isExternalReference)
        (d.name ++ "." ++ p.name ++ " references " ++ p.elementName.getD "None" ++
          ", which is not part of the generated graph")

/-- What is wrong with a graph and the configuration for the target. -/
def validate (g : Generator) (graph : TypeGraph) : Except Misfit (List String) := do
  let common := graph.descriptors.flatMap typeWarnings
  match g.target with
  | .csharp =>
    return common ++ (← g.config.csharpWarnings) ++ (← CSharp.baseWarnings g.config graph.models)
  | .typescript =>
    return common ++ (← g.config.typescriptWarnings) ++ TypeScript.enumWarnings graph

end Scaffold.Generator
