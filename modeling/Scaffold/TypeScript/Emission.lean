import Scaffold.Generation.Generator
import Scaffold.Import
import Scaffold.TypeScript.Types

/-!
TypeScript artifacts: enumerations, interface models, and services that fetch models.
-/

namespace Scaffold.TypeScript

open Scaffold.Graph

def enumsFolder : String := "enums"

def modelsFolder : String := "models"

def servicesFolder : String := "services/http"

/-- The path of a type's file: source path, folder, namespace as file items, file item. -/
def subPath (c : Config) (folder : String) (d : TypeDescriptor) (item : String) :
    Except Misfit String :=
  Naming.joinGiven [c.angularSourcePath, .str folder, .str (Naming.subPath d.namespace_),
    .str (Naming.fileItem item ++ ".ts")]

def fullName (c : Config) (folder : String) (d : TypeDescriptor) : Except Misfit String :=
  Naming.moduleGiven [c.angularSourcePath, .str folder, .str (Naming.subPath d.namespace_),
    .str d.name]

/-- The base of an interface: that of the nearest ancestor with one. -/
def baseInterface (c : Config) (d : TypeDescriptor) : Except Misfit Json :=
  d.baseIn c.angularBaseClasses

/-- The case that members are named in. -/
def namingCase (c : Config) : Except BuildError Naming.NamingCase :=
  match c.propertyCase with
  | .str name =>
    match Naming.NamingCase.ofName? name with
    | some found => .ok found
    | none => .error (.namingCase c.propertyCase)
  | given => .error (.namingCase given)

/-- The lines of an enumeration. -/
def enumLines (d : TypeDescriptor) : List String :=
  ["export enum " ++ d.name ++ " \x7b"] ++
    d.members.map (fun m => "  " ++ m.name ++ " = " ++ toString m.value ++ ",") ++ ["\x7d"]

def createEnum (g : Generator) (d : TypeDescriptor) : Building Artifact := do
  let a ← g.newArtifact .typeScriptEnum d (fullName g.config enumsFolder d)
    (subPath g.config enumsFolder d d.name)
  let a := { a with hasCustomImports := false }
  g.betweenHooks .typeScriptEnum (.type d) (fun a => pure (a.addTexts (enumLines d))) a

/-- The imports of a model: its base, then the types its properties refer to. -/
def modelImports (c : Config) (graph : TypeGraph) (d : TypeDescriptor) (base : Json) :
    Except Misfit (List String) := do
  let own ← if base.equals rootBase then pure []
    else do pure [← importGiven c.modelAlias base (.str "")]
  return own ++ (← Import.statements graph c d)

/-- Adds a member; a property without a type is left out with a warning. -/
def addMember (g : Generator) (graph : TypeGraph) (d : TypeDescriptor) (a : Artifact)
    (p : PropertyDescriptor) : Building Artifact :=
  match mapProperty graph p with
  | none => do
    Building.warn (d.name ++ "." ++ p.name)
      ("no TypeScript type for '" ++ p.typeName ++ "'; property skipped")
    return a
  | some type => do
    let namingCase ← Action.ofExcept (namingCase g.config)
    return a.addText ("  " ++ namingCase.apply p.name ++ ": " ++ type ++ ";")

/-- The line that opens an interface. -/
def interfaceLine (d : TypeDescriptor) (base : Json) : String :=
  "export interface " ++ d.name ++
    (if base.equals rootBase then "" else " extends " ++ base.text) ++ " \x7b"

def createModel (g : Generator) (graph : TypeGraph) (d : TypeDescriptor) : Building Artifact := do
  let base ← Building.orMisfit (baseInterface g.config d)
  let a ← g.newArtifact .typeScriptModel d (fullName g.config modelsFolder d)
    (subPath g.config modelsFolder d d.name)
  let imports ← Building.orMisfit (modelImports g.config graph d base)
  let a := { a with imports := a.imports ++ imports }
  g.betweenHooks .typeScriptModel (.type d)
    (fun a => do
      let a := a.addText (interfaceLine d base)
      let a ← Action.foldEach (addMember g graph d) a d.properties
      return a.addText "\x7d") a

def baseService (d : TypeDescriptor) : String :=
  if d.kind = .view then "ApiViewBaseService" else "ApiEntityBaseService"

/-- The module of a base service: its file item before the word for services. -/
def baseServiceModule (service : String) : String :=
  Naming.fileItem (.ofList ((Text.dropSuffix? "Service".toList service.toList).getD [])) ++ ".service"

def serviceContext (c : Config) (d : TypeDescriptor) : Template.Context := [
  ("entity_name", .str d.name), ("model_name", .str d.name), ("base_service", .str (baseService d)),
  ("base_service_module", .str (baseServiceModule (baseService d))),
  ("service_alias", c.serviceAlias)]

def createService (g : Generator) (d : TypeDescriptor) : Building Artifact := do
  let a ← g.newArtifact .typeScriptService d (fullName g.config servicesFolder d)
    (subPath g.config servicesFolder d (d.name ++ "Service"))
  let context := serviceContext g.config d
  let imports ← g.templateLines "typescript/service_imports.ts" context
  let own ← Building.orMisfit
    (importGiven g.config.modelAlias (.str d.name) (.str (Naming.subPath d.namespace_)))
  let a := { a with imports := a.imports ++ imports ++ [own] }
  g.betweenHooks .typeScriptService (.type d)
    (fun a => do
      let lines ← g.templateLines "typescript/service.ts" context
      return a.addTexts lines) a

/-- The warnings about enumerations without members. -/
def enumWarnings (graph : TypeGraph) : List String :=
  (graph.enumerations.filter fun d => d.members.isEmpty).map fun d =>
    "Enum " ++ d.name ++ " has no members"

end Scaffold.TypeScript
