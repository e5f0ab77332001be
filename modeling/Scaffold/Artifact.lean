import Scaffold.Json.Misfit
import Scaffold.Path
import Scaffold.Text.Lines

/-!
Artifacts: generated files before they are written. An artifact carries the lines of its body and, until
the regions are merged, the import lines that belong above it. A label that is no text makes a line that
is none either; such a body can be carried but not written.
-/

namespace Scaffold

/-- The projects that receive files. -/
inductive UnitKind where
  | webApi
  | angularApp
  deriving DecidableEq, Repr

def UnitKind.all : List UnitKind := [.webApi, .angularApp]

def UnitKind.name : UnitKind → String
  | .webApi => "WebApi"
  | .angularApp => "AngularApp"

def UnitKind.ofName? (name : String) : Option UnitKind := UnitKind.all.find? fun u => u.name = name

/-- The kinds of items that settings and hooks address. -/
inductive ItemKind where
  | model
  | modelInheritance
  | modelProperty
  | lambda
  | typeScriptEnum
  | typeScriptModel
  | typeScriptService
  deriving DecidableEq, Repr

def ItemKind.all : List ItemKind :=
  [.model, .modelInheritance, .modelProperty, .lambda, .typeScriptEnum, .typeScriptModel,
    .typeScriptService]

def ItemKind.name : ItemKind → String
  | .model => "Model"
  | .modelInheritance => "ModelInheritance"
  | .modelProperty => "ModelProperty"
  | .lambda => "Lambda"
  | .typeScriptEnum => "TypeScriptEnum"
  | .typeScriptModel => "TypeScriptModel"
  | .typeScriptService => "TypeScriptService"

def ItemKind.ofName? (name : String) : Option ItemKind := ItemKind.all.find? fun i => i.name = name

/-- How far the merge of the custom regions has come. -/
inductive RegionState where
  | noPriorFile
  | priorFileFound
  | regionsExtracted
  | merged
  deriving DecidableEq, Repr

def RegionState.name : RegionState → String
  | .noPriorFile => "no_prior_file"
  | .priorFileFound => "prior_file_found"
  | .regionsExtracted => "regions_extracted"
  | .merged => "merged"

structure Artifact where
  unit : UnitKind
  item : ItemKind
  fullName : String
  subPath : String
  extension : String
  source : List Json := []
  /-- Lines that the merge puts above the body. -/
  imports : List String := []
  hasRegions : Bool := true
  hasCustomImports : Bool := true
  state : Option RegionState := none

namespace Artifact

/-- The path of the file below the folder of its unit. -/
def path (a : Artifact) (project : Path) : Path := project.join (Path.ofText a.subPath)

def addLine (a : Artifact) (line : Json) : Artifact := { a with source := a.source ++ [line] }

def addLines (a : Artifact) (lines : List Json) : Artifact := { a with source := a.source ++ lines }

def addText (a : Artifact) (line : String) : Artifact := a.addLine (.str line)

def addTexts (a : Artifact) (lines : List String) : Artifact := a.addLines (lines.map .str)

/-- Puts the body into a namespace block, below some using lines. -/
def inNamespace (a : Artifact) (namespace_ : String) (usings : List String) : Artifact :=
  { a with
    source := .str ("namespace " ++ namespace_) :: .str "\x7b" :: usings.map .str ++ a.source ++
      [.str "\x7d"] }

/-- The texts of some lines, counted from a place, if all are texts. -/
def textsFrom (place : Nat) : List Json → Except Misfit (List String)
  | [] => .ok []
  | .str line :: rest => do return line :: (← textsFrom (place + 1) rest)
  | v :: _ => .error (.notLine place v.kindName)

/-- Lines as the text of a file. -/
def joined? (lines : List Json) : Except Misfit String := (textsFrom 0 lines).map Text.joinLines

/-- The body as the text of a file. -/
def text? (a : Artifact) : Except Misfit String := joined? a.source

/-- The artifact in messages. -/
def label (a : Artifact) : String := a.item.name ++ ":" ++ a.fullName ++ " -> " ++ a.subPath

/-- The artifact as fields, with a body in place of its own. -/
def fieldsWith (a : Artifact) (source : List Json) : List (String × Json) := [
  ("unit", .str a.unit.name), ("item", .str a.item.name), ("full_name", .str a.fullName),
  ("path", .str a.subPath), ("ext", .str a.extension), ("source", .arr source),
  ("imports", .arr (a.imports.map .str)),
  ("state", (a.state.map fun state => Json.str state.name).getD .null), ("str", .str a.label)]

end Artifact

end Scaffold
