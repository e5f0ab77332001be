import Scaffold.Config.Basic
import Scaffold.Graph.Basic
import Scaffold.Naming.Given

/-!
Imports: the other artifacts that the artifact of a type refers to, each once and in the order of first
use.
-/

namespace Scaffold

/-- The line that imports a name from a module. -/
def importLine (name module_ : String) : String :=
  "import \x7b " ++ name ++ " \x7d from '" ++ module_ ++ "';"

/-- The import statement of a name from the file item below an alias. -/
def importStatement (aliasPath name subPath : String) : String :=
  importLine name (Naming.joinPath [aliasPath, Naming.fileItem subPath, Naming.fileItem name])

/-- The folder of a sub path; one that says nothing is empty. -/
def importFolder (subPath : Json) : Except Misfit String :=
  if subPath.isSet then Naming.fileItemOf subPath else .ok ""

/-- The import statement of values that need not be texts. -/
def importGiven (aliasPath name subPath : Json) : Except Misfit String := do
  let folder ← importFolder subPath
  let file ← Naming.fileItemOf name
  let module_ ← Naming.joinGiven [aliasPath, .str folder, .str file]
  match name with
  | .str name => return importLine name module_
  | v => .error (.notAppended v.kindName)

theorem importFolder_text (subPath : String) :
    importFolder (.str subPath) = .ok (Naming.fileItem subPath) := by
  by_cases h : subPath = ""
  · subst h; rfl
  · simp [importFolder, Json.isSet, h, Naming.fileItemOf]

theorem importGiven_texts (aliasPath name subPath : String) :
    importGiven (.str aliasPath) (.str name) (.str subPath) =
      .ok (importStatement aliasPath name subPath) := by
  have parts := Naming.joinGiven_texts [aliasPath, Naming.fileItem subPath, Naming.fileItem name]
  simp only [List.map_cons, List.map_nil] at parts
  simp only [importGiven, importFolder_text, Naming.fileItemOf, bind, Except.bind, parts]
  rfl

inductive ImportCategory where
  | enumeration
  | model
  deriving DecidableEq, Repr

def ImportCategory.name : ImportCategory → String
  | .enumeration => "enum"
  | .model => "model"

/-- A reference to another generated artifact. -/
structure Import where
  category : ImportCategory
  name : String
  subPath : String
  aliasPath : Json

namespace Import

open Scaffold.Graph

def statement (i : Import) : Except Misfit String :=
  importGiven i.aliasPath (.str i.name) (.str i.subPath)

/-- The reference that the artifact of a type is imported by. -/
def ofTarget (c : Config) (target : TypeDescriptor) : Import :=
  let subPath := Naming.subPath target.namespace_
  if target.kind = .enumeration then ⟨.enumeration, target.name, subPath, c.enumAlias⟩
  else ⟨.model, target.name, subPath, c.modelAlias⟩

/-- Does a property of this kind refer to another type? -/
def refers : ValueKind → Bool
  | .enumeration | .entityReference | .arrayOfReference | .listOfReference => true
  | .scalar | .dateTime | .guid => false

/-- The reference of one property. Behind an interface only an enumeration is imported. -/
def ofProperty? (g : TypeGraph) (c : Config) (p : PropertyDescriptor) : Option Import :=
  if refers p.valueKind then
    match g.resolve? p with
    | some target =>
      if target.kind = .enumeration || !p.isInterface then some (ofTarget c target) else none
    | none => none
  else none

/-- An import with its statement. -/
def stated (i : Import) : Except Misfit (Import × String) := i.statement.map (i, ·)

/-- An import and its statement as fields. -/
def toJson (i : Import × String) : Json := .obj [
  ("category", .str i.1.category.name), ("name", .str i.1.name), ("sub_path", .str i.1.subPath),
  ("alias", i.1.aliasPath), ("statement", .str i.2)]

/-- Keeps the first import of each statement. -/
def distinctStatements : List (Import × String) → List (Import × String)
  | [] => []
  | i :: rest => i :: (distinctStatements rest).filter fun j => j.2 ≠ i.2

/-- The references of a type to others, by the order of its properties, with their statements. -/
def resolve (g : TypeGraph) (c : Config) (d : TypeDescriptor) :
    Except Misfit (List (Import × String)) :=
  (((d.properties.filterMap (ofProperty? g c)).filter fun i => i.name ≠ d.name).mapM stated).map
    distinctStatements

def statements (g : TypeGraph) (c : Config) (d : TypeDescriptor) : Except Misfit (List String) :=
  (resolve g c d).map fun found => found.map (·.2)

end Import

/-- Keeps the first of equal lines. -/
def distinctLines : List String → List String
  | [] => []
  | line :: rest => line :: (distinctLines rest).filter (· ≠ line)

/-- Puts import lines on top of a body, each once. -/
def withImports (imports : List String) (lines : List Json) : List Json :=
  (distinctLines imports).map .str ++ lines

/-- Puts the items of a value on top of a list, each once. Without items the other value need be no list. -/
def withImportsGiven (imports lines : Json) : Except Misfit Json := do
  let imports ← Json.distinct? (← imports.items?)
  match lines with
  | .arr lines => return .arr (imports ++ lines)
  | v => if imports.isEmpty then return v else .error (.lacks v.kindName "insert")

end Scaffold
