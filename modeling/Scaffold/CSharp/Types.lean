import Scaffold.Graph.Basic
import Scaffold.Metadata.TypeName
import Scaffold.Naming.Given

/-!
C# types of properties: how the type is written, what a new object starts with, and how a copy is made.
-/

namespace Scaffold.CSharp

open Scaffold.Graph

/-- Types that need no initial value. -/
def valueTypes : List String :=
  ["bool", "char"] ++ Metadata.numericNames ++ ["TimeSpan"] ++ Metadata.dateTimeNames ++
    Metadata.guidNames

/-- A property's type as it is written. -/
structure CSharpType where
  name : String
  /-- The element of a collection, or the type referred to. -/
  element : Option String := none
  /-- What follows the equals sign of the declaration. -/
  initializer : Option String := none
  /-- Is the element a generated model? -/
  modelElement : Bool := false
  deriving DecidableEq, Repr

/-- A graph with the namespaces that generated types are put into. -/
structure Mapper where
  graph : TypeGraph
  rootNamespace : Json
  modelsFolder : Json

namespace Mapper

def modelNamespace (m : Mapper) (d : TypeDescriptor) : Except Misfit String :=
  Naming.moduleGiven [m.rootNamespace, m.modelsFolder, .str d.namespace_]

def modelFullName (m : Mapper) (d : TypeDescriptor) : Except Misfit String :=
  (m.modelNamespace d).map fun namespace_ => namespace_ ++ "." ++ d.name

def enumFullName (m : Mapper) (d : TypeDescriptor) : Except Misfit String :=
  Naming.moduleGiven [m.rootNamespace, .str d.namespace_, .str d.name]

/-- The name of the type that a property refers to, and whether it is a generated model. -/
def target (m : Mapper) (p : PropertyDescriptor) : Except Misfit (String × Bool) :=
  match m.graph.resolve? p with
  | none => .ok (p.writtenTarget, false)
  | some d =>
    if d.kind = .enumeration then (m.enumFullName d).map (·, false)
    else (m.modelFullName d).map (·, true)

/-- A type that is no reference. -/
def plainType (p : PropertyDescriptor) : CSharpType :=
  if p.isNullable then { name := p.typeName ++ "?" }
  else if p.typeName = "string" then { name := p.typeName, initializer := some "string.Empty" }
  else if valueTypes.contains p.typeName || p.isNumeric then { name := p.typeName }
  else { name := p.typeName ++ "?" }

/-- A type that refers to another one of this name. -/
def referenceType (p : PropertyDescriptor) (name : String) (isModel : Bool) : CSharpType :=
  match p.valueKind with
  | .listOfReference => ⟨"List<" ++ name ++ ">", some name, some "new()", isModel⟩
  | .arrayOfReference => ⟨name ++ "[]", some name, some ("Array.Empty<" ++ name ++ ">()"), isModel⟩
  | .entityReference => ⟨name ++ "?", some name, none, isModel⟩
  | .enumeration => { name := if p.isNullable then name ++ "?" else name }
  | .scalar | .dateTime | .guid => plainType p

def mapProperty (m : Mapper) (p : PropertyDescriptor) : Except Misfit CSharpType :=
  match p.valueKind with
  | .scalar | .dateTime | .guid => .ok (plainType p)
  | _ => (m.target p).map fun (name, isModel) => referenceType p name isModel

/-- The statement that copies a property of a type from another object. -/
def copyOf (p : PropertyDescriptor) (mapped : CSharpType) : String :=
  let element := mapped.element.getD "None"
  let copies := p.name ++ " = other." ++ p.name
  if mapped.modelElement then
    match p.valueKind with
    | .arrayOfReference => copies ++ ".Select(e => " ++ element ++ ".Create((object)e)).ToArray();"
    | .listOfReference => copies ++ ".Select(e => " ++ element ++ ".Create((object)e)).ToList();"
    | _ =>
      copies ++ " != null ? " ++ element ++ ".Create((object)other." ++ p.name ++ ") : null;"
  else copies ++ ";"

/-- The statement that copies a property from another object. -/
def copyStatement (m : Mapper) (p : PropertyDescriptor) : Except Misfit String :=
  (m.mapProperty p).map (copyOf p)

end Mapper

end Scaffold.CSharp
