import Scaffold.Json.Equality
import Scaffold.Metadata.RawType
import Scaffold.Text.Search

/-!
Descriptors: what a generator knows of a type and of its properties; and the graph of them. References are names
that are looked up in the graph, so cycles of references need no care. A key is a qualified name or, failing that, a
short name; of several types with one short name the first counts.
-/

namespace Scaffold.Graph

open Metadata (EnumMember qualify)

inductive TypeKind where
  | entity
  | view
  | enumeration
  deriving DecidableEq, Repr

def TypeKind.all : List TypeKind := [.entity, .view, .enumeration]

def TypeKind.name : TypeKind → String
  | .entity => "entity"
  | .view => "view"
  | .enumeration => "enum"

def TypeKind.ofName? (name : String) : Option TypeKind :=
  TypeKind.all.find? fun kind => kind.name = name

/-- The structure of a property's value. -/
inductive ValueKind where
  | scalar
  | dateTime
  | guid
  | enumeration
  | entityReference
  | arrayOfReference
  | listOfReference
  deriving DecidableEq, Repr

def ValueKind.all : List ValueKind :=
  [.scalar, .dateTime, .guid, .enumeration, .entityReference, .arrayOfReference, .listOfReference]

def ValueKind.name : ValueKind → String
  | .scalar => "scalar"
  | .dateTime => "date_time"
  | .guid => "guid"
  | .enumeration => "enum"
  | .entityReference => "entity_reference"
  | .arrayOfReference => "array_of_reference"
  | .listOfReference => "list_of_reference"

def ValueKind.ofName? (name : String) : Option ValueKind :=
  ValueKind.all.find? fun kind => kind.name = name

def ValueKind.isCollection : ValueKind → Bool
  | .arrayOfReference | .listOfReference => true
  | _ => false

structure PropertyDescriptor where
  name : String
  declaringType : String
  valueKind : ValueKind
  typeName : String
  /-- The clean name of the element or of the type referred to. -/
  elementName : Option String := none
  /-- The qualified name of the element in the graph. -/
  elementType : Option String := none
  isNumeric : Bool := false
  isNullable : Bool := false
  isInterface : Bool := false
  isNavigation : Bool := false
  isVersion : Bool := false
  deriving DecidableEq, Repr

namespace PropertyDescriptor

/-- Refers to a type outside the graph. -/
def isExternalReference (p : PropertyDescriptor) : Bool :=
  p.elementName.isSome && p.elementType.isNone

/-- The name under which settings address the property. -/
def identity (p : PropertyDescriptor) : String := p.declaringType ++ "." ++ p.name

/-- The element name if it says something, else the name of the property's type. -/
def writtenTarget (p : PropertyDescriptor) : String :=
  match p.elementName with
  | some name => if name = "" then p.typeName else name
  | none => p.typeName

end PropertyDescriptor

structure TypeDescriptor where
  name : String
  kind : TypeKind
  namespace_ : String := ""
  baseName : Option String := none
  /-- Nearest first. -/
  ancestors : List String := []
  properties : List PropertyDescriptor := []
  members : List EnumMember := []
  description : Json := .null

namespace TypeDescriptor

def qualifiedName (d : TypeDescriptor) : String := qualify d.namespace_ d.name

def isModel (d : TypeDescriptor) : Bool := d.kind == .entity || d.kind == .view

def property? (d : TypeDescriptor) (name : String) : Option PropertyDescriptor :=
  d.properties.find? fun p => p.name = name

end TypeDescriptor

/-- The value that a mapping has for a name. A list or text is looked through, but has none to give. -/
def mapped? (mapping : Json) (name : String) : Except Misfit (Option Json) :=
  match mapping with
  | .obj fields => .ok (Fields.get? fields name)
  | .arr items => if items.any (·.equals (.str name)) then .error .listIndex else .ok none
  | .str text => if Text.contains name text then .error .textIndex else .ok none
  | v => .error (.notContainer v.kindName)

/-- The value of the first of some names that a mapping knows. -/
def firstMapped? (mapping : Json) : List String → Except Misfit (Option Json)
  | [] => .ok none
  | name :: rest => do
    match ← mapped? mapping name with
    | some value => return some value
    | none => firstMapped? mapping rest

/-- What a type without a mapped ancestor derives from. -/
def rootBase : Json := .str "object"

/-- The base that a mapping gives a type: that of the nearest ancestor with one. -/
def TypeDescriptor.baseIn (d : TypeDescriptor) (mapping : Json) : Except Misfit Json :=
  (firstMapped? mapping d.ancestors).map (·.getD rootBase)

structure TypeGraph where
  /-- By qualified name, in the order of their first addition. -/
  byQualifiedName : List (String × TypeDescriptor)
  /-- The qualified name of the first type with a short name. -/
  byShortName : List (String × String)

namespace TypeGraph

def empty : TypeGraph := ⟨[], []⟩

/-- Adds a descriptor; one with the same qualified name is replaced in place. -/
def add (g : TypeGraph) (d : TypeDescriptor) : TypeGraph where
  byQualifiedName := Fields.put g.byQualifiedName d.qualifiedName d
  byShortName :=
    if (Fields.get? g.byShortName d.name).isSome then g.byShortName
    else Fields.put g.byShortName d.name d.qualifiedName

def ofList (ds : List TypeDescriptor) : TypeGraph := ds.foldl add empty

def descriptors (g : TypeGraph) : List TypeDescriptor := g.byQualifiedName.map (·.2)

def size (g : TypeGraph) : Nat := g.byQualifiedName.length

/-- The descriptor of a key. -/
def get? (g : TypeGraph) (key : String) : Option TypeDescriptor :=
  if key = "" then none
  else (Fields.get? g.byQualifiedName key).orElse fun _ =>
    (Fields.get? g.byShortName key).bind (Fields.get? g.byQualifiedName)

/-- The descriptor that a property refers to. -/
def resolve? (g : TypeGraph) (p : PropertyDescriptor) : Option TypeDescriptor :=
  p.elementType.bind g.get?

def ofKind (g : TypeGraph) (kind : TypeKind) : List TypeDescriptor :=
  g.descriptors.filter (·.kind = kind)

/-- Entities, then views. -/
def models (g : TypeGraph) : List TypeDescriptor := g.ofKind .entity ++ g.ofKind .view

def enumerations (g : TypeGraph) : List TypeDescriptor := g.ofKind .enumeration

end TypeGraph

end Scaffold.Graph
