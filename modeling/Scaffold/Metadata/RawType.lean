import Scaffold.Json.Basic

/-!
Types and properties as a metadata document describes them. What is only passed on or read later is
kept as the document's own value.
-/

namespace Scaffold.Metadata

inductive RawKind where
  | entity
  | view
  | enumeration
  | abstraction
  deriving DecidableEq, Repr

def RawKind.all : List RawKind := [.entity, .view, .enumeration, .abstraction]

def RawKind.name : RawKind → String
  | .entity => "entity"
  | .view => "view"
  | .enumeration => "enum"
  | .abstraction => "abstract"

def RawKind.ofName? (name : String) : Option RawKind :=
  RawKind.all.find? fun kind => kind.name = name

/-- A member of an enumeration with its value. -/
structure EnumMember where
  name : String
  value : Int
  deriving DecidableEq, Repr

/-- A member as a pair of its name and its value. -/
def EnumMember.toJson (m : EnumMember) : Json := .arr [.str m.name, .int m.value]

structure RawProperty where
  name : String
  typeName : String
  declaredOn : Json
  isArray : Bool
  isGenericList : Bool
  isEnum : Bool
  isNumeric : Bool
  isClass : Bool
  isInterface : Bool
  isNullable : Bool
  elementType : Json
  elementIsInterface : Bool
  genericArguments : List Json
  isNavigation : Bool

def RawProperty.toJson (p : RawProperty) : Json := .obj [
  ("name", .str p.name), ("type", .str p.typeName), ("declared_on", p.declaredOn),
  ("is_array", .bool p.isArray), ("is_generic_list", .bool p.isGenericList),
  ("is_enum", .bool p.isEnum), ("is_numeric", .bool p.isNumeric), ("is_class", .bool p.isClass),
  ("is_interface", .bool p.isInterface), ("is_nullable", .bool p.isNullable),
  ("element_type", p.elementType), ("element_is_interface", .bool p.elementIsInterface),
  ("generic_arguments", .arr p.genericArguments), ("is_navigation", .bool p.isNavigation)]

structure RawType where
  name : String
  kind : RawKind
  namespace_ : String
  /-- The written base, or null. -/
  base : Json
  properties : List RawProperty
  members : List EnumMember
  description : Json

/-- A name in its namespace. -/
def qualify (namespace_ name : String) : String :=
  if namespace_ = "" then name else namespace_ ++ "." ++ name

def RawType.qualifiedName (t : RawType) : String := qualify t.namespace_ t.name

/-- A type with its qualified name. -/
def RawType.toJson (t : RawType) : Json := .obj [
  ("name", .str t.name), ("kind", .str t.kind.name), ("namespace", .str t.namespace_),
  ("base", t.base), ("qualified_name", .str t.qualifiedName), ("description", t.description),
  ("members", .arr (t.members.map EnumMember.toJson)),
  ("properties", .arr (t.properties.map RawProperty.toJson))]

end Scaffold.Metadata
