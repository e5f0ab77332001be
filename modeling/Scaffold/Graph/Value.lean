import Scaffold.CSharp.Types
import Scaffold.Graph.Basic
import Scaffold.Import
import Scaffold.Json.Printer
import Scaffold.TypeScript.Types

/-!
Descriptors as values: objects with a field for each part. What has a default may be left out; a field that
is not known is refused, and so is a kind that is none. And how the types of a graph are written: each property in
C# and in TypeScript, the names that the type gets, and what it imports.
-/

namespace Scaffold.Graph

open Metadata (EnumMember)

/-- Why a value is no descriptor. -/
inductive DescriptorError where
  /-- The field is not there, or not the name of a kind. -/
  | noField (key : String)
  | unknownKind (what : String) (given : Json)
  | misfit (what : Misfit)

/-- A name by its text, if the value is one. -/
def nameIn? {α : Type} (ofName? : String → Option α) : Json → Option α
  | .str name => ofName? name
  | _ => none

/-- The kind that a field names. -/
def kindIn {α : Type} (what key : String) (ofName? : String → Option α)
    (fields : List (String × Json)) : Except DescriptorError α :=
  match Fields.get? fields key with
  | none => .error (.noField key)
  | some given =>
    match nameIn? ofName? given with
    | some kind => .ok kind
    | none => .error (.unknownKind what given)

/-- Refuses fields that are not known, and those that are missing. -/
def checkFields (required optional : List String) (fields : List (String × Json)) :
    Except DescriptorError Unit :=
  if fields.all (fun (key, _) => (required ++ optional).contains key) &&
      required.all fun key => (Fields.get? fields key).isSome then .ok ()
  else .error (.misfit .arguments)

/-- The text of a field, empty if it is missing. -/
def textIn (fields : List (String × Json)) (key : String) : String :=
  ((Fields.get? fields key).map Json.text).getD ""

/-- The text of a field that may be null. -/
def textIn? (fields : List (String × Json)) (key : String) : Option String :=
  match Fields.get? fields key with
  | none | some .null => none
  | some v => some v.text

def flagIn (fields : List (String × Json)) (key : String) : Bool :=
  ((Fields.get? fields key).map Json.isSet).getD false

/-- The items of a field, none if it is missing. -/
def itemsIn (fields : List (String × Json)) (key : String) : Except DescriptorError (List Json) :=
  (((Fields.get? fields key).getD (.arr [])).items?).mapError .misfit

/-- The fields of an object. -/
def fieldsOf (v : Json) : Except DescriptorError (List (String × Json)) :=
  match v with
  | .obj fields => .ok fields
  | v => .error (.misfit v.indexMisfit)

def PropertyDescriptor.ofJson (v : Json) : Except DescriptorError PropertyDescriptor := do
  let fields ← fieldsOf v
  let valueKind ← kindIn "ValueKind" "value_kind" ValueKind.ofName? fields
  checkFields ["name", "declaring_type", "value_kind", "type_name"]
    ["element_name", "element_type", "is_numeric", "is_nullable", "is_interface", "is_navigation",
      "is_version"] fields
  return {
    name := textIn fields "name"
    declaringType := textIn fields "declaring_type"
    valueKind
    typeName := textIn fields "type_name"
    elementName := textIn? fields "element_name"
    elementType := textIn? fields "element_type"
    isNumeric := flagIn fields "is_numeric"
    isNullable := flagIn fields "is_nullable"
    isInterface := flagIn fields "is_interface"
    isNavigation := flagIn fields "is_navigation"
    isVersion := flagIn fields "is_version" }

/-- A member as a pair of its name and its value. -/
def memberOf (v : Json) : Except DescriptorError EnumMember :=
  match v with
  | .arr [name, .int value] => .ok ⟨name.text, value⟩
  | _ => .error (.misfit .arguments)

def TypeDescriptor.ofJson (v : Json) : Except DescriptorError TypeDescriptor := do
  let fields ← fieldsOf v
  let kind ← kindIn "TypeKind" "kind" TypeKind.ofName? fields
  let properties ← (← itemsIn fields "properties").mapM PropertyDescriptor.ofJson
  let members ← (← itemsIn fields "members").mapM memberOf
  checkFields ["name", "kind"]
    ["namespace", "base_name", "ancestors", "properties", "members", "description"] fields
  return {
    name := textIn fields "name"
    kind
    namespace_ := textIn fields "namespace"
    baseName := textIn? fields "base_name"
    ancestors := (← itemsIn fields "ancestors").map Json.text
    properties
    members
    description := (Fields.get? fields "description").getD .null }

/-- A text that may be missing. -/
def textOrNull (s : Option String) : Json := (s.map Json.str).getD .null

/-- A property with what follows from its fields. -/
def PropertyDescriptor.toJson (p : PropertyDescriptor) : Json := .obj [
  ("name", .str p.name), ("declaring_type", .str p.declaringType),
  ("value_kind", .str p.valueKind.name), ("type_name", .str p.typeName),
  ("element_name", textOrNull p.elementName), ("element_type", textOrNull p.elementType),
  ("is_numeric", .bool p.isNumeric), ("is_nullable", .bool p.isNullable),
  ("is_interface", .bool p.isInterface), ("is_navigation", .bool p.isNavigation),
  ("is_version", .bool p.isVersion), ("is_external_reference", .bool p.isExternalReference),
  ("identity", .str p.identity)]

/-- A type with what follows from its fields. -/
def TypeDescriptor.toJson (d : TypeDescriptor) : Json := .obj [
  ("name", .str d.name), ("kind", .str d.kind.name), ("namespace", .str d.namespace_),
  ("base_name", textOrNull d.baseName), ("ancestors", .arr (d.ancestors.map .str)),
  ("qualified_name", .str d.qualifiedName), ("is_model", .bool d.isModel),
  ("description", d.description), ("members", .arr (d.members.map Metadata.EnumMember.toJson)),
  ("properties", .arr (d.properties.map PropertyDescriptor.toJson))]

/-- The qualified names of some types. -/
def names (ds : List TypeDescriptor) : Json := .arr (ds.map fun d => .str d.qualifiedName)

/-- A graph as fields: its types, their number, and the names of each kind. -/
def TypeGraph.fields (g : TypeGraph) : List (String × Json) := [
  ("types", .arr (g.descriptors.map TypeDescriptor.toJson)), ("length", .int g.size),
  ("entities", names (g.ofKind .entity)), ("views", names (g.ofKind .view)),
  ("enums", names g.enumerations), ("models", names g.models)]

/-- How a property is written, as fields. -/
def PropertyDescriptor.written (m : CSharp.Mapper) (p : PropertyDescriptor) :
    Except Misfit Json := do
  let mapped ← m.mapProperty p
  let text (s : Option String) : Json := (s.map Json.str).getD .null
  return .obj [("name", .str p.name), ("csharp", .str mapped.name), ("element", text mapped.element),
    ("initializer", text mapped.initializer), ("model_element", .bool mapped.modelElement),
    ("copy", .str (← m.copyStatement p)), ("typescript", text (TypeScript.mapProperty m.graph p))]

/-- How a type is written, as fields. -/
def TypeDescriptor.written (g : TypeGraph) (c : Config) (d : TypeDescriptor) :
    Except Misfit Json := do
  let m : CSharp.Mapper := ⟨g, c.rootNamespace, c.modelsFolder⟩
  let properties ← d.properties.mapM (·.written m)
  let modelNamespace ← m.modelNamespace d
  let modelFullName ← m.modelFullName d
  let enumFullName ← m.enumFullName d
  let imports ← Import.resolve g c d
  return .obj [("type", .str d.qualifiedName), ("properties", .arr properties),
    ("model_namespace", .str modelNamespace), ("model_full_name", .str modelFullName),
    ("enum_full_name", .str enumFullName), ("imports", .arr (imports.map Import.toJson)),
    ("statements", .arr (imports.map fun (_, statement) => .str statement))]

end Scaffold.Graph
