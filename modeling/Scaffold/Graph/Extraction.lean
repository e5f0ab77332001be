import Scaffold.Graph.Basic
import Scaffold.Metadata.Provider

/-!
The graph of a metadata document. Of the entities, views and enumerations that a filter accepts each
becomes a descriptor; a property of no known shape is left out with a diagnostic.
-/

namespace Scaffold.Graph

open Metadata

/-- The kind of descriptor of a raw kind; abstract types have none. -/
def TypeKind.ofRaw? : RawKind → Option TypeKind
  | .entity => some .entity
  | .view => some .view
  | .enumeration => some .enumeration
  | .abstraction => none

/-- The qualified name that a clean name has among the accepted types. -/
def elementKey? (accepted : List RawType) (clean : String) : Option String :=
  if clean = "" then none
  else if accepted.any fun t => t.qualifiedName = clean then some clean
  else (accepted.find? fun t => t.name = clean).map (·.qualifiedName)

/-- What a written name refers to among the accepted types. -/
def elementType? (accepted : List RawType) (written : String) : Option String :=
  if written = "" then none else elementKey? accepted (cleanName written)

/-- Why a property is left out. -/
inductive Anomaly where
  | unrecognized
  | severalArguments (count : Nat)
  | noElement
  deriving DecidableEq, Repr

def Anomaly.message : Anomaly → String
  | .unrecognized => "unrecognized property shape"
  | .severalArguments count => "generic list with " ++ toString count ++ " type arguments"
  | .noElement => "collection without element type"

/-- The note that a property is left out. -/
def anomalyNote (type : RawType) (property : RawProperty) (why : Anomaly) : Note :=
  .warn (type.name ++ "." ++ property.name)
    (why.message ++ " (" ++ property.typeName ++ "); property skipped")

/-- What all shapes of a property have in common, as a scalar. -/
def commonDescriptor (versions : List Json) (declared : Provider.Declared) : PropertyDescriptor :=
  let written := TypeName.ofText declared.property.typeName
  { name := declared.property.name
    declaringType := declared.declaring
    valueKind := .scalar
    typeName := written.name
    isNullable := declared.property.isNullable || written.nullable
    isNavigation := declared.property.isNavigation
    isVersion := versions.any (·.equals (.str declared.property.name)) }

/-- The written element of a collection. -/
def elementOf (property : RawProperty) : Except Anomaly Json :=
  let first := property.genericArguments.headD .null
  let element :=
    if property.elementType.isSet || !property.isGenericList then property.elementType else first
  if property.isGenericList && 1 < property.genericArguments.length then
    .error (.severalArguments property.genericArguments.length)
  else if element.isSet then .ok element
  else .error .noElement

/-- A collection: a generic list, or else an array. -/
def classifyCollection (accepted : List RawType) (property : RawProperty)
    (common : PropertyDescriptor) : Except Misfit (Except Anomaly PropertyDescriptor) :=
  match elementOf property with
  | .error why => .ok (.error why)
  | .ok (.str written) =>
    let name := cleanName written
    .ok <| .ok { common with
      valueKind := if property.isGenericList then .listOfReference else .arrayOfReference
      elementName := some name
      elementType := elementType? accepted name
      isNumeric := numericNames.contains name
      isInterface := property.elementIsInterface }
  | .ok other => .error (.lacks other.kindName "strip")

/-- The descriptor of a property, or why there is none. -/
def classify (accepted : List RawType) (versions : List Json) (declared : Provider.Declared) :
    Except Misfit (Except Anomaly PropertyDescriptor) :=
  let property := declared.property
  let common := commonDescriptor versions declared
  let name := common.typeName
  if property.isEnum then
    .ok <| .ok { common with
      valueKind := .enumeration, elementName := some name, elementType := elementType? accepted name }
  else if property.isArray || property.isGenericList then
    classifyCollection accepted property common
  else if dateTimeNames.contains name then .ok (.ok { common with valueKind := .dateTime })
  else if guidNames.contains name then .ok (.ok { common with valueKind := .guid })
  else if primitiveNames.contains name || property.isNumeric then
    .ok (.ok { common with isNumeric := property.isNumeric || numericNames.contains name })
  else if (property.isClass || property.isInterface) && property.genericArguments.isEmpty then
    .ok <| .ok { common with
      valueKind := .entityReference
      elementName := some name
      elementType := elementType? accepted name
      isInterface := property.isInterface }
  else .ok (.error .unrecognized)

/-- The descriptor of a property; one that is left out leaves a note. -/
def describeProperty (accepted : List RawType) (versions : List Json) (type : RawType)
    (declared : Provider.Declared) : Outcome Misfit (Option PropertyDescriptor) :=
  match classify accepted versions declared with
  | .error misfit => .fail misfit
  | .ok (.ok descriptor) => .ok (some descriptor)
  | .ok (.error why) =>
    (Outcome.note (anomalyNote type declared.property why)).bind fun _ => .ok none

/-- The descriptors of a type's properties. An enumeration has none. -/
def describeProperties (p : Provider) (accepted : List RawType) (versions : List Json)
    (type : RawType) : Outcome Misfit (List PropertyDescriptor) :=
  if type.kind = .enumeration then .ok []
  else (Outcome.ofExcept (p.properties type)).bind
    (Outcome.collect (describeProperty accepted versions type))

/-- The descriptor of an accepted type. -/
def describe (p : Provider) (accepted : List RawType) (versions : List Json) (type : RawType) :
    Outcome Misfit (Option TypeDescriptor) :=
  match TypeKind.ofRaw? type.kind with
  | none => .ok none
  | some kind =>
    (p.ancestors type).bind fun ancestors =>
      (describeProperties p accepted versions type).bind fun properties =>
        .ok <| some {
          name := type.name
          kind
          namespace_ := type.namespace_
          baseName := type.baseName?.toOption.join
          ancestors
          properties
          members := if kind = .enumeration then type.members else []
          description := type.description }

/-- The types that become descriptors, in the order of their kinds. -/
def candidates (p : Provider) (accepts : RawType → Bool) : List RawType :=
  p.generated.filter accepts

/-- The record of what an extraction found. -/
def extractionRecord (g : TypeGraph) : Log.Record :=
  ⟨.info, .extraction,
    "Extracted " ++ toString g.size ++ " types (" ++ toString (g.ofKind .entity).length ++
      " entities, " ++ toString (g.ofKind .view).length ++ " views, " ++
      toString g.enumerations.length ++ " enums)"⟩

/-- The graph of the types that a filter accepts. -/
def extract (p : Provider) (versions : List Json) (accepts : RawType → Bool) :
    Outcome Misfit TypeGraph :=
  let accepted := candidates p accepts
  (Outcome.collect (describe p accepted versions) accepted).bind fun descriptors =>
    let g := TypeGraph.ofList descriptors
    (Outcome.note (.record (extractionRecord g))).bind fun _ => .ok g

/-- The graph of a document. -/
def extractDocument (document : Json) (versions : List Json) (accepts : RawType → Bool) :
    Outcome MetadataError TypeGraph :=
  (Outcome.ofExcept (Provider.ofJson document)).bind fun p =>
    let found := extract p versions accepts
    ⟨found.notes, found.result.mapError .misfit⟩

end Scaffold.Graph
