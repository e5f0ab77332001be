import Scaffold.Graph.Basic
import Scaffold.Metadata.TypeName
import Scaffold.Naming.Case

/-!
TypeScript types of properties. A shape that cannot be expressed has none.
-/

namespace Scaffold.TypeScript

open Scaffold.Graph

def dateType : String := "Date"

def stringType : String := "string"

def numberType : String := "number"

/-- The type of a scalar, by the name of its type. -/
def mapScalar (typeName : String) (isNumeric : Bool) : Option String :=
  if Metadata.dateTimeNames.contains typeName then some dateType
  else if typeName = "string" ∨ typeName = "Guid" then some stringType
  else if typeName = "bool" then some "boolean"
  else if isNumeric || Metadata.numericNames.contains typeName then some numberType
  else none

/-- The type of a scalar, by a name that need not be a text. -/
def mapScalarGiven (typeName : Json) (isNumeric : Bool) : Except Misfit (Option String) := do
  let _ ← typeName.key?
  match typeName with
  | .str name => return mapScalar name isNumeric
  | _ => return if isNumeric then some numberType else none

/-- The name of the type that a reference is to. -/
def referenceName (g : TypeGraph) (p : PropertyDescriptor) : String :=
  if p.isInterface then Naming.withoutInterfaceMark p.writtenTarget
  else match g.resolve? p with
    | some d => d.name
    | none => p.writtenTarget

/-- The element of a collection whose target is not used. -/
def opaqueElement (p : PropertyDescriptor) : Option String :=
  let element := p.elementName.getD ""
  if p.isInterface then some (Naming.withoutInterfaceMark element)
  else if Metadata.primitiveNames.contains element || Metadata.dateTimeNames.contains element ||
      element = "Guid" then
    mapScalar element p.isNumeric
  else some element

/-- The type of a collection's element. -/
def elementName (g : TypeGraph) (p : PropertyDescriptor) : Option String :=
  match g.resolve? p with
  | some d =>
    if d.kind = .enumeration || !p.isInterface then some d.name else opaqueElement p
  | none => opaqueElement p

/-- The type of a property. -/
def mapProperty (g : TypeGraph) (p : PropertyDescriptor) : Option String :=
  match p.valueKind with
  | .dateTime => some dateType
  | .guid => some stringType
  | .scalar => mapScalar p.typeName p.isNumeric
  | .enumeration =>
    match g.resolve? p with
    | some d => some d.name
    | none => p.elementName
  | .entityReference => some (referenceName g p)
  | .arrayOfReference | .listOfReference =>
    match elementName g p with
    | some "" => none
    | some element => some (element ++ "[]")
    | none => none

end Scaffold.TypeScript
