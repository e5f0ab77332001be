import Scaffold.Decimal.Reading
import Scaffold.Json.Misfit
import Scaffold.Json.Printer
import Scaffold.Metadata.RawType
import Scaffold.Text.Case
import Scaffold.Text.Search

/-!
Reading a metadata document. Entries that lack what they need are reported with the entry as it was
written; entries of the wrong kind are a misfit.
-/

namespace Scaffold.Metadata

/-- Why a document is refused. -/
inductive MetadataError where
  | noTypes
  | namelessType (entry : Json)
  | unknownKind (type kind : String)
  | invalidMember (type : String) (entry : Json)
  | incompleteProperty (entry : Json)
  | misfit (what : Misfit)

def MetadataError.message : MetadataError → String
  | .noTypes => "Metadata document must contain a 'types' list"
  | .namelessType entry => "Type entry without a name: " ++ entry.literal
  | .unknownKind type kind => "Type " ++ type ++ " has unknown kind '" ++ kind ++ "'"
  | .invalidMember type entry => "Invalid enum member in " ++ type ++ ": " ++ entry.literal
  | .incompleteProperty entry => "Property entry needs 'name' and 'type': " ++ entry.literal
  | .misfit what => what.message

/-- Does the entry have the key, or the list or text the word? -/
def mentions (key : String) : Json → Except Misfit Bool
  | .obj fields => .ok (Fields.get? fields key).isSome
  | .arr items => .ok (items.any (· == .str key))
  | .str s => .ok (Text.contains key s)
  | v => .error (.notContainer v.kindName)

/-- The value of a key, null if it is missing. -/
def valueOf (fields : List (String × Json)) (key : String) : Json :=
  (Fields.get? fields key).getD .null

def flagOf (fields : List (String × Json)) (key : String) : Bool := (valueOf fields key).isSet

def orMisfit {α : Type} (r : Except Misfit α) : Except MetadataError α := r.mapError .misfit

/-- Reads the fields of a property that has a name and a type. -/
def RawProperty.ofFields (fields : List (String × Json)) : Except MetadataError RawProperty := do
  let genericArguments ← orMisfit (valueOf fields "generic_arguments").itemsIfSet?
  return {
    name := (valueOf fields "name").text
    typeName := (valueOf fields "type").text
    declaredOn := valueOf fields "declared_on"
    isArray := flagOf fields "is_array"
    isGenericList := flagOf fields "is_generic_list"
    isEnum := flagOf fields "is_enum"
    isNumeric := flagOf fields "is_numeric"
    isClass := flagOf fields "is_class"
    isInterface := flagOf fields "is_interface"
    isNullable := flagOf fields "is_nullable"
    elementType := valueOf fields "element_type"
    elementIsInterface := flagOf fields "element_is_interface"
    genericArguments
    isNavigation := flagOf fields "is_navigation" }

def RawProperty.ofJson (entry : Json) : Except MetadataError RawProperty := do
  let named ← orMisfit (mentions "name" entry)
  let typed ← if named then orMisfit (mentions "type" entry) else .ok false
  if !typed then .error (.incompleteProperty entry)
  else match entry with
    | .obj fields => RawProperty.ofFields fields
    | other => .error (.misfit other.indexMisfit)

/-- The whole number that a value stands for; `none` if it stands for none. -/
def wholeNumber? : Json → Except Misfit (Option Int)
  | .bool b => .ok (some (if b then 1 else 0))
  | .int n => .ok (some n)
  | .real (.infinite _) => .error .overflow
  | .real x => .ok x.truncate?
  | .str s => .ok (Decimal.readInteger s).toOption
  | _ => .ok none

/-- A member; one without a value has its place in the list as value. -/
def EnumMember.ofJson (type : String) (place : Nat) (entry : Json) :
    Except MetadataError EnumMember := do
  let fields ← orMisfit entry.fields?
  let value := (Fields.get? fields "value").getD (.int place)
  match Fields.get? fields "name" with
  | none => .error (.invalidMember type entry)
  | some name =>
    match ← orMisfit (wholeNumber? value) with
    | none => .error (.invalidMember type entry)
    | some n => return ⟨name.text, n⟩

/-- The members of a list, counted from a place. -/
def membersFrom (type : String) (place : Nat) : List Json → Except MetadataError (List EnumMember)
  | [] => .ok []
  | entry :: rest => do
    let member ← EnumMember.ofJson type place entry
    return member :: (← membersFrom type (place + 1) rest)

/-- Reads the parts of a list in order, up to the first that is refused. -/
def readAll {ε α : Type} (read : Json → Except ε α) : List Json → Except ε (List α)
  | [] => .ok []
  | entry :: rest => do
    let a ← read entry
    return a :: (← readAll read rest)

def RawType.ofJson (entry : Json) : Except MetadataError RawType := do
  let fields ← orMisfit entry.fields?
  let name := valueOf fields "name"
  if !name.isSet then .error (.namelessType entry)
  else
    let kindName := Text.lower ((Fields.get? fields "kind").getD (.str "entity")).text
    match RawKind.ofName? kindName with
    | none => .error (.unknownKind name.text kindName)
    | some kind =>
      let members ← membersFrom name.text 0 (← orMisfit (valueOf fields "members").itemsIfSet?)
      let namespace_ := valueOf fields "namespace"
      let base := valueOf fields "base"
      let properties ←
        readAll RawProperty.ofJson (← orMisfit (valueOf fields "properties").itemsIfSet?)
      return {
        name := name.text
        kind
        namespace_ := if namespace_.isSet then namespace_.text else ""
        base := if base.isSet then base else .null
        properties
        members
        description := valueOf fields "description" }

/-- The types of a document. -/
def typesOf (document : Json) : Except MetadataError (List RawType) :=
  match document.field? "types" with
  | some (.arr entries) => readAll RawType.ofJson entries
  | _ => .error .noTypes

end Scaffold.Metadata
