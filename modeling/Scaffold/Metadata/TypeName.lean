import Scaffold.Text.Search

/-!
Names of types as metadata writes them. A clean name carries no mark for null, no framework prefix and
no framework spelling of a keyword.
-/

namespace Scaffold.Metadata

/-- Framework names and the keywords for them. -/
def keywordNames : List (String × String) := [
  ("String", "string"), ("Boolean", "bool"), ("Char", "char"), ("Byte", "byte"),
  ("SByte", "sbyte"), ("Int16", "short"), ("UInt16", "ushort"), ("Int32", "int"),
  ("UInt32", "uint"), ("Int64", "long"), ("UInt64", "ulong"), ("Single", "float"),
  ("Double", "double"), ("Decimal", "decimal"), ("Object", "object")]

/-- A clean name and whether the written one was marked as nullable. -/
structure TypeName where
  name : String
  nullable : Bool
  deriving DecidableEq, Repr

/-- What stands inside the brackets of a nullable type. -/
def insideNullable? (cs : List Char) : Option (List Char) :=
  match Text.dropPrefix? "Nullable<".toList cs with
  | none => none
  | some rest => Text.dropSuffix? [ '>' ] rest

/-- One pass over a written name: space, brackets for null, a question mark, the framework prefix and
the framework spelling, in this order. -/
def TypeName.ofText (written : String) : TypeName :=
  let cs := Text.trimChars Text.isBlank written.toList
  let (cs, bracketed) := match insideNullable? cs with
    | some inner => (Text.trimChars Text.isBlank inner, true)
    | none => (cs, false)
  let (cs, marked) := match Text.dropSuffix? [ '?' ] cs with
    | some before => (before, true)
    | none => (cs, bracketed)
  let cs := (Text.dropPrefix? "System.".toList cs).getD cs
  let name := String.ofList cs
  ⟨(keywordNames.lookup name).getD name, marked⟩

/-- The clean name alone. -/
def cleanName (written : String) : String := (TypeName.ofText written).name

def dateTimeNames : List String := ["DateTime", "DateOnly", "DateTimeOffset"]

def guidNames : List String := ["Guid"]

def numericNames : List String :=
  ["byte", "sbyte", "short", "ushort", "int", "uint", "long", "ulong", "float", "double", "decimal"]

def primitiveNames : List String :=
  ["string", "bool", "char"] ++ numericNames ++ ["TimeSpan", "object"]

end Scaffold.Metadata
