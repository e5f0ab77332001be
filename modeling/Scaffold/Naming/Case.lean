import Scaffold.Text.Case
import Scaffold.Text.Search

/-!
Cases of a name, and names as parts of paths and of dotted identifiers. A conversion between cases goes through
words joined by low lines; a naming case for members changes the first character only, so that acronyms inside a
name keep their spelling. In a file item a capital becomes a hyphen and its small letter, and both slashes divide
directories.
-/

namespace Scaffold.Naming

/-- Puts a low line between a small letter or digit and the capital after it. -/
def divideWords : List Char → List Char
  | a :: b :: rest =>
    if (a.isLower || a.isDigit) && b.isUpper then a :: '_' :: divideWords (b :: rest)
    else a :: divideWords (b :: rest)
  | cs => cs

/-- Leaves one of several low lines in a row. -/
def joinLowLines : List Char → List Char
  | '_' :: '_' :: rest => joinLowLines ('_' :: rest)
  | c :: rest => c :: joinLowLines rest
  | [] => []

/-- Words in small letters, joined by low lines. -/
def snakeCase (name : String) : String :=
  let cs := name.toList.map fun c => if c == '-' then '_' else c
  .ofList (Text.trimChars (· == '_') (joinLowLines (Text.lowerChars (divideWords cs))))

/-- Words run together, each but the first with a capital. A name without words stays as it is. -/
def camelCase (name : String) : String :=
  match Text.splitOn '_' (snakeCase name) with
  | [] => name
  | first :: rest =>
    if first.isEmpty then name else Text.lower first ++ String.join (rest.map Text.capitalize)

/-- Words run together, each with a capital. -/
def pascalCase (name : String) : String :=
  String.join (((Text.splitOn '_' (snakeCase name)).filter (!·.isEmpty)).map Text.capitalize)

/-- The first character in lower case. -/
def lowerFirst (name : String) : String :=
  match name.toList with
  | [] => ""
  | c :: rest => .ofList (Text.lowerChars [c] ++ rest)

/-- The first character in upper case. -/
def upperFirst (name : String) : String :=
  match name.toList with
  | [] => ""
  | c :: rest => .ofList (Text.upperChars [c] ++ rest)

/-- How generated members are named. -/
inductive NamingCase where
  | camel
  | pascal
  | unchanged
  deriving DecidableEq, Repr

def NamingCase.all : List NamingCase := [.camel, .pascal, .unchanged]

def NamingCase.name : NamingCase → String
  | .camel => "camel"
  | .pascal => "pascal"
  | .unchanged => "original"

def NamingCase.ofName? (name : String) : Option NamingCase :=
  NamingCase.all.find? fun case => case.name = name

def NamingCase.apply : NamingCase → String → String
  | .camel, name => lowerFirst name
  | .pascal, name => upperFirst name
  | .unchanged, name => name

/-- Drops the `I` that marks the name of an interface. -/
def withoutInterfaceMark (name : String) : String :=
  match name.toList with
  | 'I' :: c :: rest => if Text.isUpper c then .ofList (c :: rest) else name
  | _ => name

/-- The characters of a file item after the first; `last` is the last character written. -/
def fileItemAfter (last : List Char) : List Char → List Char
  | [] => []
  | c :: rest =>
    if c == '\\' || c == '/' then '/' :: fileItemAfter ['/'] rest
    else
      let form := Text.lowerForm c
      if Text.isUpper c then
        (if last == ['/'] then form else '-' :: form) ++ fileItemAfter form rest
      else form ++ fileItemAfter form rest

def fileItemChars : List Char → List Char
  | [] => []
  | c :: rest => Text.lowerForm c ++ fileItemAfter (Text.lowerForm c) rest

/-- A name or relative path in the convention for file items. -/
def fileItem (name : String) : String := .ofList (fileItemChars name.toList)

/-- The non-empty parts of a dotted namespace. -/
def segments (namespace_ : String) : List String :=
  (Text.splitOn '.' namespace_).filter (!·.isEmpty)

/-- A dotted namespace as a path of file items. -/
def subPath (namespace_ : String) : String := fileItem ("/".intercalate (segments namespace_))

/-- Joins the parts that hold more than slashes. -/
def joinPath (parts : List String) : String :=
  "/".intercalate ((parts.map (Text.stripChar '/')).filter (!·.isEmpty))

/-- Joins the names in the parts, divided by dots or slashes, by dots. -/
def moduleIdentifier (parts : List String) : String :=
  ".".intercalate <|
    (parts.flatMap (Text.splitWhere fun c => c == '.' || c == '/' || c == '\\')).filter
      (!·.isEmpty)

end Scaffold.Naming
