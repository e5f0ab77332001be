import Scaffold.Config.Options
import Scaffold.Json.Printer
import Scaffold.Naming.Case
import Scaffold.Text.Search

/-!
What is wrong with a configuration though a run can start with it. An option of a kind that a check cannot
look at ends the check.
-/

namespace Scaffold.Config

def reservedWords : List String := [
  "abstract", "as", "base", "bool", "break", "byte", "case", "catch", "char", "checked", "class",
  "const", "continue", "decimal", "default", "delegate", "do", "double", "else", "enum", "event",
  "explicit", "extern", "false", "finally", "fixed", "float", "for", "foreach", "goto", "if",
  "implicit", "in", "int", "interface", "internal", "is", "lock", "long", "namespace", "new", "null",
  "object", "operator", "out", "override", "params", "private", "protected", "public", "readonly",
  "ref", "return", "sbyte", "sealed", "short", "sizeof", "stackalloc", "static", "string", "struct",
  "switch", "this", "throw", "true", "try", "typeof", "uint", "ulong", "unchecked", "unsafe",
  "ushort", "using", "virtual", "void", "volatile", "while"]

/-- An identifier of ASCII letters, digits and low lines; one line end may follow it. -/
def isIdentifier (s : String) : Bool :=
  let cs := (Text.dropSuffix? ['\n'] s.toList).getD s.toList
  match cs with
  | [] => false
  | c :: rest => (c.isAlpha || c == '_') && rest.all fun d => d.isAlphanum || d == '_'

/-- Dotted identifiers, none of them reserved. -/
def isNamespace (s : String) : Bool :=
  (Text.splitOn '.' s).all fun part => isIdentifier part && !reservedWords.contains part

/-- Does the value name a case? Lists and objects cannot even be compared. -/
def namesCase : Json → Except Misfit Bool
  | .str s => .ok (Naming.NamingCase.ofName? s).isSome
  | .arr _ => .error (.unhashable "list")
  | .obj _ => .error (.unhashable "dict")
  | _ => .ok false

/-- Is a count of workers below one? -/
def belowOne : Json → Except Misfit Bool
  | .bool b => .ok !b
  | .int n => .ok (n < 1)
  | .real x => .ok x.belowOne
  | v => .error (.notOrdered "<" v.kindName "int")

/-- Is a label empty or not trimmed? -/
def isUntidy (label : String) : Bool := label ≠ Text.strip label || label.isEmpty

/-- Is one of the labels untidy? Those after it are not looked at. -/
def someUntidy : List Json → Except Misfit Bool
  | [] => .ok false
  | v :: rest => do
    let label ← v.asText? "strip"
    if isUntidy label then return true else someUntidy rest

def isContainer : Json → Bool
  | .arr _ | .obj _ => true
  | _ => false

def warningIf (condition : Bool) (message : String) : List String :=
  if condition then [message] else []

/-- What is wrong with the options that every target uses. -/
def warnings (c : Config) : Except Misfit (List String) := do
  let cased ← namesCase c.propertyCase
  let tooFew ← belowOne c.maxWorkers
  match c.labels.all.find? isContainer with
  | some v => .error (.unhashable v.kindName)
  | none =>
    let untidy ← someUntidy c.labels.all
    let extension ← c.customExtension.asText? "startswith"
    return warningIf (!cased) ("Invalid property_case: " ++ c.propertyCase.text) ++
      warningIf tooFew ("max_workers must be at least 1, got " ++ c.maxWorkers.text) ++
      warningIf (Json.someEqual c.labels.all) "Custom region labels must be distinct" ++
      warningIf untidy
        "Custom region labels must not be empty or carry surrounding whitespace" ++
      warningIf (!Text.startsWith "." extension)
        ("custom_file_extension should start with '.': " ++ extension)

/-- The warning about an option that should be a namespace. -/
def namespaceWarnings (what : String) (v : Json) : Except Misfit (List String) := do
  let s ← v.asText? "split"
  return warningIf (!isNamespace s) ("Invalid C# " ++ what ++ ": " ++ s)

/-- The warnings about the bases of models. -/
def baseClassWarnings : List (String × Json) → Except Misfit (List String)
  | [] => .ok []
  | (source, .str target) :: rest => do
    return warningIf (!isIdentifier target)
      ("Invalid model base class for " ++ source ++ ": " ++ target) ++ (← baseClassWarnings rest)
  | (_, v) :: _ => .error (.notText v.kindName)

/-- What is wrong with the names of a configuration in generated C#. -/
def csharpWarnings (c : Config) : Except Misfit (List String) := do
  let root ← namespaceWarnings "root namespace" c.rootNamespace
  let folder ← namespaceWarnings "models folder" c.modelsFolder
  match c.modelBaseClasses with
  | .obj classes => return root ++ folder ++ (← baseClassWarnings classes)
  | v => .error (.lacks v.kindName "items")

/-- Is the value no alias: empty, with a space in it, or with a slash at its end? -/
def isBadAlias (v : Json) : Except Misfit Bool :=
  match v with
  | .str s => .ok (s.isEmpty || Text.contains " " s || Text.endsWith "/" s)
  | .arr items =>
    if items.isEmpty || items.any (· == .str " ") then .ok true
    else .error (.lacks "list" "endswith")
  | .obj fields =>
    if fields.isEmpty || (Fields.get? fields " ").isSome then .ok true
    else .error (.lacks "dict" "endswith")
  | v => if v.isSet then .error (.notContainer v.kindName) else .ok true

/-- The warning about the alias of an option. -/
def aliasWarnings (option : String) (v : Json) : Except Misfit (List String) := do
  return warningIf (← isBadAlias v) ("Invalid " ++ option ++ ": " ++ v.literal)

/-- What is wrong with a configuration for TypeScript. -/
def typescriptWarnings (c : Config) : Except Misfit (List String) := do
  let enums ← aliasWarnings "enum_import_alias" c.enumAlias
  let models ← aliasWarnings "model_import_alias" c.modelAlias
  let services ← aliasWarnings "service_import_alias" c.serviceAlias
  let cased ← namesCase c.propertyCase
  let sourcePath ← c.angularSourcePath.asText? "startswith"
  return enums ++ models ++ services ++
    warningIf (!cased) ("Unsupported property_case for TypeScript: " ++ c.propertyCase.text) ++
    warningIf (Text.startsWith "/" sourcePath)
      ("angular_source_path must be relative to the project: " ++ sourcePath)

end Scaffold.Config
