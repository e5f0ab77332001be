import Scaffold.Artifact

/-!
The targets: what is generated for each, into which unit, and in which order.
-/

namespace Scaffold

inductive Target where
  | csharp
  | typescript
  deriving DecidableEq, Repr

namespace Target

def all : List Target := [.csharp, .typescript]

def name : Target → String
  | .csharp => "csharp"
  | .typescript => "typescript"

/-- The name with a capital. -/
def title : Target → String
  | .csharp => "Csharp"
  | .typescript => "Typescript"

def ofName? (name : String) : Option Target := all.find? fun t => t.name = name

def extension : Target → String
  | .csharp => ".cs"
  | .typescript => ".ts"

def unit : Target → UnitKind
  | .csharp => .webApi
  | .typescript => .angularApp

/-- The items of a target in the order of their generation. -/
def items : Target → List ItemKind
  | .csharp => [.model, .modelInheritance]
  | .typescript => [.typeScriptEnum, .typeScriptModel, .typeScriptService]

/-- The name under which a target's generator is described. -/
def generatorName : Target → String
  | .csharp => "CSharpGenerator"
  | .typescript => "TypeScriptGenerator"

/-- The module under which a target's generator is described. -/
def moduleName : Target → String
  | .csharp => "typegen.codegen.languages.csharp.generator"
  | .typescript => "typegen.codegen.languages.typescript.generator"

end Target

end Scaffold
