import Scaffold.Naming.Given
import Scaffold.Tree.Basic

/-!
The packages that the program stands on: one for the plurals of words, and one that renders templates.
What they do is a parameter. The template package reads the tree and may even change it, and an engine may
keep what it likes from one request to the next, so an answer depends on all that was asked before.
-/

namespace Scaffold

namespace Template

/-- What a filter is applied to: a value, or a thing that the template package knows, by its text. -/
inductive Value where
  | given (v : Json)
  | builtin (text : String)

/-- Filters by name. -/
abbrev Filters := List (String × (Value → Except Misfit Value))

/-- A filter of values, with its refusal of all else. -/
def valueFilter (f : Json → Except Misfit Json) (refusal : Misfit) :
    Value → Except Misfit Value
  | .given v => (f v).map .given
  | .builtin _ => .error refusal

/-- A naming rule as a filter. -/
def namingFilter (f : String → String) : Value → Except Misfit Value :=
  valueFilter (Naming.ofText "replace" f) (.lacks "type" "replace")

/-- The variables of a rendering. -/
abbrev Context := List (String × Json)

structure Engine where
  /-- A directory of templates, if it was there when the engine was made. -/
  directory : Option Path
  memory : List (String × String)
  deriving DecidableEq

/-- What an engine is asked for. -/
structure Request where
  /-- The generator that the engine was made for. -/
  user : String
  engine : Engine
  template : String
  context : Context

/-- A request with the tree that it was made in. -/
structure Use where
  tree : Tree
  request : Request

/-- Why there is no text. -/
inductive Problem where
  /-- An error of the template package, by its message. -/
  | refused (reason : String)
  /-- Any other error: its kind, its message, and both as they are written in a report. -/
  | raised (kind message details : String)

/-- What comes of a request: a text or a problem, and the tree as the rendering leaves it. -/
structure Answer where
  tree : Tree
  text : Except Problem String

end Template

structure Packages where
  /-- The plural of a word. -/
  plural : String → String
  /-- Answers a request in a tree, with filters of the program, after all that was asked before; the
  latest request comes first. -/
  render : Template.Filters → List Template.Use → Tree → Template.Request → Template.Answer

namespace Packages

open Template

/-- The filters that the program brings along. -/
def filters (p : Packages) : Filters := [
  ("snake_case", namingFilter Naming.snakeCase),
  ("camel_case", namingFilter Naming.camelCase),
  ("pascal_case", namingFilter Naming.pascalCase),
  ("lower_first",
    valueFilter (Naming.ofFirst "lower" Naming.lowerFirst) (.notSubscriptable "type")),
  ("file_item", valueFilter (fun v => (Naming.fileItemOf v).map .str) (.notIterable "type")),
  ("plural", valueFilter (Naming.pluralOf p.plural) (.lacks "type" "lower"))]

/-- The answer to a request of the program. -/
def answer (p : Packages) (uses : List Use) (t : Tree) (r : Request) : Answer :=
  p.render p.filters uses t r

end Packages

end Scaffold
