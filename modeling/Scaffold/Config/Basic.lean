import Scaffold.Json.Entries
import Scaffold.Path
import Scaffold.Text.Search
import Scaffold.Text.Case

/-!
The configuration of a run: where files go, how names and references are written, and which lines mark
what is generated and what is not. Most options are kept as they are given; one of the wrong kind matters
only when it is used. Some formatters go by a name; one that looks at every line refuses lines that are no texts.
-/

namespace Scaffold

/-- The lines round the two regions that are written by hand. No line is a label that is no text. -/
structure RegionLabels where
  importBegin : Json
  importEnd : Json
  codeBegin : Json
  codeEnd : Json

def RegionLabels.all (l : RegionLabels) : List Json :=
  [l.importBegin, l.importEnd, l.codeBegin, l.codeEnd]

/-- A change of a file's lines before it is written, or a value that cannot be one. -/
inductive Formatter where
  | change (f : List Json → Except Misfit (List Json))
  | value (v : Json)

namespace Formatter

/-- What a formatter of texts makes of a line. -/
def formatted (f : String → Option String) (line : Json) : Except Misfit (Option Json) :=
  (line.asText? "upper").map fun s => (f s).map .str

/-- A change of lines that looks at each, and may leave it out. -/
def eachLine (f : String → Option String) : Formatter :=
  .change fun lines => (lines.mapM (formatted f)).map (·.filterMap id)

/-- The formatter of a name. -/
def ofName? (name : String) : Option Formatter :=
  if name = "upper" then some (eachLine fun s => some (Text.upper s))
  else if name = "reverse" then some (.change fun lines => .ok lines.reverse)
  else if name = "nonblank" then some (eachLine fun s => if Text.isBlankLine s then none else some s)
  else if name = "empty" then some (.change fun _ => .ok [])
  else none

end Formatter

/-- Options that are not known: by their names, or a value that has no names. -/
inductive CustomOptions where
  | entries (e : Json.Entries)
  | value (v : Json)

namespace CustomOptions

def ofJson : Json → CustomOptions
  | .obj fields => .entries (.ofFields fields)
  | v => .value v

/-- The option of a name. -/
def get? (c : CustomOptions) (name : String) : Except Misfit (Option Json) :=
  match c with
  | .entries e => .ok (e.get? (.str name))
  | .value v => .error (.lacks v.kindName "get")

def entries? : CustomOptions → Except Misfit Json.Entries
  | .entries e => .ok e
  | .value v => Json.Entries.ofJson? v

def toJson : CustomOptions → Json
  | .entries e => .obj e.shown
  | .value v => v

end CustomOptions

structure Config where
  outputPath : Path
  /-- The folder of each unit. -/
  unitFolders : Json
  rootNamespace : Json
  modelsFolder : Json
  modelBaseClasses : Json
  angularSourcePath : Json
  angularBaseClasses : Json
  enumAlias : Json
  modelAlias : Json
  serviceAlias : Json
  /-- It names a case once a name is written in it. -/
  propertyCase : Json
  versionProperties : List Json
  labels : RegionLabels
  customExtension : Json
  /-- In small letters. -/
  customizableExtensions : List String
  writeHeader : Json
  generatedLabel : Json
  addComments : Json
  formatter : Option Formatter
  /-- It is compared with one once a run starts. -/
  maxWorkers : Json
  custom : CustomOptions

namespace Config

/-- The configuration with a formatter, if there is one. -/
def formattedBy (c : Config) (formatter : Option Formatter) : Config :=
  { c with formatter := formatter.or c.formatter }

/-- The folder of a unit; an unknown unit has its name in small letters. -/
def folderOf (c : Config) (unit : String) : Except Misfit Json :=
  match c.unitFolders with
  | .obj folders => .ok ((Fields.get? folders unit).getD (.str (Text.lower unit)))
  | v => .error (.lacks v.kindName "get")

/-- The folder of a unit below the output path. -/
def projectPath (c : Config) (unit : String) : Except Misfit Path := do
  match ← c.folderOf unit with
  | .str folder => return c.outputPath.join (Path.ofText folder)
  | v => .error (.notJoined v.kindName)

/-- Are properties of this name versions? -/
def isVersion (c : Config) (name : String) : Bool := c.versionProperties.any (·.equals (.str name))

end Config

end Scaffold
