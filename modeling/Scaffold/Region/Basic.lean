import Scaffold.Artifact
import Scaffold.Config.Basic
import Scaffold.Diagnostic
import Scaffold.Import
import Scaffold.Text.Search

/-!
Custom regions: the lines between two labels that are written by hand. A label is found on the line that
is left of it when white space is taken off both ends; the first pair of labels of each kind counts.
-/

namespace Scaffold

inductive RegionKind where
  | imports
  | code
  deriving DecidableEq, Repr

def RegionKind.name : RegionKind → String
  | .imports => "import"
  | .code => "code"

/-- A region of a file: its labels and the lines between them that are not blank. -/
structure Region where
  beginLabel : Json
  endLabel : Json
  kind : RegionKind
  lines : List String

namespace Region

def isEmpty (r : Region) : Bool := r.lines.isEmpty

/-- The lines of the region with its labels. -/
def render (r : Region) : List Json := r.beginLabel :: (r.lines.map .str ++ [r.endLabel])

/-- The region as fields. -/
def toJson (r : Region) : Json := .obj [
  ("begin", r.beginLabel), ("end", r.endLabel), ("lines", .arr (r.lines.map .str)),
  ("is_empty", .bool r.isEmpty), ("render", .arr r.render)]

end Region

def RegionLabels.beginOf (l : RegionLabels) : RegionKind → Json
  | .imports => l.importBegin
  | .code => l.codeBegin

def RegionLabels.endOf (l : RegionLabels) : RegionKind → Json
  | .imports => l.importEnd
  | .code => l.codeEnd

/-- The region of a kind without lines. -/
def RegionLabels.emptyRegion (l : RegionLabels) (kind : RegionKind) : Region :=
  ⟨l.beginOf kind, l.endOf kind, kind, []⟩

namespace Region

/-- Does a line hold a label? None holds a label that is no text. -/
def holdsLabel (label : Json) (line : String) : Bool :=
  match label with
  | .str text => Text.strip line = text
  | _ => false

/-- What lies before and after the first line that holds a label. -/
def splitAtLabel (label : Json) : List String → Option (List String × List String)
  | [] => none
  | line :: rest =>
    if holdsLabel label line then some ([], rest)
    else (splitAtLabel label rest).map fun (before, after) => (line :: before, after)

/-- What a search for a pair of labels finds. -/
inductive Search where
  | absent
  | unclosed
  | found (inner : List String)
  deriving DecidableEq, Repr

/-- Looks for the first begin label and the first end label after it. -/
def search (beginLabel endLabel : Json) (lines : List String) : Search :=
  match splitAtLabel beginLabel lines with
  | none => .absent
  | some (_, after) =>
    match splitAtLabel endLabel after with
    | none => .unclosed
    | some (inner, _) => .found inner

/-- The regions of a file. -/
structure Regions where
  imports : Option Region
  code : Option Region

namespace Regions

def none : Regions := ⟨.none, .none⟩

def of (r : Regions) : RegionKind → Option Region
  | .imports => r.imports
  | .code => r.code

/-- The regions by the names of their kinds. -/
def toJson (r : Regions) : Json :=
  .obj <| [RegionKind.imports, .code].filterMap fun kind =>
    (r.of kind).map fun region => (kind.name, region.toJson)

def count (r : Regions) : Nat := r.imports.toList.length + r.code.toList.length

end Regions

/-- The region of a kind, if its labels are there in order. -/
def ofKind? (l : RegionLabels) (kind : RegionKind) (lines : List String) : Option Region :=
  match search (l.beginOf kind) (l.endOf kind) lines with
  | .found inner =>
    some ⟨l.beginOf kind, l.endOf kind, kind, inner.filter fun line => !Text.isBlankLine line⟩
  | _ => none

/-- The warning that a region has no end. -/
def unclosedNotes (l : RegionLabels) (kind : RegionKind) (lines : List String) (source : String) :
    List Note :=
  match search (l.beginOf kind) (l.endOf kind) lines with
  | .unclosed =>
    [.warn source ("'" ++ (l.beginOf kind).text ++ "' without '" ++ (l.endOf kind).text ++
      "'; region ignored")]
  | _ => []

/-- The regions in the lines of a file. -/
def parse (l : RegionLabels) (lines : List String) : Regions :=
  ⟨ofKind? l .imports lines, ofKind? l .code lines⟩

/-- The warnings about the lines of a file. -/
def parseNotes (l : RegionLabels) (lines : List String) (source : String) : List Note :=
  unclosedNotes l .imports lines source ++ unclosedNotes l .code lines source

/-- Puts lines before the last line, if there is one. -/
def beforeLast (lines : List Json) : List Json → List Json
  | [] => lines
  | [last] => lines ++ [last]
  | line :: rest => line :: beforeLast lines rest

/-- The custom imports that are not generated anyway. -/
def withoutGenerated (generated : List String) (r : Region) : Region :=
  { r with lines := r.lines.filter fun line =>
      !(generated.map Text.strip).contains (Text.strip line) }

/-- The lines of an artifact with the regions put in: the code region before the last line, then on top
the import region, and above it the generated imports. -/
def spliced (l : RegionLabels) (a : Artifact) (prior : Regions) : List Json :=
  let code := prior.code.getD (l.emptyRegion .code)
  let custom := prior.imports.getD (l.emptyRegion .imports)
  let imports := distinctLines a.imports
  let body := beforeLast code.render a.source
  let block := if a.hasCustomImports then (withoutGenerated imports custom).render else []
  imports.map .str ++ block ++ body

/-- Merges the regions of the file that was there before into an artifact. -/
def mergeWith (l : RegionLabels) (a : Artifact) (state : RegionState) (prior : Regions) : Artifact :=
  if a.hasRegions then
    { a with
      source := spliced l a prior
      state := some (if state = .noPriorFile then state else .merged) }
  else { a with source := withImports a.imports a.source }

/-- The warning that custom imports have no place in an artifact. -/
def mergeNotes (a : Artifact) (prior : Regions) : List Note :=
  match prior.imports with
  | some r =>
    if a.hasRegions && !a.hasCustomImports && !r.isEmpty then
      [.warn a.subPath "custom imports found but not supported here; dropped"]
    else []
  | none => []

end Region

end Scaffold
