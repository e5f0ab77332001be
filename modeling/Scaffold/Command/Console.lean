import Scaffold.Json.Basic
import Scaffold.Text.Search

/-!
What a command shows: marked-up lines, tables and panels.
-/

namespace Scaffold.Command

inductive Item where
  | line (text : String)
  | table (title : String) (columns : List String) (rows : List (List String))
  | panel (title text : String)
  deriving DecidableEq, Repr

namespace Item

def blank : Item := .line ""

/-- A line that tells of a failure. -/
def failure (what text : String) : Item := .line ("[red]✗ " ++ what ++ ":[/red] " ++ text)

def success (text : String) : Item := .line ("[green]✓[/green] " ++ text)

def bullet (text : String) : Item := .line ("  • " ++ text)

/-- A fact with its label, one of the lines of a panel. -/
def fact (label text : String) : String := "[bold]" ++ label ++ ":[/bold] " ++ text

/-- A name of small letters and low lines as words with capitals. -/
def heading (name : String) : String :=
  " ".intercalate ((Text.splitOn '_' name).map String.capitalize)

/-- The item as plain text, the cells of a table between bars. -/
def text : Item → String
  | .line text => text
  | .table title columns rows => "\n".intercalate (title :: (columns :: rows).map (" | ".intercalate ·))
  | .panel title text => title ++ "\n" ++ text

/-- The item as a value. -/
def toJson : Item → Json
  | .line text => .str text
  | .table title columns rows =>
    .obj [("table", .str title), ("columns", .arr (columns.map .str)),
      ("rows", .arr (rows.map fun row => .arr (row.map .str)))]
  | .panel title text => .obj [("panel", .str title), ("text", .str text)]

end Item

end Scaffold.Command
