import Scaffold.Command.Run
import Scaffold.Template.Placeholder
import Scaffold.Tree.Listing

/-!
The program. The tree to work on comes as a listing on standard input. What a run shows goes to standard
output, and after it the listing of the tree, if the run has changed it. There is no network.
-/

namespace Scaffold.Program

/-- The text of a stream up to its end. -/
partial def readText (input : IO.FS.Stream) (before : String) : IO String := do
  let line ← input.getLine
  if line.isEmpty then return before else readText input (before ++ line)

/-- The working directory, whose files are listed. -/
def home : Location := ["home", "work"]

/-- How many lists and objects may stand inside one another in what is read: so many fit on the stack. -/
def depth : Nat := 980

/-- The tree of a listing; a text without one has no files. -/
def treeOf (listing : String) : Except String Tree :=
  match Json.parse depth listing with
  | .ok (.obj fields) => (Tree.ofListing home fields).mapError (·.message)
  | .ok _ => .error "The listing of the tree is not an object"
  | .error e => if Text.isBlankLine listing then .ok (.startingIn home) else .error e.message

def surroundings : Command.Surroundings :=
  ⟨.builtin, .builtin, fun _ => .failed .connection "no network", depth⟩

/-- The lines that a report prints besides what it shows. -/
def printed : Command.Printed → List String
  | .nothing => []
  | .usage => [Command.usageLine]
  | .version => [Command.versionLine]

/-- The code that a run ends with, and the line that goes with it. -/
def conclusion : Command.Exit → UInt32 × Option String
  | .code n => (n.toUInt32, none)
  | .informed => (0, none)
  | .misused program why => (2, some (Command.misuseLine program why))
  | .fault _ => (1, some "The run was ended by a fault")

/-- Runs the program on a tree. -/
def run (args : List String) (time : String) (t : Tree) : IO UInt32 := do
  let report := Command.run surroundings time t args
  for line in printed report.printed do IO.println line
  for item in report.items do IO.println item.text
  if report.tree ≠ t then
    IO.println (Json.obj (report.tree.listing (Path.ofText "."))).compact
  let (code, line) := conclusion report.exit
  if let some line := line then IO.eprintln line
  return code

end Scaffold.Program

def main (args : List String) : IO UInt32 := do
  let listing ← Scaffold.Program.readText (← IO.getStdin) ""
  match Scaffold.Program.treeOf listing with
  | .error message =>
    IO.eprintln message
    return 2
  | .ok t => Scaffold.Program.run args (toString (← IO.monoMsNow)) t
