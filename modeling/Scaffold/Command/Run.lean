import Scaffold.Command.Upkeep

/-!
A run of the program: reading its arguments, and carrying the task out with a log file, if one is named. The
log file is opened before the task starts.
-/

namespace Scaffold.Command

/-- How a run ends. -/
inductive Exit where
  | code (n : Nat)
  /-- The usage or the version was asked for. -/
  | informed
  | misused (program : String) (why : Misuse)
  /-- A fault that no report covers. -/
  | fault (e : Failure)

/-- What is printed besides what is shown. -/
inductive Printed where
  | nothing
  | usage
  | version
  deriving DecidableEq, Repr

structure Report where
  tree : Tree
  items : List Item
  printed : Printed
  exit : Exit

def versionLine : String := programName ++ " " ++ programVersion

def usageLine : String := "usage: " ++ programName ++ " [options] command [arguments]"

/-- The line that tells of a misuse. -/
def misuseLine (program : String) (why : Misuse) : String := program ++ ": error: " ++ why.message

/-- The last line of what tells of a misuse, whose words may hold line ends. -/
def lastLine (program : String) (why : Misuse) : String :=
  ((Text.splitLines (misuseLine program why ++ "\n")).getLast?).getD ""

def act (s : Surroundings) (verbose : Bool) : Task → Acting Shown
  | .generate o => generate s verbose o
  | .listTargets info => .ok (listTargets s.registry info)
  | .saveCustom o => saveCustom s o
  | .clean o => clean s o

/-- The record of a command that is ended by a report. -/
def failureNote : Note := .record ⟨.debug, .command, "Command failed"⟩

/-- What is shown of a failure, and how it ends the run. -/
def conclude : Failure → List Note × List Item × Exit
  | e@(.command _) => ([], [.failure "Error" (e.report?.getD "")], .code 1)
  | e =>
    match e.report? with
    | some text => ([failureNote], [.failure "Error" text], .code 1)
    | none => ([], [], .fault e)

/-- The log file of an invocation. -/
def journalOf (i : Invocation) (time : String) : Option Journal :=
  i.logFile.map fun name =>
    ⟨(Path.ofText name).collapsed, if i.verbose then .debug else .info, time⟩

/-- Carries out what the arguments ask for. -/
def carryOut (s : Surroundings) (i : Invocation) (d : Desk) : Report :=
  match i.task with
  | none => ⟨d.tree, [], .usage, .code 1⟩
  | some task =>
    let ended := act s i.verbose task d
    match ended.result with
    | .ok shown => ⟨ended.state.tree, shown.items, .nothing, .code shown.code⟩
    | .error e =>
      let (notes, items, exit) := conclude e
      ⟨(ended.state.enter notes).tree, items, .nothing, exit⟩

/-- Runs the program with some arguments. -/
def run (s : Surroundings) (time : String) (t : Tree) (args : List String) : Report :=
  match Invocation.ofArguments args with
  | .error .help => ⟨t, [], .usage, .informed⟩
  | .error .version => ⟨t, [], .version, .informed⟩
  | .error (.misuse program why) => ⟨t, [], .nothing, .misused program why⟩
  | .ok i =>
    let journal := journalOf i time
    match (journal.map (Journal.openIn t ·.path)).getD (.ok t) with
    | .error e => ⟨t, [], .nothing, .fault (.file e)⟩
    | .ok tree => carryOut s i ⟨tree, journal⟩

end Scaffold.Command
