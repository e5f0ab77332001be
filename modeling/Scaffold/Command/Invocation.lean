import Scaffold.Command.Options

/-!
What the program can be told to do, and the options of each command.
-/

namespace Scaffold.Command

def programName : String := "typegen"

def programVersion : String := "0.1.0"

structure GenerateOptions where
  metadata : String := ""
  settings : Option String := none
  config : Option String := none
  /-- In the order given; none stands for all. -/
  targets : List String := []
  output : Option String := none
  workers : Option Int := none
  noHeader : Bool := false
  noComments : Bool := false
  dryRun : Bool := false
  deriving DecidableEq, Repr

structure SaveOptions where
  root : String := ""
  config : Option String := none
  deriving DecidableEq, Repr

structure CleanOptions where
  root : String := ""
  config : Option String := none
  keepDirectories : Bool := false
  deriving DecidableEq, Repr

inductive Task where
  | generate (o : GenerateOptions)
  | listTargets (info : Option String)
  | saveCustom (o : SaveOptions)
  | clean (o : CleanOptions)
  deriving DecidableEq, Repr

/-- What the arguments ask for; without a task the usage is shown. -/
structure Invocation where
  verbose : Bool := false
  logFile : Option String := none
  task : Option Task := none
  deriving DecidableEq, Repr

def helpSwitch {α : Type} : Switch α := ⟨["-h", "--help"], .help⟩

def generateGrammar : Grammar GenerateOptions where
  program := programName ++ " generate"
  switches := [
    helpSwitch,
    ⟨["--settings", "-s"], .text fun v o => { o with settings := some v }⟩,
    ⟨["--config", "-c"], .text fun v o => { o with config := some v }⟩,
    ⟨["--target", "-t"], .text fun v o => { o with targets := o.targets ++ [v] }⟩,
    ⟨["--output", "-o"], .text fun v o => { o with output := some v }⟩,
    ⟨["--workers", "-w"], .number fun n o => { o with workers := some n }⟩,
    ⟨["--no-header"], .flag fun o => { o with noHeader := true }⟩,
    ⟨["--no-comments"], .flag fun o => { o with noComments := true }⟩,
    ⟨["--dry-run"], .flag fun o => { o with dryRun := true }⟩]
  operand := .one "metadata" fun v o => { o with metadata := v }

def listGrammar : Grammar (Option String) where
  program := programName ++ " list-targets"
  switches := [helpSwitch, ⟨["--info"], .text fun v _ => some v⟩]
  operand := .none

def saveGrammar : Grammar SaveOptions where
  program := programName ++ " save-custom"
  switches := [
    helpSwitch,
    ⟨["--config", "-c"], .text fun v o => { o with config := some v }⟩]
  operand := .one "root" fun v o => { o with root := v }

def cleanGrammar : Grammar CleanOptions where
  program := programName ++ " clean"
  switches := [
    helpSwitch,
    ⟨["--config", "-c"], .text fun v o => { o with config := some v }⟩,
    ⟨["--keep-dirs"], .flag fun o => { o with keepDirectories := true }⟩]
  operand := .one "root" fun v o => { o with root := v }

def commandNames : List String := ["generate", "list-targets", "save-custom", "clean"]

/-- Reads a task with a grammar. -/
def readTask {α : Type} (g : Grammar α) (start : α) (make : α → Task) (args : List String) :
    Except Stop (Task × List String) := do
  let (values, extras) ← read g start args
  return (make values, extras)

/-- Reads the task that the first argument names. -/
def taskOf : List String → Except Stop (Task × List String)
  | "generate" :: args => readTask generateGrammar {} .generate args
  | "list-targets" :: args => readTask listGrammar none .listTargets args
  | "save-custom" :: args => readTask saveGrammar {} .saveCustom args
  | "clean" :: args => readTask cleanGrammar {} .clean args
  | args =>
    .error (.misuse programName (.invalidChoice "command" (args.headD "") commandNames))

def mainGrammar : Grammar Invocation where
  program := programName
  switches := [
    helpSwitch,
    ⟨["--version"], .version⟩,
    ⟨["-v", "--verbose"], .flag fun i => { i with verbose := true }⟩,
    ⟨["--log-file"], .text fun v i => { i with logFile := some v }⟩]
  operand := .rest fun args i => do
    let (task, extras) ← taskOf args
    return ({ i with task := some task }, extras)

/-- What the arguments of the program ask for. -/
def Invocation.ofArguments (args : List String) : Except Stop Invocation :=
  readAll mainGrammar {} args

end Scaffold.Command
