import Scaffold.Text.Lines

/-!
Records of what happened, each with its level and the part of the program that made it.
-/

namespace Scaffold.Log

inductive Level where
  | debug
  | info
  | warning
  | error
  deriving DecidableEq, Repr

def Level.rank : Level → Nat
  | .debug => 10
  | .info => 20
  | .warning => 30
  | .error => 40

def Level.name : Level → String
  | .debug => "DEBUG"
  | .info => "INFO"
  | .warning => "WARNING"
  | .error => "ERROR"

/-- The first part of every channel's name. -/
def rootName : String := "typegen"

/-- The full name of a channel: a name outside the root's hierarchy is put below it. -/
def channelName (name : Option String) : String :=
  match name with
  | none => rootName
  | some name =>
    if name = "" then rootName
    else if name = rootName ∨ (rootName ++ ".").toList.isPrefixOf name.toList then name
    else rootName ++ "." ++ name

/-- The parts of the program that make records. -/
inductive Channel where
  | command
  | loading
  | configuration
  | diagnostics
  | extraction
  | generation
  | regions
  | settings
  | writing
  deriving DecidableEq, Repr

def Channel.name : Channel → String
  | .command => "typegen.cli"
  | .loading => "typegen.utils"
  | .configuration => "typegen.codegen.core.config"
  | .diagnostics => "typegen.codegen.core.diagnostics"
  | .extraction => "typegen.codegen.core.extractor"
  | .generation => "typegen.codegen.core.generator"
  | .regions => "typegen.codegen.core.regions"
  | .settings => "typegen.codegen.core.settings"
  | .writing => "typegen.codegen.core.writer"

structure Record where
  level : Level
  channel : Channel
  message : String
  deriving DecidableEq, Repr

/-- A record as a line of a log file. -/
def Record.line (r : Record) : String := r.level.name ++ " " ++ r.channel.name ++ ": " ++ r.message

/-- The number of characters that the time and the blank after it take. -/
def timeLength : Nat := 24

/-- The lines of a log file without their times. A line with its end that is no longer than a time leaves
nothing. -/
def withoutTimes (s : String) : String :=
  String.join ((Text.linesWithEnds s.toList).map fun line => .ofList (line.drop timeLength))

/-- The records of at least a level. -/
def atLeast (level : Level) (records : List Record) : List Record :=
  records.filter fun r => level.rank ≤ r.level.rank

end Scaffold.Log
