import Scaffold.Generation.Run
import Scaffold.Loading.Document

/-!
Why a command fails. Most failures are reported; a fault that no report covers ends the program.
-/

namespace Scaffold.Command

/-- What is wrong with what a command is asked to do. -/
inductive CommandError where
  | tooFewWorkers
  | unsupported (targets supported : List String)
  | invalidEntry (source reason : String)
  | notDirectory (path : Path)
  deriving DecidableEq, Repr

def CommandError.message : CommandError → String
  | .tooFewWorkers => "--workers must be at least 1"
  | .unsupported targets supported =>
    "Unsupported target(s): " ++ ", ".intercalate targets ++ ". Supported targets: " ++
      ", ".intercalate supported
  | .invalidEntry source reason => "Invalid settings entry in " ++ source ++ ": " ++ reason
  | .notDirectory path => "Not a directory: " ++ path.text

inductive Failure where
  | command (e : CommandError)
  | config (e : Config.ConfigFailure)
  | load (e : Loading.LoadFailure)
  | document (e : Generation.DocumentError)
  | region (e : Region.Failure)
  | write (e : Output.WriteFailure)
  | file (e : FileError)

/-- The report of a refused operation on files: only that one is missing is reported. -/
def fileReport? (e : FileError) : Option String :=
  if e.obstacle = .notFound then some e.message else none

/-- The report of a configuration that is refused. -/
def configReport? : Config.ConfigFailure → Option String
  | .refused e => some e.message
  | .file e => fileReport? e
  | .misfit _ | .undecodable _ | .number _ | .tooDeep | .unencodable _ => none

def loadReport? : Loading.LoadFailure → Option String
  | .refused e => some e.message
  | .notFound path => some (Loading.notFoundMessage path)
  | .file e => fileReport? e
  | .undecodable _ | .number _ | .address _ | .misfit _ | .tooDeep => none

def targetReport? : Registry.CreationError → Option String
  | .refused e | .lookup (.refused e) => some e.message
  | .config e => configReport? e
  | .file e => fileReport? e
  | .lookup (.dangling _) | .misfit _ => none

def documentReport? : Generation.DocumentError → Option String
  | .config e => configReport? e
  | .metadata (.misfit _) => none
  | .metadata e => some e.message
  | .target e => targetReport? e
  | .entry _ | .collision _ => none

def regionReport? : Region.Failure → Option String
  | .read (.file e) => fileReport? e
  | .path _ | .read (.undecodable _) => none

/-- The report of a failure; without one it is a fault that ends the program. -/
def Failure.report? : Failure → Option String
  | .command e => some e.message
  | .config e => configReport? e
  | .load e => loadReport? e
  | .document e => documentReport? e
  | .region e => regionReport? e
  | .file e => fileReport? e
  | .write _ => none

end Scaffold.Command
