import Scaffold.Loading.Reply
import Scaffold.Region.File

/-!
Loading documents from files and from the net, and the two shapes of documents that a run needs: an
object with a list of types, and a list of settings.
-/

namespace Scaffold.Loading

/-- Why a document is refused. -/
inductive Refusal where
  | invalidJson (path : Path) (error : Json.ParseError)
  | unreadable (path : Path) (error : FileError)
  | request (e : RequestError)
  | notMetadata (origin : String)
  | notSettings (origin : String)
  deriving DecidableEq, Repr

def Refusal.message : Refusal → String
  | .invalidJson path e => "Invalid JSON in file " ++ path.text ++ ": " ++ e.message
  | .unreadable path e => "Error reading file " ++ path.text ++ ": " ++ e.message
  | .request e => e.message
  | .notMetadata origin =>
    "Metadata document " ++ origin ++ " must be an object with a 'types' list"
  | .notSettings origin =>
    "Settings document " ++ origin ++ " must be a list or an object with a 'settings' list"

/-- Why there is no document: a refusal, or a fault that no refusal covers. -/
inductive LoadFailure where
  | refused (e : Refusal)
  | notFound (path : Path)
  | undecodable (e : Text.DecodeError)
  | number (e : Decimal.NumberError)
  | address (e : AddressError)
  | misfit (what : Misfit)
  /-- The values of a document stand inside one another too deeply. -/
  | tooDeep
  /-- The file system refuses to look for a file. -/
  | file (e : FileError)

def notFoundMessage (path : Path) : String := "File not found: " ++ path.text

/-- A refusal with its record. -/
def refuse {α : Type} (e : Refusal) : Outcome LoadFailure α :=
  ⟨[note .error e.message], .error (.refused e)⟩

/-- The value in a file that is there. -/
def readValue (depth : Nat) (t : Tree) (path : Path) : Outcome LoadFailure Json :=
  match Region.readText t path with
  | .error (.file e) => refuse (.unreadable path e)
  | .error (.undecodable e) => .fail (.undecodable e)
  | .ok text =>
    match Json.parse depth text with
    | .ok v => .ok v
    | .error e =>
      match e.fault with
      | .number e => .fail (.number e)
      | .tooDeep => .fail .tooDeep
      | .complaint .. => refuse (.invalidJson path e)

/-- Looks for a file before it is read. -/
def prepareFile (t : Tree) (path : Path) : Outcome LoadFailure Unit := do
  Outcome.note (note .debug ("Attempting to load JSON from file: " ++ path.text))
  let isThere ← Outcome.ofExcept ((t.exists? path).mapError .file)
  if !isThere then
    Outcome.note (note .error (notFoundMessage path))
    Outcome.fail (.notFound path)
  else if Text.lower path.suffix ≠ ".json" then
    Outcome.note (note .warning ("File does not have .json extension: " ++ path.text))

/-- Reads the document in a file that is there. -/
def readFile (depth : Nat) (t : Tree) (path : Path) : Outcome LoadFailure (String × Json) := do
  let v ← readValue depth t path
  Outcome.note (note .info ("Loaded JSON from " ++ path.text))
  return (path.text, v)

/-- Loads the document in a file. -/
def loadFile (depth : Nat) (t : Tree) (path : Path) : Outcome LoadFailure (String × Json) := do
  prepareFile t path
  readFile depth t path

def LoadFailure.ofFetch : FetchFailure → LoadFailure
  | .reported e => .refused (.request e)
  | .address e => .address e
  | .misfit what => .misfit what
  | .tooDeep => .tooDeep

/-- Loads the document at an address. -/
def loadRemote (depth : Nat) (network : Network) (url : String) : Outcome LoadFailure (String × Json) :=
  let fetched := fetch depth network url
  ⟨fetched.notes, fetched.result.mapError .ofFetch⟩

/-- Is a source on the net? -/
def remote? (source : String) : Except AddressError Bool :=
  (Address.ofText source).map Address.isRemote

/-- What comes before a document is read: a file is looked for. -/
def prepare (t : Tree) (source : String) : Outcome LoadFailure Unit := do
  let isRemote ← Outcome.ofExcept ((remote? source).mapError .address)
  if !isRemote then prepareFile t (Path.ofText source)

/-- Reads a document from a file that is there, or asks the net for it. -/
def readDocument (depth : Nat) (network : Network) (t : Tree) (source : String) :
    Outcome LoadFailure (String × Json) := do
  let isRemote ← Outcome.ofExcept ((remote? source).mapError .address)
  if isRemote then loadRemote depth network source else readFile depth t (Path.ofText source)

/-- Loads a document from a file or from the net. -/
def load (depth : Nat) (network : Network) (t : Tree) (source : String) :
    Outcome LoadFailure (String × Json) := do
  prepare t source
  readDocument depth network t source

/-- Is the network asked when a source is loaded? -/
def asksNetwork (source : String) : Bool :=
  match Address.ofText source with
  | .ok address => address.isRemote && isAsked source
  | .error _ => false

def isList : Json → Bool
  | .arr _ => true
  | _ => false

/-- A document with types. -/
def metadataOf (document : String × Json) : Except LoadFailure Json :=
  if isList ((document.2.field? "types").getD .null) then .ok document.2
  else .error (.refused (.notMetadata document.1))

/-- The entries of a list, or of an object with a list of settings. -/
def entriesOf? : Json → Option (List Json)
  | .arr entries => some entries
  | v =>
    match v.field? "settings" with
    | some (.arr entries) => some entries
    | _ => none

/-- A document with settings. -/
def settingsOf (document : String × Json) : Except LoadFailure (List Json) :=
  match entriesOf? document.2 with
  | some entries => .ok entries
  | none => .error (.refused (.notSettings document.1))

/-- Loads a document with types. -/
def loadMetadata (depth : Nat) (network : Network) (t : Tree) (source : String) :
    Outcome LoadFailure Json := do
  Outcome.ofExcept (metadataOf (← load depth network t source))

/-- Loads settings. -/
def loadSettings (depth : Nat) (network : Network) (t : Tree) (source : String) :
    Outcome LoadFailure (List Json) := do
  Outcome.ofExcept (settingsOf (← load depth network t source))

end Scaffold.Loading
