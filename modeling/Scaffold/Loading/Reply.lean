import Scaffold.Json.Misfit
import Scaffold.Json.Parser
import Scaffold.Loading.Address
import Scaffold.Loading.Encoding
import Scaffold.Outcome

/-!
Asking for a document on the net. What comes back is an answer or the failure of the request; a status
from 400 to 599 and a body that is not Json are failures too.
-/

namespace Scaffold.Loading

inductive RequestFailure where
  | timeout
  | connection
  | other
  /-- A failure of which no report can be made. -/
  | unreported (what : Misfit)
  deriving DecidableEq, Repr

/-- The kinds of failures that are neither timeouts nor failures of a connection. -/
def RequestFailure.otherNames : List String := [
  "RequestException", "URLRequired", "TooManyRedirects", "MissingSchema", "InvalidSchema", "InvalidURL",
  "InvalidHeader", "InvalidProxyURL", "ChunkedEncodingError", "ContentDecodingError",
  "StreamConsumedError", "RetryError", "UnrewindableBodyError", "InvalidJSONError"]

/-- The failure of a kind. An error status without an answer that has it cannot be reported, nor a fault in
a text without its place. -/
def RequestFailure.ofName (name : String) : RequestFailure :=
  if ["Timeout", "ConnectTimeout", "ReadTimeout"].contains name then .timeout
  else if ["ConnectionError", "SSLError", "ProxyError"].contains name then .connection
  else if otherNames.contains name then .other
  else if name = "HTTPError" then .unreported (.lacks "NoneType" "status_code")
  else if name = "JSONDecodeError" then .unreported .arguments
  else .unreported (.lacks "module" name)

inductive Body where
  | text (s : String)
  /-- A body whose reading fails. -/
  | faulty (message : String)
  deriving DecidableEq, Repr

inductive Reply where
  | answer (status : Int) (contentType : String) (body : Body)
  | failed (failure : RequestFailure) (text : String)
  deriving DecidableEq, Repr

/-- What comes of asking for an address. -/
abbrev Network := String → Reply

/-- Seconds until a request is given up, unless it is told otherwise. -/
def defaultTimeout : Nat := 30

/-- Why an address gives no document. -/
inductive RequestError where
  | invalidAddress (url : String)
  | timeout (url : String)
  | connection (url text : String)
  | status (url : String) (code : Int)
  | request (url text : String)
  | invalidBody (url text : String)
  deriving DecidableEq, Repr

def RequestError.message : RequestError → String
  | .invalidAddress url => "Invalid URL: " ++ url
  | .timeout url => "Request timeout for URL: " ++ url
  | .connection url _ => "Connection error for URL: " ++ url
  | .status url code => "HTTP error " ++ toString code ++ " for URL: " ++ url
  | .request url text => "Request error for URL " ++ url ++ ": " ++ text
  | .invalidBody url text => "Invalid JSON response from URL " ++ url ++ ": " ++ text

/-- The error as it is recorded. -/
def RequestError.logText : RequestError → String
  | .invalidAddress url => "Invalid URL format: " ++ url
  | .connection url text => "Connection error for URL " ++ url ++ ": " ++ text
  | e => e.message

/-- Is it the status of an error? -/
def isErrorStatus (status : Int) : Bool := 400 ≤ status && status < 600

/-- Does neither the type of the content nor the name speak of Json? -/
def isDoubtful (url contentType : String) : Bool :=
  !Text.contains "application/json" (Text.lower contentType) && !Text.endsWith ".json" url

/-- The text of a body without the mark that may stand before it. -/
def withoutMark (s : String) : String :=
  match s.toList with
  | c :: rest => if c.toNat = 0xFEFF then .ofList rest else s
  | [] => s

/-- Why asking fails: an error with a report, or one without. -/
inductive FetchFailure where
  | reported (e : RequestError)
  | address (e : AddressError)
  | misfit (what : Misfit)
  /-- The values of a body stand inside one another too deeply. -/
  | tooDeep

/-- The value of a body. A fault in the text counts as one of the request, any other does not. -/
def Body.value (depth : Nat) (url : String) : Body → Except FetchFailure Json
  | .faulty message => .error (.reported (.invalidBody url message))
  | .text s =>
    (Json.parse depth (withoutMark (bodyText s))).mapError fun e =>
      match e.fault with
      | .number _ => .reported (.invalidBody url e.message)
      | .complaint .. => .reported (.request url e.message)
      | .tooDeep => .tooDeep

def note (level : Log.Level) (message : String) : Note := .record ⟨level, .loading, message⟩

/-- A failure with its record. -/
def report {α : Type} (e : RequestError) : Outcome FetchFailure α :=
  ⟨[note .error e.logText], .error (.reported e)⟩

/-- The value of an answer. -/
def readAnswer (depth : Nat) (url contentType : String) (body : Body) : Outcome FetchFailure Json := do
  if isDoubtful url contentType then
    Outcome.note (note .warning ("URL " ++ url ++ " does not have JSON content type: " ++
      Text.lower contentType))
  match body.value depth url with
  | .error (.reported e) => report e
  | .error e => Outcome.fail e
  | .ok v =>
    Outcome.note (note .info ("Loaded JSON from " ++ url))
    return v

/-- The value that a reply brings. -/
def readReply (depth : Nat) (url : String) : Reply → Outcome FetchFailure Json
  | .answer status contentType body =>
    if isErrorStatus status then report (.status url status) else readAnswer depth url contentType body
  | .failed .timeout _ => report (.timeout url)
  | .failed .connection text => report (.connection url text)
  | .failed .other text => report (.request url text)
  | .failed (.unreported what) _ => .fail (.misfit what)

/-- Asks for a document at an address. -/
def fetch (depth : Nat) (network : Network) (url : String) : Outcome FetchFailure (String × Json) := do
  Outcome.note (note .debug ("Attempting to load JSON from URL: " ++ url))
  let address ← Outcome.ofExcept ((Address.ofText url).mapError .address)
  if address.isComplete then
    let v ← readReply depth url (network url)
    return (url, v)
  else report (.invalidAddress url)

/-- Is the network asked for an address? -/
def isAsked (url : String) : Bool :=
  match Address.ofText url with
  | .ok address => address.isComplete
  | .error _ => false

end Scaffold.Loading
