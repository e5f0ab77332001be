import Scaffold.Decimal.Reading
import Scaffold.Diagnostic
import Scaffold.Settings.Store
import Scaffold.Text.Case

/-!
Reading settings as values of a type. What cannot be read falls back to the default with a record in
the log; an answer is remembered under its question.
-/

namespace Scaffold.Settings

inductive ValueType where
  | text
  | integer
  | real
  | flag
  deriving DecidableEq, Repr

def ValueType.all : List ValueType := [.text, .integer, .real, .flag]

def ValueType.name : ValueType → String
  | .text => "str"
  | .integer => "int"
  | .real => "float"
  | .flag => "bool"

def ValueType.ofName? (name : String) : Option ValueType :=
  ValueType.all.find? fun type => type.name = name

/-- Why a text is no value of a type. -/
inductive ReadError where
  | number (e : Decimal.NumberError)
  | notFlag (text : String)
  deriving DecidableEq, Repr

def ReadError.message : ReadError → String
  | .number e => e.message
  | .notFlag text => "not a boolean: " ++ Text.quoted text

/-- The words for on and off, in any case. -/
def readFlag (text : String) : Except ReadError Bool :=
  let word := Text.lower (Text.strip text)
  if ["true", "1", "yes", "on"].contains word then .ok true
  else if ["false", "0", "no", "off"].contains word then .ok false
  else .error (.notFlag text)

def ValueType.read (text : String) : ValueType → Except ReadError Json
  | .text => .ok (.str text)
  | .integer => ((Decimal.readInteger (Text.strip text)).map Json.int).mapError .number
  | .real => ((Decimal.readReal (Text.strip text)).map Json.real).mapError .number
  | .flag => (readFlag text).map Json.bool

/-- Is the value of the type as it is? A flag is also an integer. -/
def ValueType.holds : ValueType → Json → Bool
  | .text, .str _ => true
  | .integer, .int _ | .integer, .bool _ => true
  | .real, .real _ => true
  | .flag, .bool _ => true
  | _, _ => false

/-- What is asked: a scope, a type, and what to answer if nothing is stored. -/
structure Query where
  scope : Scope
  default : Json
  type : ValueType
  /-- The key as it was given. -/
  writtenKey : String := scope.key.shown

/-- A query as a list of its parts. -/
def Query.toJson (q : Query) : Json :=
  .arr [.str q.scope.unit, .str q.scope.item, .str q.scope.identity, .str q.writtenKey, q.default,
    .str q.type.name]

def warningNote (message : String) : Note := .record ⟨.warning, .settings, message⟩

/-- The default as a value of the type, if it can be one. -/
def Query.fallback (q : Query) : Json × List Note :=
  if q.type.holds q.default then (q.default, [])
  else match q.type.read q.default.text with
    | .ok value => (value, [])
    | .error _ =>
      (q.default,
        [warningNote ("Default " ++ q.default.literal ++ " is not a valid " ++ q.type.name ++ " either")])

/-- The answer from the store as it is, with the notes that finding it leaves. -/
def Query.evaluate (q : Query) (store : Store) : Json × List Note :=
  match q.type.read ((store.value? q.scope).getD q.default.text) with
  | .ok value => (value, [])
  | .error e =>
    let (value, notes) := q.fallback
    (value,
      warningNote ("Setting " ++ q.scope.place ++ "/" ++ q.writtenKey ++ " could not be read as " ++
        q.type.name ++ " (" ++ e.message ++ "); using default " ++ q.default.literal) :: notes)

/-- What an answer is remembered under: of the default only its text counts. -/
structure CacheKey where
  scope : Scope
  defaultText : String
  type : ValueType
  deriving DecidableEq, Repr

def Query.cacheKey (q : Query) : CacheKey := ⟨q.scope, q.default.text, q.type⟩

/-- A store with the answers given so far. -/
structure Resolver where
  store : Store
  cache : List (CacheKey × Json)

namespace Resolver

def ofStore (store : Store) : Resolver := ⟨store, []⟩

def empty : Resolver := ofStore .empty

/-- The answer to a query, the notes of finding it, and the resolver that remembers it. -/
def query (r : Resolver) (q : Query) : Json × List Note × Resolver :=
  match Fields.get? r.cache q.cacheKey with
  | some value => (value, [], r)
  | none =>
    let (value, notes) := q.evaluate r.store
    (value, notes, { r with cache := Fields.put r.cache q.cacheKey value })

/-- Answers several queries ahead of their use. -/
def prewarm (r : Resolver) : List Query → List Note × Resolver
  | [] => ([], r)
  | q :: rest =>
    let (_, notes, r) := r.query q
    let (more, r) := r.prewarm rest
    (notes ++ more, r)

def clear (r : Resolver) : Resolver := { r with cache := [] }

def set (r : Resolver) (scope : Scope) (value : String) : Resolver :=
  { r with store := r.store.set scope value }

end Resolver

end Scaffold.Settings
