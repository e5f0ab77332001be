import Scaffold.Json.Equality
import Scaffold.Json.Printer

/-!
Entries: fields whose keys are any values that have keys. A list of pairs makes entries; so does an
object.
-/

namespace Scaffold.Json

/-- Keys with their values. Setting a key that is there keeps the key as it was first given. -/
abbrev Entries := List (Json × Json)

namespace Entries

def get? (entries : Entries) (key : Json) : Option Json :=
  (entries.find? fun entry => equals entry.1 key).map (·.2)

def put : Entries → Json → Json → Entries
  | [], key, value => [(key, value)]
  | (k, v) :: rest, key, value =>
    if equals k key then (k, value) :: rest else (k, v) :: put rest key value

def merge (old new : Entries) : Entries :=
  new.foldl (fun entries (key, value) => put entries key value) old

def ofFields (fields : List (String × Json)) : Entries :=
  fields.map fun (key, value) => (.str key, value)

/-- One item of a list of pairs. -/
def pair? (place : Nat) (item : Json) : Except Misfit (Json × Json) :=
  match item.items? with
  | .error _ => .error (.notSequence place)
  | .ok [key, value] => do
    let _ ← key.key?
    return (key, value)
  | .ok parts => .error (.wrongLength place parts.length)

/-- The pairs of a list, counted from a place. -/
def pairsFrom (place : Nat) : List Json → Except Misfit Entries
  | [] => .ok []
  | item :: rest => do
    let pair ← pair? place item
    return pair :: (← pairsFrom (place + 1) rest)

/-- The fields of an object, or of a list of pairs. -/
def ofJson? : Json → Except Misfit Entries
  | .obj fields => .ok (ofFields fields)
  | v => do return merge [] (← pairsFrom 0 (← v.items?))

end Entries

/-- The text of a key in a file; a key that is no number, flag or text is null. -/
def keyText : Json → String
  | .str s => s
  | .bool b => if b then "true" else "false"
  | .int n => toString n
  | .real x => realForm x
  | _ => "null"

/-- Entries as the fields of an object in a file. -/
def Entries.saved (entries : Entries) : List (String × Json) :=
  entries.map fun (key, value) => (key.keyText, value)

/-- Entries as the fields of an object that is shown. -/
def Entries.shown (entries : Entries) : List (String × Json) :=
  Fields.merge [] (entries.map fun (key, value) => (key.text, value))

end Scaffold.Json
