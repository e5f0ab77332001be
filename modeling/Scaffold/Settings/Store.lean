import Scaffold.Json.Equality
import Scaffold.Json.Printer

/-!
Settings: texts addressed by unit, kind of item, identity of the item, and key. An entry for an item
wins over the entry for all items of its kind. A key may be any value that can be looked up.
-/

namespace Scaffold.Settings

/-- The identity that stands for all items of a kind. -/
def allItems : String := "All"

structure Scope where
  unit : String
  item : String
  identity : String
  key : Json.Key
  deriving DecidableEq, Repr

def Scope.forAll (s : Scope) : Scope := { s with identity := allItems }

/-- The item of a scope in messages. -/
def Scope.place (s : Scope) : String := s.unit ++ "/" ++ s.item ++ "/" ++ s.identity

structure Entry where
  scope : Scope
  value : String
  deriving DecidableEq, Repr

/-- Why a value is no entry. -/
inductive EntryError where
  | missing (key : String)
  | misfit (what : Misfit)
  deriving DecidableEq, Repr

def EntryError.message : EntryError → String
  | .missing key => Text.quoted key
  | .misfit what => what.message

/-- The text of a field that an entry has to have. -/
def requiredText (key : String) : Json → Except EntryError String
  | .obj fields =>
    match Fields.get? fields key with
    | some value => .ok value.text
    | none => .error (.missing key)
  | other => .error (.misfit other.indexMisfit)

/-- The entry of an object; one without identity is for all items. -/
def Entry.ofJson (v : Json) : Except EntryError Entry := do
  let unit ← requiredText "unit" v
  let item ← requiredText "item" v
  let identity := (v.field? "identity").getD .null
  let key ← requiredText "key" v
  let value := (v.field? "value").getD (.str "")
  return ⟨⟨unit, item, if identity.isSet then identity.text else allItems, .text key⟩, value.text⟩

structure Store where
  entries : List (Scope × String)
  deriving DecidableEq, Repr

namespace Store

def empty : Store := ⟨[]⟩

def set (s : Store) (scope : Scope) (value : String) : Store :=
  ⟨Fields.put s.entries scope value⟩

def lookup? (s : Store) (scope : Scope) : Option String := Fields.get? s.entries scope

def size (s : Store) : Nat := s.entries.length

/-- The text that holds for a scope: its own, or else that for all items. -/
def value? (s : Store) (scope : Scope) : Option String :=
  (s.lookup? scope).orElse fun _ => s.lookup? scope.forAll

/-- The store of some values, in order, up to the first that is no entry. -/
def ofJsonFrom (s : Store) : List Json → Except EntryError Store
  | [] => .ok s
  | v :: rest => do
    let entry ← Entry.ofJson v
    ofJsonFrom (s.set entry.scope entry.value) rest

def ofJson (entries : List Json) : Except EntryError Store := empty.ofJsonFrom entries

theorem lookup?_set (s : Store) (scope other : Scope) (value : String) :
    (s.set scope value).lookup? other = if other = scope then some value else s.lookup? other :=
  Fields.get?_put _ _ _ _

end Store

end Scaffold.Settings
