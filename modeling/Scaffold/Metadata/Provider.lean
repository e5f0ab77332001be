import Scaffold.Json.Fields
import Scaffold.Json.Misfit
import Scaffold.Metadata.Reading
import Scaffold.Metadata.TypeName
import Scaffold.Outcome

/-!
Looking types up by name and following their bases. The way up ends at a type without a base, at a base
that is not known, or at a type that was passed before.
-/

namespace Scaffold.Metadata

/-- The types of one document. -/
structure Provider where
  types : List RawType

namespace Provider

def ofJson (document : Json) : Except MetadataError Provider := (typesOf document).map (⟨·⟩)

/-- The first type that has the clean name as its qualified or short name. -/
def lookup? (p : Provider) (clean : String) : Option RawType :=
  p.types.find? fun t => t.qualifiedName = clean || t.name = clean

/-- The type that a written name refers to. -/
def find? (p : Provider) (written : String) : Option RawType :=
  if written = "" then none else p.lookup? (cleanName written)

def ofKind (p : Provider) (kind : RawKind) : List RawType := p.types.filter (·.kind = kind)

/-- The types as fields: all of them, and the names of each kind. -/
def fields (p : Provider) : List (String × Json) :=
  let names (kind : RawKind) : Json := .arr ((p.ofKind kind).map fun t => .str t.qualifiedName)
  [("all", .arr (p.types.map RawType.toJson)), ("entities", names .entity), ("views", names .view),
    ("enums", names .enumeration)]

/-- Entities, then views, then enumerations. -/
def generated (p : Provider) : List RawType :=
  p.ofKind .entity ++ p.ofKind .view ++ p.ofKind .enumeration

end Provider

/-- The written name of the base, if there is one. -/
def RawType.baseName? (t : RawType) : Except Misfit (Option String) :=
  match t.base with
  | .null => .ok none
  | .str s => .ok (some s)
  | other => .error (.lacks other.kindName "strip")

namespace Provider

/-- The note that the way up from a type comes to a base that it passed before. -/
def cycleNote (start base : RawType) : Note :=
  .record ⟨.warning, .extraction,
    "Inheritance cycle at " ++ base.name ++ " while walking " ++ start.name⟩

/-- The names of the bases above a type, nearest first. `seen` holds the qualified names passed
before. A base that is not known is the last name; a base passed before ends the way with a note. -/
def ancestorsFrom (p : Provider) (start : RawType) :
    (fuel : Nat) → (seen : List String) → RawType → Outcome Misfit (List String)
  | 0, _, _ => .ok []
  | fuel + 1, seen, t =>
    match t.baseName? with
    | .error e => .fail e
    | .ok none => .ok []
    | .ok (some written) =>
      match p.find? written with
      | none => .ok (if written = "" then [] else [cleanName written])
      | some base =>
        if base.qualifiedName ∈ seen then
          (Outcome.note (cycleNote start base)).bind fun _ => .ok []
        else
          (p.ancestorsFrom start fuel (base.qualifiedName :: seen) base).bind fun names =>
            .ok (base.name :: names)

/-- The names of the bases above a type, nearest first. -/
def ancestors (p : Provider) (t : RawType) : Outcome Misfit (List String) :=
  p.ancestorsFrom t (p.types.length + 1) [t.qualifiedName] t

/-- The known bases above a type, nearest first, each once. -/
def basesFrom (p : Provider) : (fuel : Nat) → (seen : List String) → RawType → List RawType
  | 0, _, _ => []
  | fuel + 1, seen, t =>
    match t.baseName? with
    | .ok (some written) =>
      match p.find? written with
      | none => []
      | some base =>
        if base.qualifiedName ∈ seen then []
        else base :: p.basesFrom fuel (base.qualifiedName :: seen) base
    | _ => []

def bases (p : Provider) (t : RawType) : List RawType :=
  p.basesFrom (p.types.length + 1) [t.qualifiedName] t

/-- The type that a property names as its owner; `owner` if it names none. -/
def declaringName (owner : RawType) (property : RawProperty) : Except Misfit String :=
  if property.declaredOn.isSet then
    match property.declaredOn with
    | .str s =>
      let clean := cleanName s
      .ok (if clean = "" then owner.name else clean)
    | other => .error (.lacks other.kindName "strip")
  else .ok owner.name

/-- A property with the name of the type that declares it. -/
structure Declared where
  declaring : String
  property : RawProperty

/-- Adds the properties of one type: a new name goes to the end, a known one is replaced in place. -/
def addProperties (owner : RawType) (known : List (String × Declared)) :
    List RawProperty → Except Misfit (List (String × Declared))
  | [] => .ok known
  | property :: rest => do
    let declaring ← declaringName owner property
    addProperties owner (Fields.put known property.name ⟨declaring, property⟩) rest

/-- The properties of several types, each adding to those before it. -/
def addOwners (known : List (String × Declared)) :
    List RawType → Except Misfit (List (String × Declared))
  | [] => .ok known
  | owner :: rest => do addOwners (← addProperties owner known owner.properties) rest

/-- Own and inherited properties, those of the furthest base first. -/
def properties (p : Provider) (t : RawType) : Except Misfit (List Declared) :=
  (addOwners [] ((t :: p.bases t).reverse)).map fun known => known.map (·.2)

end Provider

end Scaffold.Metadata
