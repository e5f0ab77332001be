import Scaffold.Json.Misfit

/-!
Equality of values by what they stand for. A flag equals zero or one, a real without a fraction equals the
integer, and the order of the fields of an object does not count. `Json.Key` is what a value counts as
when it is looked up.
-/

namespace Scaffold.Json

/-- What a value counts as when it is looked up: equal values have one key. -/
inductive Key where
  | null
  | whole (n : Int)
  | real (x : Binary64)
  | text (s : String)
  deriving DecidableEq, Repr

/-- A key as it is written in a message. -/
def Key.shown : Key → String
  | .null => "None"
  | .whole n => toString n
  | .real x => x.text
  | .text s => s

/-- The key of a number. -/
def Key.ofReal (x : Binary64) : Key :=
  match x.whole? with
  | some n => .whole n
  | none => .real x

/-- The key of a value; a list or an object has none. -/
def key? : Json → Except Misfit Key
  | .null => .ok .null
  | .bool b => .ok (.whole (if b then 1 else 0))
  | .int n => .ok (.whole n)
  | .real x => .ok (.ofReal x)
  | .str s => .ok (.text s)
  | v => .error (.unhashable v.kindName)

mutual

/-- Do two values stand for the same? -/
def equals : Json → Json → Bool
  | .arr a, .arr b => equalItems a b
  | .obj a, .obj b => a.length == b.length && equalFields a b
  | a, b =>
    match a.key?, b.key? with
    | .ok (.real .nan), _ => false
    | .ok j, .ok k => j == k
    | _, _ => false

def equalItems : List Json → List Json → Bool
  | [], [] => true
  | a :: as, b :: bs => equals a b && equalItems as bs
  | _, _ => false

/-- Does an object hold equal fields? -/
def equalFields : List (String × Json) → List (String × Json) → Bool
  | [], _ => true
  | (key, a) :: rest, other =>
    (match Fields.get? other key with
      | some b => equals a b
      | none => false) && equalFields rest other

end

/-- Are some of the values equal? -/
def someEqual : List Json → Bool
  | [] => false
  | v :: rest => rest.any (equals v) || someEqual rest

/-- Keeps the first of equal values. -/
def distinctValues : List Json → List Json
  | [] => []
  | v :: rest => v :: (distinctValues rest).filter fun w => !equals v w

/-- Keeps the first of equal values, if all of them have keys. -/
def distinct? (vs : List Json) : Except Misfit (List Json) := do
  let _ ← vs.mapM key?
  return distinctValues vs

end Scaffold.Json
