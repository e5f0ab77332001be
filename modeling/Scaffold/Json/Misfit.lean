import Scaffold.Json.Basic

/-!
Values of a kind that a use of them does not allow. The message says what was asked of the value.
-/

namespace Scaffold

inductive Misfit where
  /-- The value has no such ability. -/
  | lacks (kind ability : String)
  | notIterable (kind : String)
  | notContainer (kind : String)
  | notSubscriptable (kind : String)
  | noLength (kind : String)
  | textIndex
  | listIndex
  | notPath (kind : String)
  | notOrdered (sign left right : String)
  | notText (kind : String)
  /-- The value is no part of a path. -/
  | notJoined (kind : String)
  /-- The value is looked for in a text. -/
  | notPiece (kind : String)
  /-- The value is appended to a text. -/
  | notAppended (kind : String)
  /-- The line at a place is no text. -/
  | notLine (place : Nat) (kind : String)
  | notCallable (kind : String)
  /-- The arguments are not those that are taken. -/
  | arguments
  /-- The value has no field under a key, which is given as it is written. -/
  | noKey (key : String)
  | unhashable (kind : String)
  /-- The item at a place is no pair. -/
  | wrongLength (place count : Nat)
  | notSequence (place : Nat)
  | overflow
  deriving DecidableEq, Repr

namespace Misfit

def message : Misfit → String
  | .lacks kind ability => "'" ++ kind ++ "' object has no attribute '" ++ ability ++ "'"
  | .notIterable kind => "'" ++ kind ++ "' object is not iterable"
  | .notContainer kind => "argument of type '" ++ kind ++ "' is not iterable"
  | .notSubscriptable kind => "'" ++ kind ++ "' object is not subscriptable"
  | .noLength kind => "object of type '" ++ kind ++ "' has no len()"
  | .textIndex => "string indices must be integers, not 'str'"
  | .listIndex => "list indices must be integers or slices, not str"
  | .notPath kind => "expected str, bytes or os.PathLike object, not " ++ kind
  | .notOrdered sign left right =>
    "'" ++ sign ++ "' not supported between instances of '" ++ left ++ "' and '" ++ right ++ "'"
  | .notText kind => "expected string or bytes-like object, got '" ++ kind ++ "'"
  | .notJoined kind => "unsupported operand type(s) for /: 'PosixPath' and '" ++ kind ++ "'"
  | .notPiece kind => "'in <string>' requires string as left operand, not " ++ kind
  | .notAppended kind => "can only concatenate str (not \"" ++ kind ++ "\") to str"
  | .notLine place kind =>
    "sequence item " ++ toString place ++ ": expected str instance, " ++ kind ++ " found"
  | .notCallable kind => "'" ++ kind ++ "' object is not callable"
  | .arguments => "unexpected arguments"
  | .noKey key => key
  | .unhashable kind => "unhashable type: '" ++ kind ++ "'"
  | .wrongLength place count =>
    "dictionary update sequence element #" ++ toString place ++ " has length " ++ toString count ++
      "; 2 is required"
  | .notSequence place =>
    "cannot convert dictionary update sequence element #" ++ toString place ++ " to a sequence"
  | .overflow => "cannot convert float infinity to integer"

/-- The word for the kind of failure. -/
def name : Misfit → String
  | .lacks .. => "AttributeError"
  | .wrongLength .. => "ValueError"
  | .overflow => "OverflowError"
  | .noKey _ => "KeyError"
  | _ => "TypeError"

end Misfit

namespace Json

/-- A text; any other value lacks what texts can do. -/
def asText? (ability : String) : Json → Except Misfit String
  | .str s => .ok s
  | v => .error (.lacks v.kindName ability)

/-- The items of a list, the characters of a text or the keys of an object. -/
def items? : Json → Except Misfit (List Json)
  | .arr items => .ok items
  | .str s => .ok (s.toList.map fun c => .str c.toString)
  | .obj fields => .ok (fields.map fun (key, _) => .str key)
  | v => .error (.notIterable v.kindName)

/-- The items, or none if the value says nothing. -/
def itemsIfSet? (v : Json) : Except Misfit (List Json) := if v.isSet then v.items? else .ok []

/-- The fields of an object. -/
def fields? : Json → Except Misfit (List (String × Json))
  | .obj fields => .ok fields
  | v => .error (.lacks v.kindName "get")

/-- Why a text cannot be looked up in a value that is no object. -/
def indexMisfit : Json → Misfit
  | .str _ => .textIndex
  | .arr _ => .listIndex
  | v => .notSubscriptable v.kindName

end Json

end Scaffold
