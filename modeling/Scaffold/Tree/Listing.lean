import Scaffold.Json.Parser
import Scaffold.Tree.Basic

/-!
Listings: trees as values. A listing holds the content of each file under its path, as a text or, if the
bytes are no text, in hexadecimal digits. Null stands for a directory.
-/

namespace Scaffold.Tree

/-- The bytes that pairs of hexadecimal digits stand for. -/
def bytesOfHex? : List Char → Option (List UInt8)
  | [] => some []
  | [_] => none
  | a :: b :: rest => do
    let high ← Json.hexValue? a
    let low ← Json.hexValue? b
    return UInt8.ofNat (16 * high + low) :: (← bytesOfHex? rest)

def hexOfBytes (bytes : List UInt8) : List Char := bytes.flatMap fun b => Text.hexDigits 2 b.toNat

/-- The name of the field that holds hexadecimal digits. -/
def hexField : String := "hex"

/-- The node that a listing gives. -/
def listedNode? : Json → Option Node
  | .null => some .directory
  | .str s => some (.file (Text.encode s))
  | .obj fields =>
    match Fields.get? fields hexField with
    | some (.str digits) =>
      (bytesOfHex? digits.toList).map fun bytes => .file ⟨bytes.toArray⟩
    | _ => none
  | _ => none

/-- The content of a file in a listing. -/
def listedContent (bytes : ByteArray) : Json :=
  match Text.decode bytes with
  | .ok text => .str text
  | .error _ => .obj [(hexField, .str (.ofList (hexOfBytes bytes.toList)))]

/-- Why a listing gives no tree. -/
inductive ListingError where
  | content (path : String)
  | file (e : FileError)

def ListingError.message : ListingError → String
  | .content path => "No content of a file: " ++ Text.quoted path
  | .file e => e.message

/-- Puts a node into a tree, with the directories that lead to it. -/
def place (t : Tree) (p : Path) : Node → Except FileError Tree
  | .directory => made (t.makeDirectories p)
  | .file bytes => do (← made (t.makeDirectories p.parent)).write p bytes
where
  made : Tree × Option FileError → Except FileError Tree
    | (t, none) => .ok t
    | (_, some e) => .error e

/-- Puts the nodes of a listing into a tree, in order. -/
def placeListed (t : Tree) : List (String × Json) → Except ListingError Tree
  | [] => .ok t
  | (path, content) :: rest =>
    match listedNode? content with
    | none => .error (.content path)
    | some node =>
      match t.place (Path.ofText path) node with
      | .error e => .error (.file e)
      | .ok t => placeListed t rest

/-- A tree with nothing but the way to its working directory. -/
def startingIn (home : Location) : Tree where
  home
  nodes := (List.range home.length).map fun count => (home.take (count + 1), .directory)

def ofListing (home : Location) (fields : List (String × Json)) : Except ListingError Tree :=
  (startingIn home).placeListed fields

/-- The files and the empty directories below a directory. -/
def listing (t : Tree) (root : Path) : List (String × Json) :=
  (nodes root).filterMap fun (p, node) =>
    match node with
    | .file bytes => some (p.text, listedContent bytes)
    | .directory => if (nodes p).isEmpty then some (p.text, .null) else none
where
  nodes (p : Path) : List (Path × Node) := (t.under? p).toOption.getD []

end Scaffold.Tree
