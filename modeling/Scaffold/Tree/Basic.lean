import Scaffold.Path
import Scaffold.Text.Utf8

/-!
A tree of files and directories from the root on, which is always there, with the working directory in it. A
file holds bytes. Every operation says which path it refused and why.

A file has one name, the one that is listed: under a name that spells a character by its bytes nothing is found.
-/

namespace Scaffold

/-- A place in the tree: the names on the way down from the root. -/
abbrev Location := List String

inductive Node where
  | file (bytes : ByteArray)
  | directory
  deriving DecidableEq, Inhabited

structure Tree where
  /-- The working directory. -/
  home : Location
  nodes : List (Location × Node)
  deriving DecidableEq, Inhabited

/-- Why an operation on the tree was refused. -/
inductive Obstacle where
  | notFound
  | notDirectory
  | isDirectory
  | exists_
  | notEmpty
  | nameTooLong
  /-- The path holds a null character. -/
  | nullCharacter
  /-- The path has no bytes. -/
  | unencodable (e : Text.EncodeError)
  deriving DecidableEq, Repr

def Obstacle.code : Obstacle → Nat
  | .notFound => 2
  | .exists_ => 17
  | .notDirectory => 20
  | .isDirectory => 21
  | .notEmpty => 39
  | .nameTooLong => 36
  | .nullCharacter | .unencodable _ => 0

def Obstacle.words : Obstacle → String
  | .notFound => "No such file or directory"
  | .exists_ => "File exists"
  | .notDirectory => "Not a directory"
  | .isDirectory => "Is a directory"
  | .notEmpty => "Directory not empty"
  | .nameTooLong => "File name too long"
  | .nullCharacter => "embedded null byte"
  | .unencodable e => e.message

/-- The word for the kind of refusal. -/
def Obstacle.name : Obstacle → String
  | .notFound => "FileNotFoundError"
  | .exists_ => "FileExistsError"
  | .notDirectory => "NotADirectoryError"
  | .isDirectory => "IsADirectoryError"
  | .notEmpty | .nameTooLong => "OSError"
  | .nullCharacter => "ValueError"
  | .unencodable _ => "UnicodeEncodeError"

structure FileError where
  obstacle : Obstacle
  path : Path
  deriving DecidableEq, Repr

/-- Is the refusal one of the file system? Else the path cannot even be asked for. -/
def FileError.isOfSystem (e : FileError) : Bool :=
  match e.obstacle with
  | .nullCharacter | .unencodable _ => false
  | _ => true

def FileError.message (e : FileError) : String :=
  if e.isOfSystem then
    "[Errno " ++ toString e.obstacle.code ++ "] " ++ e.obstacle.words ++ ": " ++ Text.quoted e.path.text
  else e.obstacle.words

/-- The refusal with its kind, as details of a report. -/
def FileError.details (e : FileError) : String :=
  e.obstacle.name ++ "(" ++ (if e.isOfSystem then toString e.obstacle.code ++ ", " else "") ++
    Text.quoted e.obstacle.words ++ ")"

namespace Tree

/-- The root alone, as the working directory. -/
def empty : Tree := ⟨[], []⟩

/-- What is at a location. -/
def node? (t : Tree) (at_ : Location) : Option Node :=
  if at_ = [] then some .directory else t.nodes.lookup at_

/-- Puts a node at a location. -/
def put (t : Tree) (at_ : Location) (node : Node) : Tree where
  home := t.home
  nodes :=
    if (t.nodes.lookup at_).isSome then
      t.nodes.map fun (place, old) => if place = at_ then (place, node) else (place, old)
    else t.nodes ++ [(at_, node)]

/-- Takes the node at a location away. -/
def erase (t : Tree) (at_ : Location) : Tree where
  home := t.home
  nodes := t.nodes.filter fun (place, _) => place ≠ at_

/-- A name has at most this many bytes. -/
def nameLimit : Nat := 255

/-- A whole path has at most this many bytes. -/
def pathLimit : Nat := 4095

/-- The location from which the names of a path lead on. -/
def start (t : Tree) : Anchor → Location
  | .relative | .workingDirectory => t.home
  | .root | .doubleRoot => []

/-- The location that names lead to. All but the last name have to be directories; above the root is the root. -/
def walk (t : Tree) (at_ : Location) : List String → Except Obstacle Location
  | [] => .ok at_
  | name :: rest =>
    match t.node? at_ with
    | some .directory =>
      if name = ".." then walk t at_.dropLast rest
      else if nameLimit < Text.nameSize name then .error .nameTooLong
      else walk t (at_ ++ [name]) rest
    | some (.file _) => .error .notDirectory
    | none => .error .notFound

/-- Why a path leads nowhere, whatever is there. -/
def impossible? (p : Path) : Option Obstacle :=
  match Text.firstHalves? Text.isNameByte 0 (Text.chars p.text) with
  | some e => some (.unencodable e)
  | none =>
    if (Text.chars p.text).contains '\x00' then some .nullCharacter
    else if pathLimit < Text.nameSize p.text then some .nameTooLong
    else if p.parts.any fun name => (Text.chars name).contains '/' || Text.spellsCharacter (Text.chars name) then
      some .notFound
    else none

/-- The location of a path, which starts in a directory. -/
def locate (t : Tree) (p : Path) : Except Obstacle Location :=
  match impossible? p with
  | some obstacle => .error obstacle
  | none =>
    if t.node? (t.start p.anchor) = some .directory then t.walk (t.start p.anchor) p.parts
    else .error .notFound

/-- The node of a path, if there is one. A name that is too long is refused; other paths that lead nowhere
have no node. -/
def nodeAt? (t : Tree) (p : Path) : Except FileError (Option Node) :=
  match t.locate p with
  | .ok at_ => .ok (t.node? at_)
  | .error .nameTooLong => .error ⟨.nameTooLong, p⟩
  | .error _ => .ok none

/-- Is there anything at a path? -/
def exists? (t : Tree) (p : Path) : Except FileError Bool := (t.nodeAt? p).map Option.isSome

def isDirectory? (t : Tree) (p : Path) : Except FileError Bool :=
  (t.nodeAt? p).map (· == some .directory)

/-- The bytes of a file; nothing for what is no file. -/
def fileAt? (t : Tree) (p : Path) : Option ByteArray :=
  match t.nodeAt? p with
  | .ok (some (.file bytes)) => some bytes
  | _ => none

def isFile (t : Tree) (p : Path) : Bool := (t.fileAt? p).isSome

/-- The bytes of a file. -/
def read (t : Tree) (p : Path) : Except FileError ByteArray :=
  match t.locate p with
  | .error obstacle => .error ⟨obstacle, p⟩
  | .ok at_ =>
    match t.node? at_ with
    | some (.file bytes) => .ok bytes
    | some .directory => .error ⟨.isDirectory, p⟩
    | none => .error ⟨.notFound, p⟩

/-- Makes the bytes the content of a file, new or old. -/
def write (t : Tree) (p : Path) (bytes : ByteArray) : Except FileError Tree :=
  match t.locate p with
  | .error obstacle => .error ⟨obstacle, p⟩
  | .ok at_ =>
    -- the way to a place without a node ends in a directory, or is blocked
    match t.node? at_, t.node? at_.dropLast with
    | some .directory, _ => .error ⟨.isDirectory, p⟩
    | _, some .directory => .ok (t.put at_ (.file bytes))
    | _, _ => .error ⟨.notFound, p⟩

/-- Takes a file away. -/
def remove (t : Tree) (p : Path) : Except FileError Tree :=
  match t.locate p with
  | .error obstacle => .error ⟨obstacle, p⟩
  | .ok at_ =>
    match t.node? at_ with
    | some (.file _) => .ok (t.erase at_)
    | some .directory => .error ⟨.isDirectory, p⟩
    | none => .error ⟨.notFound, p⟩

/-- Makes one directory, unless it is there. -/
def makeDirectory (t : Tree) (p : Path) : Except FileError Tree :=
  match t.locate p with
  | .error obstacle => .error ⟨obstacle, p⟩
  | .ok at_ =>
    match t.node? at_ with
    | some .directory => .ok t
    | some (.file _) => .error ⟨.exists_, p⟩
    | none => .ok (t.put at_ .directory)

/-- Makes the directory of the names, given in reverse, and those above it that are missing. The tree is
left with those that were made before a refusal. -/
def makeDirectoriesTo (t : Tree) (anchor : Anchor) : List String → Tree × Option FileError
  | [] => make t ⟨anchor, []⟩
  | name :: above =>
    let p : Path := ⟨anchor, (name :: above).reverse⟩
    match t.locate p with
    | .error .notFound =>
      match makeDirectoriesTo t anchor above with
      | (t, none) => make t p
      | refused => refused
    | _ => make t p
where
  make (t : Tree) (p : Path) : Tree × Option FileError :=
    match t.makeDirectory p with
    | .ok t => (t, none)
    | .error e => (t, some e)

/-- Makes a directory and those above it that are missing. -/
def makeDirectories (t : Tree) (p : Path) : Tree × Option FileError :=
  t.makeDirectoriesTo p.anchor p.parts.reverse

/-- What follows the location `above` on the way to `at_`. -/
def below? : (above at_ : Location) → Option Location
  | [], rest => some rest
  | _, [] => none
  | a :: above, b :: at_ => if a = b then below? above at_ else none

/-- All nodes strictly below a location, by the names that lead on from it. -/
def descendants (t : Tree) (above : Location) : List (Location × Node) :=
  t.nodes.filterMap fun (place, node) =>
    match below? above place with
    | none | some [] => none
    | some rest => some (rest, node)

/-- The order of locations: name by name, character by character. A location comes before those
below it. -/
def inOrder : Location → Location → Bool
  | [], _ => true
  | _ :: _, [] => false
  | a :: as, b :: bs => if a = b then inOrder as bs else decide (a < b)

def precedes (a b : Location × Node) : Bool := inOrder a.1 b.1

/-- All nodes strictly below a directory, in the order of their names; none below anything else. -/
def under? (t : Tree) (root : Path) : Except FileError (List (Path × Node)) :=
  match t.locate root with
  | .ok at_ =>
    .ok <| if t.node? at_ = some .directory then
      ((t.descendants at_).mergeSort precedes).map fun (rest, node) =>
        (⟨root.anchor, root.parts ++ rest⟩, node)
    else []
  | .error .nameTooLong => .error ⟨.nameTooLong, root⟩
  | _ => .ok []

/-- Takes an empty directory away. -/
def removeDirectory (t : Tree) (p : Path) : Except FileError Tree :=
  match t.locate p with
  | .error obstacle => .error ⟨obstacle, p⟩
  | .ok at_ =>
    match t.node? at_ with
    | some .directory =>
      if (t.descendants at_).isEmpty then .ok (t.erase at_) else .error ⟨.notEmpty, p⟩
    | some (.file _) => .error ⟨.notDirectory, p⟩
    | none => .error ⟨.notFound, p⟩

end Tree

end Scaffold
