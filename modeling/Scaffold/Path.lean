import Scaffold.Text.Quoted
import Scaffold.Text.Search

/-!
Paths as text: where they start and the names they pass through. Steps to the same place and doubled
or trailing slashes are left out; steps up are kept.
-/

namespace Scaffold

/-- Where a path starts. Two slashes are a root of their own. -/
inductive Anchor where
  | relative
  | root
  | doubleRoot
  | workingDirectory
  deriving DecidableEq, Repr

structure Path where
  anchor : Anchor
  parts : List String
  deriving DecidableEq, Repr

/-- Why a path has no such neighbour. -/
inductive PathError where
  | emptyName (path : String)
  | invalidName (name : String)
  deriving DecidableEq, Repr

def PathError.message : PathError → String
  | .emptyName path => "PosixPath(" ++ Text.quoted path ++ ") has an empty name"
  | .invalidName name => "Invalid name " ++ Text.quoted name

namespace Path

/-- What is written for the working directory at the start of a path that names it. -/
def workingMark : String := "<cwd>"

def working : Path := ⟨.workingDirectory, []⟩

/-- The names between the slashes, without empty ones and steps to the same place. -/
def partsOf (s : String) : List String :=
  (Text.splitOn '/' s).filter fun part => part != "" && part != "."

def ofText (s : String) : Path :=
  let slashes := (s.toList.takeWhile (· == '/')).length
  match slashes with
  | 0 => ⟨.relative, partsOf s⟩
  | 2 => ⟨.doubleRoot, partsOf s⟩
  | _ => ⟨.root, partsOf s⟩

def text (p : Path) : String :=
  let names := "/".intercalate p.parts
  match p.anchor with
  | .relative => if p.parts.isEmpty then "." else names
  | .root => "/" ++ names
  | .doubleRoot => "//" ++ names
  | .workingDirectory => if p.parts.isEmpty then workingMark else workingMark ++ "/" ++ names

/-- The path `q` seen from `p`; one with a start of its own stays as it is. -/
def join (p q : Path) : Path :=
  if q.anchor = .relative then ⟨p.anchor, p.parts ++ q.parts⟩ else q

def name (p : Path) : String := p.parts.getLast?.getD ""

def parent (p : Path) : Path := ⟨p.anchor, p.parts.dropLast⟩

/-- The name before and from its last dot; a dot at either end divides nothing. -/
def splitName (name : String) : String × String :=
  let cs := name.toList
  let after := cs.reverse.takeWhile (· != '.')
  let stem := cs.take (cs.length - after.length - 1)
  if after.length < cs.length && !after.isEmpty && !stem.isEmpty then
    (String.ofList stem, String.ofList (cs.drop stem.length))
  else (name, "")

def stem (p : Path) : String := (splitName p.name).1

def suffix (p : Path) : String := (splitName p.name).2

/-- The same path with another last name. The name is one part of a path, and is kept as it is given. -/
def withName (p : Path) (name : String) : Except PathError Path :=
  if p.name = "" then .error (.emptyName p.text)
  else
    let q := ofText name
    if q.anchor ≠ .relative ∨ q.parts.length ≠ 1 ∨ Text.endsWith "/" name then
      .error (.invalidName name)
    else .ok ⟨p.anchor, p.parts.dropLast ++ [name]⟩

/-- The names without steps up, each taken against the name before it; `passed` are those before, in reverse.
Above a root there is nothing, above another start a step up stays. -/
def collapse (isRoot : Bool) : (passed : List String) → List String → List String
  | passed, [] => passed.reverse
  | passed, name :: rest =>
    if name ≠ ".." then collapse isRoot (name :: passed) rest
    else match passed with
      | [] => if isRoot then collapse isRoot [] rest else collapse isRoot [name] rest
      | last :: before =>
        if last = ".." then collapse isRoot (name :: passed) rest else collapse isRoot before rest

/-- The same path without steps up, where a name comes before them. -/
def collapsed (p : Path) : Path :=
  ⟨p.anchor, collapse (p.anchor == .root || p.anchor == .doubleRoot) [] p.parts⟩

end Path

end Scaffold
