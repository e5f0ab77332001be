import Scaffold.Output.File
import Scaffold.Text.Search
import Scaffold.Text.Case

/-!
Cleaning: deleting the files that are marked as generated, and the directories that are left empty. Of a
file only as much is read as its first line needs; what cannot be read carries no mark.
-/

namespace Scaffold.Output

/-- The number of bytes that are read at once. -/
def pieceSize : Nat := 8192

/-- The index of the byte at which the first line is known to end: a return may have a line feed
after it. -/
def lineEndFrom (at_ : Nat) : List UInt8 → Option Nat
  | [] => none
  | [b] => if b == 10 then some at_ else none
  | b :: rest =>
    if b == 10 then some at_
    else if b == 13 then some (at_ + 1)
    else lineEndFrom (at_ + 1) rest

/-- Are the bytes the start of a text? The last character may be incomplete. -/
def startsText (bytes : List UInt8) : Bool :=
  match Text.firstProblem? 0 0 bytes with
  | none => true
  | some (problem, _) => problem == .unexpectedEnd

/-- The first line of bytes that are no text as a whole: it can be read if the fault comes in a later
piece. -/
def firstLineBeforeFault? (bytes : List UInt8) : Option String :=
  match lineEndFrom 0 bytes with
  | none => none
  | some at_ =>
    if startsText (bytes.take ((at_ / pieceSize + 1) * pieceSize)) then
      (Text.decode ⟨(bytes.takeWhile fun b => b != 10 && b != 13).toArray⟩).toOption
    else none

/-- The first line of a file. -/
def firstLine? (bytes : ByteArray) : Option String :=
  match Text.decode bytes with
  | .ok text => some (Text.firstFileLine text)
  | .error _ => firstLineBeforeFault? bytes.toList

/-- Is a line the mark of generated files? A mark that is no text stands on no line. -/
def isMark (c : Config) (line : String) : Bool :=
  match c.generatedLabel with
  | .str mark => Text.strip line = mark
  | _ => false

/-- Do bytes begin with the mark of generated files? -/
def isMarked (c : Config) (bytes : ByteArray) : Bool := (firstLine? bytes).any (isMark c)

/-- Is the first line of a file the mark of generated files? Only a path that cannot be asked for is
refused. -/
def isGenerated (c : Config) (t : Tree) (p : Path) : Except FileError Bool :=
  match t.read p with
  | .ok bytes => .ok (isMarked c bytes)
  | .error e => if e.isOfSystem then .ok false else .error e

/-- Is the file generated and of a kind that is cleaned? -/
def isDeletable (c : Config) (t : Tree) (p : Path) : Bool :=
  c.customizableExtensions.contains (Text.lower p.suffix) && (t.fileAt? p).any (isMarked c)

/-- Deletes one file. -/
def deleteOne (p : Path) : Action Tree FileError Path := do
  Action.change (·.remove p)
  Action.note (note .debug ("Deleted " ++ p.text))
  return p

/-- Deletes the generated files below a directory, in the order of their paths. -/
def deleteGenerated (c : Config) (root : Path) : Action Tree FileError (List Path) := fun t =>
  (do
    let found ← Action.ofExcept (t.under? root)
    let deleted ← Action.mapEach deleteOne ((found.map (·.1)).filter (isDeletable c t))
    Action.note (note .info
      ("Deleted " ++ toString deleted.length ++ " generated file(s) below " ++ root.text))
    return deleted : Action Tree FileError (List Path)) t

/-- The directories below a root, the deepest first. -/
def directoriesBelow (t : Tree) (root : Path) : Except FileError (List Path) := do
  let all := (← t.under? root).filterMap fun (p, node) =>
    if node == .directory then some p else none
  return all.mergeSort fun p q => decide (q.parts.length ≤ p.parts.length)

/-- Removes those of some directories that are empty when their turn comes. -/
def removeEmpty : List Path → Action Tree FileError (List Path)
  | [], t => ⟨[], t, .ok []⟩
  | p :: rest, t =>
    match t.removeDirectory p with
    | .ok t =>
      let after := removeEmpty rest t
      { after with result := after.result.map (p :: ·) }
    | .error ⟨.notEmpty, _⟩ => removeEmpty rest t
    | .error e => ⟨[], t, .error e⟩

/-- Removes the empty directories below a root, the deepest first. -/
def cleanDirectories (root : Path) : Action Tree FileError (List Path) := fun t =>
  match directoriesBelow t root with
  | .error e => ⟨[], t, .error e⟩
  | .ok directories => removeEmpty directories t

end Scaffold.Output
