import Scaffold.Action
import Scaffold.Artifact
import Scaffold.Config.Basic
import Scaffold.Tree.Basic

/-!
Writing artifacts. A file holds the formatted body below the line that marks it as generated; every
artifact goes below the folder of its unit. A file is opened before its text is made: one whose text cannot
be made is left empty.
-/

namespace Scaffold.Output

/-- The body of a file as it is formatted. -/
def formatted (c : Config) (body : List Json) : Except Misfit (List Json) :=
  match c.formatter with
  | none => .ok body
  | some (.change f) => f body
  | some (.value v) => .error (.notCallable v.kindName)

/-- The lines of a file. The mark comes after the formatter, which cannot lose it. -/
def lines (c : Config) (a : Artifact) : Except Misfit (List Json) :=
  (formatted c a.source).map fun body =>
    if c.writeHeader.isSet then c.generatedLabel :: body else body

/-- The text of a file. -/
def render (c : Config) (a : Artifact) : Except Misfit String := (lines c a).bind Artifact.joined?

/-- The path of an artifact's file. -/
def filePath (c : Config) (a : Artifact) : Except Misfit Path :=
  (c.projectPath a.unit.name).map a.path

def note (level : Log.Level) (message : String) : Note := .record ⟨level, .writing, message⟩

/-- Why a file is not written. -/
inductive WriteFailure where
  | misfit (what : Misfit)
  | file (e : FileError)
  | unencodable (e : Text.EncodeError)

/-- The bytes of a file. -/
def bytes (c : Config) (a : Artifact) : Except WriteFailure ByteArray := do
  let text ← (render c a).mapError .misfit
  (Text.encode? text).mapError .unencodable

/-- Makes a directory and those that lead to it. What was made before a refusal stays. -/
def makeDirectories (p : Path) : Action Tree FileError Unit := fun t =>
  match t.makeDirectories p with
  | (t, none) => ⟨[], t, .ok ()⟩
  | (t, some e) => ⟨[], t, .error e⟩

/-- Puts bytes into a file, after making the directories that lead to it. -/
def place (p : Path) (bytes : ByteArray) : Action Tree FileError Unit := do
  makeDirectories p.parent
  Action.change (·.write p bytes)

/-- Opens a file anew, after making the directories that lead to it. -/
def openAnew (p : Path) : Action Tree FileError Unit := place p ByteArray.empty

/-- Writes one artifact. -/
def writeOne (c : Config) (a : Artifact) : Action Tree WriteFailure Path := do
  let p ← Action.ofExcept ((filePath c a).mapError .misfit)
  (openAnew p).mapError .file
  let content ← Action.ofExcept (bytes c a)
  (Action.change (·.write p content)).mapError .file
  Action.note (note .debug ("Wrote " ++ p.text))
  return p

/-- The note after all files are written. -/
def writtenNote (count : Nat) : Note := note .info ("Wrote " ++ toString count ++ " file(s)")

/-- Writes artifacts in turn; those before a refusal stay written. -/
def write (c : Config) (as : List Artifact) : Action Tree WriteFailure (List Path) := do
  let written ← Action.mapEach (writeOne c) as
  Action.note (writtenNote written.length)
  return written

end Scaffold.Output
