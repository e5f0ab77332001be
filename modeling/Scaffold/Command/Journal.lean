import Scaffold.Command.Failure

/-!
The log file of a run. It is opened before the run starts and stays open: every step of a command adds its
records at the end of what the file holds then. A file that is removed, or replaced by a new one of its
name, takes no more of them.
-/

namespace Scaffold.Command

/-- A log file that is open: where it is, which records it keeps, and the time that is put before them. -/
structure Journal where
  path : Path
  least : Log.Level
  time : String

/-- What a command works on. -/
structure Desk where
  tree : Tree
  /-- The open log file, while it is in the tree. -/
  journal : Option Journal

/-- A step of a command. -/
abbrev Acting := Action Desk Failure

namespace Journal

/-- The line of a record, behind the time. -/
def line (j : Journal) (r : Log.Record) : String := j.time ++ " " ++ r.line ++ "\n"

/-- The bytes of the lines that some notes leave. A line without bytes is left out. -/
def bytes (j : Journal) (notes : List Note) : ByteArray :=
  ((Log.atLeast j.least (Note.records notes)).filterMap fun r =>
    (Text.encode? (j.line r)).toOption).foldl (· ++ ·) ByteArray.empty

/-- Opens a log file; one that is not there is made. -/
def openIn (t : Tree) (path : Path) : Except FileError Tree :=
  t.write path ((t.fileAt? path).getD ByteArray.empty)

end Journal

namespace Desk

/-- Adds the records of some notes to the log file, if it is there. -/
def enter (d : Desk) (notes : List Note) : Desk :=
  match d.journal with
  | none => d
  | some j =>
    match d.tree.fileAt? j.path with
    | none => { d with journal := none }
    | some old =>
      match d.tree.write j.path (old ++ j.bytes notes) with
      | .ok tree => { d with tree }
      | .error _ => d

/-- Does a path lead to the log file? -/
def isJournal (d : Desk) (p : Path) : Bool :=
  match d.journal, d.tree.locate p with
  | some j, .ok spot => (d.tree.locate j.path).toOption == some spot
  | _, _ => false

/-- Closes the log file, if it is among files that stand in the place of older ones. -/
def closeReplaced (d : Desk) (replaced : List Path) : Desk :=
  if replaced.any d.isJournal then { d with journal := none } else d

end Desk

/-- A step that looks at the tree. -/
def looking {ε α : Type} (make : ε → Failure) (f : Tree → Outcome ε α) : Acting α := fun d =>
  let found := f d.tree
  ⟨found.notes, d.enter found.notes, found.result.mapError make⟩

/-- A step that changes the tree. `replaced` are the files of its result that stand in the place of older
ones. -/
def changing {ε α : Type} (make : ε → Failure) (replaced : α → List Path) (x : Action Tree ε α) :
    Acting α := fun d =>
  let ended := x d.tree
  let d : Desk := { d with tree := ended.state }
  let d := d.closeReplaced ((ended.result.toOption.map replaced).getD [])
  ⟨ended.notes, d.enter ended.notes, ended.result.mapError make⟩

/-- A step that only leaves a note. -/
def noting (n : Note) : Acting Unit := looking (ε := Failure) id fun _ => Outcome.note n

end Scaffold.Command
