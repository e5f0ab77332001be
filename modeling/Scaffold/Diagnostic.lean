import Scaffold.Json.Entries
import Scaffold.Log

/-!
What a run found wrong without failing. A note is either such a diagnostic, which is also a record of
the log, or a plain record.
-/

namespace Scaffold

structure Diagnostic where
  /-- A name, or what was given in place of one. -/
  source : Json
  message : String

namespace Diagnostic

def text (d : Diagnostic) : String :=
  if d.source.isSet then d.source.text ++ ": " ++ d.message else d.message

def record (d : Diagnostic) : Log.Record := ⟨.warning, .diagnostics, d.text⟩

/-- A diagnostic as a pair. -/
def toJson (d : Diagnostic) : Json := .arr [d.source, .str d.message]

/-- The diagnostics of one source. -/
def forSource (source : Json) (ds : List Diagnostic) : List Diagnostic :=
  ds.filter fun d => d.source.equals source

end Diagnostic

inductive Note where
  | diagnostic (d : Diagnostic)
  | record (r : Log.Record)

namespace Note

def diagnostic? : Note → Option Diagnostic
  | .diagnostic d => some d
  | .record _ => none

def toRecord : Note → Log.Record
  | .diagnostic d => d.record
  | .record r => r

/-- The diagnostics among some notes, in order. -/
def diagnostics (notes : List Note) : List Diagnostic := notes.filterMap diagnostic?

/-- The log that some notes leave. -/
def records (notes : List Note) : List Log.Record := notes.map toRecord

theorem diagnostics_append (a b : List Note) :
    diagnostics (a ++ b) = diagnostics a ++ diagnostics b := by
  simp [diagnostics]

def warn (source message : String) : Note := .diagnostic ⟨.str source, message⟩

end Note

end Scaffold
