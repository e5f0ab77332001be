import Scaffold.Action
import Scaffold.Region.Basic
import Scaffold.Text.Case
import Scaffold.Tree.Basic

/-!
Regions in files. A file is read for its regions; if it is gone, its sidecar is. Saving moves the
regions of a file into its sidecar.
-/

namespace Scaffold.Region

/-- Can files of this name carry regions? -/
def isCustomizable (c : Config) (p : Path) : Bool :=
  c.customizableExtensions.contains (Text.lower p.suffix)

/-- The path of a file's sidecar: the same stem with the custom extension. -/
def sidecarPath (c : Config) (p : Path) : Except PathError Path :=
  p.withName (p.stem ++ c.customExtension.text)

/-- Why a file has no text. -/
inductive ReadFailure where
  | file (e : FileError)
  | undecodable (e : Text.DecodeError)

def ReadFailure.message : ReadFailure → String
  | .file e => e.message
  | .undecodable e => e.message

/-- Does a file that fails so count as one that cannot be read, and not as a fault of the path? -/
def ReadFailure.isOfFile : ReadFailure → Bool
  | .file e => e.isOfSystem
  | .undecodable _ => true

/-- Why the regions for a path are not found or not saved. -/
inductive Failure where
  | path (e : PathError)
  | read (e : ReadFailure)

def Failure.message : Failure → String
  | .path e => e.message
  | .read e => e.message

/-- Is there anything at a path? -/
def isThere (t : Tree) (p : Path) : Except Failure Bool :=
  (t.exists? p).mapError fun e => .read (.file e)

/-- The text of a file, each line end as one character. -/
def readText (t : Tree) (p : Path) : Except ReadFailure String :=
  match t.read p with
  | .error e => .error (.file e)
  | .ok bytes =>
    match Text.decode bytes with
    | .error e => .error (.undecodable e)
    | .ok text => .ok (Text.readNewlines text)

/-- The lines of a file's text. -/
def readLines (t : Tree) (p : Path) : Except ReadFailure (List String) :=
  (readText t p).map Text.splitLines

/-- The regions of a file. -/
def read (c : Config) (t : Tree) (p : Path) : Outcome ReadFailure Regions :=
  match readLines t p with
  | .error e => .fail e
  | .ok lines => ⟨parseNotes c.labels lines p.text, .ok (parse c.labels lines)⟩

def debugNote (message : String) : Note := .record ⟨.debug, .regions, message⟩

/-- Where the regions for a path are looked for: the file, or else its sidecar, if one is there. -/
def priorPath? (c : Config) (t : Tree) (p : Path) : Except Failure (Option Path) := do
  if ← isThere t p then return some p
  let sidecar ← (sidecarPath c p).mapError .path
  return if ← isThere t sidecar then some sidecar else none

/-- The regions of a file that is there. What cannot be read counts as no file. -/
def extractFrom (c : Config) (t : Tree) (candidate : Path) : Outcome Failure (RegionState × Regions) :=
  let found := read c t candidate
  match found.result with
  | .error e =>
    ⟨found.notes ++
      [debugNote ("Could not read prior file " ++ candidate.text ++ ": " ++ e.message)],
      .ok (.noPriorFile, .none)⟩
  | .ok regions =>
    ⟨found.notes ++
      [debugNote ("Read " ++ toString regions.count ++ " custom region(s) from " ++ candidate.text)],
      .ok (if regions.count = 0 then .priorFileFound else .regionsExtracted, regions)⟩

/-- The regions for the artifact at a path. -/
def extract (c : Config) (t : Tree) (p : Path) : Outcome Failure (RegionState × Regions) :=
  match priorPath? c t p with
  | .error e => .fail e
  | .ok none => .ok (.noPriorFile, .none)
  | .ok (some candidate) => extractFrom c t candidate

/-- Merges the regions that a project holds for an artifact into it. -/
def merge (c : Config) (t : Tree) (a : Artifact) (project : Path) : Outcome Failure Artifact :=
  if a.hasRegions then
    (extract c t (a.path project)).bind fun (state, prior) =>
      ⟨mergeNotes a prior, .ok (mergeWith c.labels a state prior)⟩
  else .ok (mergeWith c.labels a .noPriorFile .none)

/-- The lines of a sidecar: the regions that are not empty. -/
def sidecarLines (r : Regions) : List Json :=
  [RegionKind.imports, RegionKind.code].flatMap fun kind =>
    match r.of kind with
    | some region => if region.isEmpty then [] else region.render
    | none => []

/-- The bytes of a sidecar; none if it has no lines. The labels of a region that was found are texts. -/
def sidecarBytes? (r : Regions) : Option ByteArray :=
  let lines := sidecarLines r
  if lines.isEmpty then none
  else some (Text.encode (Text.joinLines (lines.map Json.text)))

def fileFailure (e : FileError) : Failure := .read (.file e)

/-- Takes the sidecar away, if there is one. -/
def removeSidecar (sidecar : Path) : Action Tree Failure Unit :=
  Action.change fun t => do
    if ← isThere t sidecar then (t.remove sidecar).mapError fileFailure else return t

/-- Replaces the sidecar of a file, or removes it if there is nothing to keep. -/
def replaceSidecar (p sidecar : Path) : Option ByteArray → Action Tree Failure (Option Path)
  | none => do
    removeSidecar sidecar
    return none
  | some bytes => do
    removeSidecar sidecar
    Action.change fun t => (t.write sidecar bytes).mapError fileFailure
    Action.note (.record ⟨.info, .regions,
      "Saved custom parts of " ++ p.text ++ " to " ++ sidecar.text⟩)
    return some sidecar

/-- The regions of a file; none if it is not there. -/
def readIfThere (c : Config) (t : Tree) (p : Path) : Outcome Failure Regions :=
  match isThere t p with
  | .error e => .fail e
  | .ok false => .ok .none
  | .ok true =>
    let found := read c t p
    ⟨found.notes, found.result.mapError .read⟩

/-- Moves the regions of a file into its sidecar; the path of the sidecar if one is written. -/
def save (c : Config) (p : Path) : Action Tree Failure (Option Path) := do
  let sidecar ← Action.ofExcept ((sidecarPath c p).mapError .path)
  let regions ← (fun t => Action.ofOutcome (readIfThere c t p) t : Action Tree Failure Regions)
  replaceSidecar p sidecar (sidecarBytes? regions)

/-- Is the failure that of one file, which the others do not share? -/
def isPassedOver : Failure → Bool
  | .path _ => false
  | .read e => e.isOfFile

/-- Saves the regions of some files in turn. A file that cannot be read is reported and passed over;
any other failure ends the run. -/
def saveEach (c : Config) : List Path → Action Tree Failure (List Path)
  | [], t => ⟨[], t, .ok []⟩
  | p :: rest, t =>
    if t.isFile p && isCustomizable c p then
      let saved := save c p t
      match saved.result with
      | .error e =>
        if isPassedOver e then
          let after := saveEach c rest saved.state
          { after with
            notes := saved.notes ++
              .warn p.text ("custom parts not saved: " ++ e.message) :: after.notes }
        else ⟨saved.notes, saved.state, .error e⟩
      | .ok sidecar =>
        let after := saveEach c rest saved.state
        ⟨saved.notes ++ after.notes, after.state, after.result.map (sidecar.toList ++ ·)⟩
    else saveEach c rest t

/-- Saves the regions of every file below a directory. -/
def saveAll (c : Config) (root : Path) : Action Tree Failure (List Path) := fun t =>
  match t.under? root with
  | .error e => ⟨[], t, .error (fileFailure e)⟩
  | .ok found => saveEach c (found.map (·.1)) t

/-- The lines of a file, which is removed; none if there is no such file. -/
def takeLines (t : Tree) (p : Path) : Except ReadFailure (List String × Tree) := do
  if !(← (t.exists? p).mapError .file) then return ([], t)
  let lines ← readLines t p
  let t ← (t.remove p).mapError .file
  return (lines, t)

end Scaffold.Region
