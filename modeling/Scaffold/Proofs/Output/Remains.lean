import Scaffold.Config.Options
import Scaffold.Proofs.Output.Cleaning
import Scaffold.Proofs.Output.Emptying
import Scaffold.Proofs.Outcome

/-!
What remains below a directory that is cleaned: the files that do not count as generated, and the directories
that lead to them. Nothing else is changed, and all that is gone is named once.
-/

namespace Scaffold

namespace Output

open Scaffold.Tree

variable {c : Config} {t v u : Tree} {root p : Path} {above rest x : Location} {bytes : ByteArray}

/-- The content at some names below a root is deleted: the last name has a suffix of the kinds that are
cleaned, and the content begins with the mark. -/
def Doomed (c : Config) (root : Path) (rest : Location) (bytes : ByteArray) : Prop :=
  c.customizableExtensions.contains (Text.lower (⟨root.anchor, root.parts ++ rest⟩ : Path).suffix) = true ∧
    isMarked c bytes = true

/-- Of a text: its first line, without blanks at its ends, is the mark. -/
theorem doomed_of_text {text : String} (decoded : Text.decode bytes = .ok text) :
    Doomed c root rest bytes ↔
      Text.lower (⟨root.anchor, root.parts ++ rest⟩ : Path).suffix ∈ c.customizableExtensions ∧
        c.generatedLabel = .str (Text.strip (Text.firstFileLine text)) := by
  have marked : isMarked c bytes = true ↔
      c.generatedLabel = .str (Text.strip (Text.firstFileLine text)) := by
    simp only [isMarked, firstLine?, decoded, Option.any_some, isMark]
    split
    · rename_i mark isText
      simp [isText, eq_comm]
    · rename_i other
      simpa using fun same => other _ same
  rw [Doomed, marked, List.contains_iff_mem]

/-- From the tree `t` the files that count as generated are gone. Everything else is as it was. -/
structure Purged (c : Config) (root : Path) (above : Location) (t v : Tree) : Prop where
  sound : v.Sound
  home : v.home = t.home
  gone : ∀ rest bytes, rest ≠ [] → t.node? (above ++ rest) = some (.file bytes) → Doomed c root rest bytes →
    v.node? (above ++ rest) = none
  kept : ∀ x, (∀ rest bytes, rest ≠ [] → x = above ++ rest → t.node? x = some (.file bytes) →
    ¬ Doomed c root rest bytes) → v.node? x = t.node? x

namespace Purged

theorem directory (h : Purged c root above t v) (x : Location) :
    v.node? x = some .directory ↔ t.node? x = some .directory := by
  constructor
  · intro there
    rw [← there]
    refine (h.kept x ?_).symm
    rintro rest bytes some_ rfl file doomed
    rw [h.gone rest bytes some_ file doomed] at there
    cases there
  · intro there
    refine (h.kept x ?_).trans there
    rintro rest bytes - - file
    rw [there] at file
    cases file

theorem file (h : Purged c root above t v) (some_ : rest ≠ []) :
    v.node? (above ++ rest) = some (.file bytes) ↔
      t.node? (above ++ rest) = some (.file bytes) ∧ ¬ Doomed c root rest bytes := by
  have kept (content : ByteArray) (file : t.node? (above ++ rest) = some (.file content))
      (stays : ¬ Doomed c root rest content) : v.node? (above ++ rest) = some (.file content) := by
    refine (h.kept _ ?_).trans file
    intro other bytes _ same file'
    obtain rfl := List.append_cancel_left same
    rw [file] at file'
    obtain rfl := Node.file.inj (Option.some.inj file')
    exact stays
  refine ⟨fun there => ?_, fun ⟨file, stays⟩ => kept bytes file stays⟩
  cases before : t.node? (above ++ rest) with
  | none =>
    rw [h.kept _ fun other bytes _ _ file => by simp [before] at file, before] at there
    cases there
  | some node =>
    cases node with
    | directory =>
      rw [(h.directory _).mpr before] at there
      cases there
    | file content =>
      by_cases doomed : Doomed c root rest content
      · rw [h.gone rest content some_ before doomed] at there
        cases there
      · rw [kept content before doomed] at there
        obtain rfl := Node.file.inj (Option.some.inj there)
        exact ⟨rfl, doomed⟩

end Purged

theorem preserves_deleteEach (ps : List Path) : (Action.mapEach deleteOne ps).Preserves Sound :=
  .mapEach fun _ _ => .bind (.change fun _ _ removed sound => sound.remove removed) fun _ =>
    .bind (.note _) fun _ => .ok _

theorem isDeletable_iff (located : t.locate ⟨root.anchor, root.parts ++ rest⟩ = .ok x) :
    isDeletable c t ⟨root.anchor, root.parts ++ rest⟩ = true ↔
      ∃ bytes, t.node? x = some (.file bytes) ∧ Doomed c root rest bytes := by
  have file (bytes : ByteArray) : t.fileAt? ⟨root.anchor, root.parts ++ rest⟩ = some bytes ↔
      t.node? x = some (.file bytes) := by
    simp [fileAt?_eq_some, read_eq_ok, located]
  simp only [isDeletable, Bool.and_eq_true, Option.any_eq_true, file, Doomed]
  constructor
  · rintro ⟨kind, bytes, there, mark⟩
    exact ⟨bytes, there, kind, mark⟩
  · rintro ⟨bytes, there, kind, mark⟩
    exact ⟨kind, bytes, there, mark⟩

/-- Deleting runs through. It deletes the files that count as generated, each once. -/
theorem deleteGenerated_eq_ok (sound : t.Sound) (there : t.node? above = some .directory)
    (reached : ∀ rest, (t.node? (above ++ rest)).isSome = true →
      t.locate ⟨root.anchor, root.parts ++ rest⟩ = .ok (above ++ rest)) :
    ∃ deleted, (deleteGenerated c root t).result = .ok deleted ∧ deleted.Nodup ∧
      (∀ p, p ∈ deleted ↔ ∃ rest bytes, rest ≠ [] ∧ t.node? (above ++ rest) = some (.file bytes) ∧
        Doomed c root rest bytes ∧ p = ⟨root.anchor, root.parts ++ rest⟩) ∧
      Purged c root above t (deleteGenerated c root t).state := by
  have located : t.locate root = .ok above := by
    simpa using reached [] (by simp [there])
  obtain ⟨found, listed⟩ : ∃ found, t.under? root = .ok found := by simp [under?, located]
  obtain ⟨nodup, below⟩ := sound.under?_eq_ok listed
  have members : ∀ p, p ∈ (found.map (·.1)).filter (isDeletable c t) ↔
      ∃ rest bytes, rest ≠ [] ∧ t.node? (above ++ rest) = some (.file bytes) ∧
        Doomed c root rest bytes ∧ p = ⟨root.anchor, root.parts ++ rest⟩ := by
    intro p
    rw [List.mem_filter, below p]
    constructor
    · rintro ⟨⟨above', rest, located', -, some_, isThere, rfl⟩, deletable⟩
      obtain rfl : above = above' := by simpa [located] using located'
      obtain ⟨bytes, file, doomed⟩ := (isDeletable_iff (reached rest isThere)).mp deletable
      exact ⟨rest, bytes, some_, file, doomed, rfl⟩
    · rintro ⟨rest, bytes, some_, file, doomed, rfl⟩
      have isThere : (t.node? (above ++ rest)).isSome = true := by simp [file]
      exact ⟨⟨above, rest, located, there, some_, isThere, rfl⟩,
        (isDeletable_iff (reached rest isThere)).mpr ⟨bytes, file, doomed⟩⟩
  obtain ⟨-, same, nodes⟩ := deleteEach_run (deletable_isFile found) (deletable_apart (c := c) sound listed)
  refine ⟨_, result_deleteGenerated sound listed, nodup.filter _, members, ?_⟩
  rw [state_deleteGenerated listed]
  refine ⟨preserves_deleteEach _ _ sound, same.home, fun rest bytes some_ file doomed => ?_, fun x stays => ?_⟩
  · rcases nodes (above ++ rest) with ⟨-, others⟩ | ⟨gone, -⟩
    · refine absurd (reached rest (by simp [file])) (others _ ((members _).mpr ?_))
      exact ⟨rest, bytes, some_, file, doomed, rfl⟩
    · exact gone
  · rcases nodes x with ⟨kept, -⟩ | ⟨-, p, mem, locatedP⟩
    · exact kept
    · obtain ⟨rest, bytes, some_, file, doomed, rfl⟩ := (members p).mp mem
      rw [reached rest (by simp [file])] at locatedP
      obtain rfl := Except.ok.inj locatedP
      exact absurd doomed (stays rest bytes some_ rfl file)

/-- A text below a root survives cleaning: its last name has a suffix of another kind, or its first line,
without blanks at its ends, is not the mark. -/
def Survives (c : Config) (root : Path) (rest : Location) (bytes : ByteArray) : Prop :=
  ∃ text, Text.decode bytes = .ok text ∧
    (Text.lower (⟨root.anchor, root.parts ++ rest⟩ : Path).suffix ∉ c.customizableExtensions ∨
      c.generatedLabel ≠ .str (Text.strip (Text.firstFileLine text)))

theorem survives_iff {text : String} (decoded : Text.decode bytes = .ok text) :
    Survives c root rest bytes ↔ ¬ Doomed c root rest bytes := by
  rw [doomed_of_text decoded, not_and_or]
  constructor
  · rintro ⟨text', decoded', stays⟩
    obtain rfl : text = text' := Except.ok.inj (decoded.symm.trans decoded')
    exact stays
  · exact fun stays => ⟨text, decoded, stays⟩

/-- Both steps of cleaning, from the tree `t` over `v` to `u`. -/
structure Cleaned (c : Config) (root : Path) (above : Location) (t v u : Tree) : Prop where
  purged : Purged c root above t v
  emptied : Emptied v above [] u

namespace Cleaned

theorem file (h : Cleaned c root above t v u) (some_ : rest ≠ [])
    (texts : ∀ rest bytes, t.node? (above ++ rest) = some (.file bytes) →
      ∃ text, Text.decode bytes = .ok text) :
    u.node? (above ++ rest) = some (.file bytes) ↔
      t.node? (above ++ rest) = some (.file bytes) ∧ Survives c root rest bytes := by
  rw [h.emptied.file, h.purged.file some_]
  refine and_congr_right fun file => ?_
  obtain ⟨text, decoded⟩ := texts rest bytes file
  exact (survives_iff decoded).symm

/-- A directory is kept if there is a file below it that is kept. -/
theorem directory (h : Cleaned c root above t v u) (some_ : rest ≠ []) :
    u.node? (above ++ rest) = some .directory ↔ t.node? (above ++ rest) = some .directory ∧
      ∃ more bytes, u.node? (above ++ (rest ++ more)) = some (.file bytes) := by
  rw [← h.purged.directory]
  simp only [h.emptied.file, ← List.append_assoc]
  constructor
  · intro there
    have before := h.emptied.node?_eq_some there
    have full : ¬ Bare v (above ++ rest) := by
      intro bare
      rw [h.emptied.gone rest some_ List.not_mem_nil bare] at there
      cases there
    obtain ⟨more, bytes, -, file⟩ := exists_file_of_not_bare before full
    exact ⟨before, more, bytes, file⟩
  · rintro ⟨before, more, bytes, file⟩
    refine (h.emptied.kept _ fun _ _ _ _ bare => ?_).trans before
    exact bare.noFile more bytes file

theorem outside (h : Cleaned c root above t v u) (apart : ∀ rest, rest ≠ [] → x ≠ above ++ rest) :
    u.node? x = t.node? x := by
  have emptied : u.node? x = v.node? x := h.emptied.kept x fun rest some_ _ same => absurd same (apart rest some_)
  have purged : v.node? x = t.node? x := h.purged.kept x fun rest _ some_ same => absurd same (apart rest some_)
  exact emptied.trans purged

theorem doomed_iff (h : Cleaned c root above t v u) (some_ : rest ≠ [])
    (file : t.node? (above ++ rest) = some (.file bytes)) :
    Doomed c root rest bytes ↔ u.node? (above ++ rest) = none := by
  constructor
  · intro doomed
    cases there : u.node? (above ++ rest) with
    | none => rfl
    | some node =>
      have before := h.emptied.node?_eq_some there
      rw [h.purged.gone rest bytes some_ file doomed] at before
      cases before
  · intro gone
    by_contra stays
    rw [h.emptied.file.mpr ((h.purged.file some_).mpr ⟨file, stays⟩)] at gone
    cases gone

theorem bare_iff (h : Cleaned c root above t v u) (some_ : rest ≠ []) :
    Bare v (above ++ rest) ↔ t.node? (above ++ rest) = some .directory ∧ u.node? (above ++ rest) = none := by
  constructor
  · intro bare
    exact ⟨(h.purged.directory _).mp bare.directory, h.emptied.gone rest some_ List.not_mem_nil bare⟩
  · rintro ⟨there, gone⟩
    by_contra full
    rw [h.emptied.kept _ fun _ _ _ _ => full, (h.purged.directory _).mpr there] at gone
    cases gone

/-- Where all files are deleted, nothing remains. -/
theorem nothing (h : Cleaned c root above t v u)
    (all : ∀ rest bytes, rest ≠ [] → t.node? (above ++ rest) = some (.file bytes) → Doomed c root rest bytes)
    (some_ : rest ≠ []) : u.node? (above ++ rest) = none := by
  have noFile (rest : Location) (some_ : rest ≠ []) (bytes : ByteArray) :
      u.node? (above ++ rest) ≠ some (.file bytes) := by
    rw [Ne, h.emptied.file, h.purged.file some_]
    exact fun ⟨file, stays⟩ => stays (all rest bytes some_ file)
  cases there : u.node? (above ++ rest) with
  | none => rfl
  | some node =>
    cases node with
    | file bytes => exact absurd there (noFile rest some_ bytes)
    | directory =>
      obtain ⟨-, more, bytes, file⟩ := (h.directory some_).mp there
      exact absurd file (noFile _ (by simp [some_]) bytes)

end Cleaned

section Cleaning

variable (sound : t.Sound) (there : t.node? above = some .directory)
  (reached : ∀ rest, (t.node? (above ++ rest)).isSome = true →
    t.locate ⟨root.anchor, root.parts ++ rest⟩ = .ok (above ++ rest))

include sound there reached

/-- Both steps run through where each directory below the root that the way to the root passes has a file that
is kept. What they take away is named once. -/
theorem exists_cleaned
    (stays : ∀ rest, rest ≠ [] → above ++ rest ∈ t.passed root →
      ∃ more bytes, t.node? (above ++ (rest ++ more)) = some (.file bytes) ∧
        ¬ Doomed c root (rest ++ more) bytes) :
    ∃ deleted removed,
      (deleteGenerated c root t).result = .ok deleted ∧ deleted.Nodup ∧
      (∀ p, p ∈ deleted ↔ ∃ rest bytes, rest ≠ [] ∧ t.node? (above ++ rest) = some (.file bytes) ∧
        Doomed c root rest bytes ∧ p = ⟨root.anchor, root.parts ++ rest⟩) ∧
      (cleanDirectories root (deleteGenerated c root t).state).result = .ok removed ∧ removed.Nodup ∧
      (∀ p, p ∈ removed ↔ ∃ rest, rest ≠ [] ∧ Bare (deleteGenerated c root t).state (above ++ rest) ∧
        p = ⟨root.anchor, root.parts ++ rest⟩) ∧
      Cleaned c root above t (deleteGenerated c root t).state
        (cleanDirectories root (deleteGenerated c root t).state).state := by
  obtain ⟨deleted, ranFiles, onceFiles, files, purged⟩ := deleteGenerated_eq_ok (c := c) sound there reached
  have located : t.locate root = .ok above := by
    simpa using reached [] (by simp [there])
  have keeps : KeepsDirectories t (deleteGenerated c root t).state :=
    ⟨purged.home, fun x => (purged.directory x).mpr⟩
  have full : ∀ rest, rest ≠ [] → above ++ rest ∈ (deleteGenerated c root t).state.passed root →
      ¬ Bare (deleteGenerated c root t).state (above ++ rest) := by
    intro rest some_ onWay bare
    rw [keeps.passed] at onWay
    obtain ⟨more, bytes, file⟩ := stays rest some_ onWay
    have kept := (purged.file (by simp [some_])).mpr file
    rw [← List.append_assoc] at kept
    exact bare.noFile more bytes kept
  obtain ⟨removed, ranDirectories, onceDirectories, directories, emptied⟩ :=
    cleanDirectories_run purged.sound (keeps.locate located) (keeps.directory above there)
      (fun rest dir => keeps.locate (reached rest (by simp [(purged.directory _).mp dir]))) full
  exact ⟨deleted, removed, ranFiles, onceFiles, files, ranDirectories, onceDirectories, directories, purged,
    emptied⟩

/-- Cleaning a directory of texts takes away exactly the generated part. The files that remain are those of
other kinds and those without the mark, and the directories those with such a file below them. The directory
itself and all that is not below it are as before, and what is taken away is named once.

The paths of what is below have to be short enough to be found. And the path of the directory may not pass
through a directory below it that goes away, as `x/y/../..` does. -/
theorem clean_exactly
    (texts : ∀ rest bytes, t.node? (above ++ rest) = some (.file bytes) →
      ∃ text, Text.decode bytes = .ok text)
    (stays : ∀ rest, rest ≠ [] → above ++ rest ∈ t.passed root →
      ∃ more bytes, t.node? (above ++ (rest ++ more)) = some (.file bytes) ∧
        Survives c root (rest ++ more) bytes) :
    ∃ deleted removed,
      (deleteGenerated c root t).result = .ok deleted ∧
      (cleanDirectories root (deleteGenerated c root t).state).result = .ok removed ∧
      let u := (cleanDirectories root (deleteGenerated c root t).state).state
      (∀ rest bytes, rest ≠ [] → (u.node? (above ++ rest) = some (.file bytes) ↔
        t.node? (above ++ rest) = some (.file bytes) ∧ Survives c root rest bytes)) ∧
      (∀ rest, rest ≠ [] → (u.node? (above ++ rest) = some .directory ↔
        t.node? (above ++ rest) = some .directory ∧
          ∃ more bytes, u.node? (above ++ (rest ++ more)) = some (.file bytes))) ∧
      (∀ x, (∀ rest, rest ≠ [] → x ≠ above ++ rest) → u.node? x = t.node? x) ∧
      (deleted ++ removed).Nodup ∧
      (∀ p, p ∈ deleted ↔ ∃ rest bytes, rest ≠ [] ∧ p = ⟨root.anchor, root.parts ++ rest⟩ ∧
        t.node? (above ++ rest) = some (.file bytes) ∧ u.node? (above ++ rest) = none) ∧
      ∀ p, p ∈ removed ↔ ∃ rest, rest ≠ [] ∧ p = ⟨root.anchor, root.parts ++ rest⟩ ∧
        t.node? (above ++ rest) = some .directory ∧ u.node? (above ++ rest) = none := by
  have keptOnWay : ∀ rest, rest ≠ [] → above ++ rest ∈ t.passed root → ∃ more bytes,
      t.node? (above ++ (rest ++ more)) = some (.file bytes) ∧ ¬ Doomed c root (rest ++ more) bytes := by
    intro rest some_ onWay
    obtain ⟨more, bytes, file, survives⟩ := stays rest some_ onWay
    obtain ⟨text, decoded⟩ := texts _ _ file
    exact ⟨more, bytes, file, (survives_iff decoded).mp survives⟩
  obtain ⟨deleted, removed, ranFiles, onceFiles, files, ranDirectories, onceDirectories, directories,
    cleaned⟩ := exists_cleaned sound there reached keptOnWay
  refine ⟨deleted, removed, ranFiles, ranDirectories, fun rest bytes some_ => cleaned.file some_ texts,
    fun rest some_ => cleaned.directory some_, fun x apart => cleaned.outside apart, ?_, fun p => ?_, fun p => ?_⟩
  · refine List.nodup_append.mpr ⟨onceFiles, onceDirectories, ?_⟩
    rintro p mem q mem' rfl
    obtain ⟨rest, bytes, some_, file, -, rfl⟩ := (files p).mp mem
    obtain ⟨rest', some', bare, same⟩ := (directories _).mp mem'
    obtain rfl : rest = rest' := by simpa using same
    have directory := ((cleaned.bare_iff some_).mp bare).1
    rw [file] at directory
    cases directory
  · rw [files]
    constructor
    · rintro ⟨rest, bytes, some_, file, doomed, rfl⟩
      exact ⟨rest, bytes, some_, rfl, file, (cleaned.doomed_iff some_ file).mp doomed⟩
    · rintro ⟨rest, bytes, some_, rfl, file, gone⟩
      exact ⟨rest, bytes, some_, file, (cleaned.doomed_iff some_ file).mpr gone, rfl⟩
  · rw [directories]
    constructor
    · rintro ⟨rest, some_, bare, rfl⟩
      exact ⟨rest, some_, rfl, (cleaned.bare_iff some_).mp bare⟩
    · rintro ⟨rest, some_, rfl, gone⟩
      exact ⟨rest, some_, (cleaned.bare_iff some_).mpr gone, rfl⟩

end Cleaning

/-- A check of the content, if the node is a file. -/
def checkFile (check : ByteArray → Bool) : Node → Bool
  | .directory => true
  | .file bytes => check bytes

/-- A check of all nodes is one of every node below a place. -/
theorem check_below {node : Node} (check : Location → Node → Bool) (ne : above ≠ [])
    (all : (t.nodes.all fun entry => (below? above entry.1).all fun rest => check rest entry.2) = true)
    (there : t.node? (above ++ rest) = some node) : check rest node = true := by
  rw [node?_of_ne_nil t (by simp [ne])] at there
  obtain ⟨before, after, nodes, -⟩ := List.lookup_eq_some_iff.mp there
  have each := List.all_eq_true.mp all (above ++ rest, node) (by simp [nodes])
  simpa [below?_eq_some.mpr] using each

/-- Generated files with the mark, one of them alone in its directory, and others that only look like them. -/
def mixedTree : Tree :=
  let generated : Node := .file (Text.encode "//@GeneratedCode \nlet a;\n")
  ((((((empty.put ["gen"] .directory).put ["gen", "a.TS"] generated).put ["gen", "api"] .directory).put
    ["gen", "api", "b.cs"] generated).put ["gen", "src"] .directory).put ["gen", "src", "c.txt"] generated).put
    ["gen", "src", "d.ts"] (.file (Text.encode "let d;\n//@GeneratedCode\n"))

/-- The way to this root passes a directory with a file that is kept. -/
def mixedRoot : Path := ⟨.relative, ["gen", "src", ".."]⟩

theorem sound_mixedTree : mixedTree.Sound := by decide

theorem reached_mixed (isThere : (mixedTree.node? (["gen"] ++ rest)).isSome = true) :
    mixedTree.locate ⟨mixedRoot.anchor, mixedRoot.parts ++ rest⟩ = .ok (["gen"] ++ rest) := by
  obtain ⟨node, there⟩ := Option.isSome_iff_exists.mp isThere
  have found := check_below
    (fun rest _ => (mixedTree.locate ⟨mixedRoot.anchor, mixedRoot.parts ++ rest⟩).toOption =
      some (["gen"] ++ rest))
    (by decide) (by decide +kernel) there
  exact eq_ok_of_toOption (of_decide_eq_true found)

theorem texts_mixed (there : mixedTree.node? (["gen"] ++ rest) = some (.file bytes)) :
    ∃ text, Text.decode bytes = .ok text := by
  have decoded := check_below
    (fun _ => checkFile fun bytes => (Text.decode bytes).toOption.isSome)
    (by decide) (by decide +kernel) there
  obtain ⟨text, decoded⟩ := Option.isSome_iff_exists.mp decoded
  exact ⟨text, eq_ok_of_toOption decoded⟩

/-- Of two directories the one with generated files alone is removed. -/
theorem clean_exactly_mixed :
    let u := (cleanDirectories mixedRoot (deleteGenerated .default mixedRoot mixedTree).state).state
    mixedTree.Sound ∧ u.node? ["gen"] = some .directory ∧ u.node? ["gen", "api"] ≠ some .directory ∧
      u.node? ["gen", "src", "c.txt"] = mixedTree.node? ["gen", "src", "c.txt"] ∧
      u.node? ["gen", "src", "d.ts"] = mixedTree.node? ["gen", "src", "d.ts"] := by
  intro u
  have keptText : Survives .default mixedRoot ["src", "c.txt"] (Text.encode "//@GeneratedCode \nlet a;\n") :=
    ⟨_, eq_ok_of_toOption rfl, .inl (by decide +kernel)⟩
  have keptSource : Survives .default mixedRoot ["src", "d.ts"] (Text.encode "let d;\n//@GeneratedCode\n") :=
    ⟨_, eq_ok_of_toOption rfl, .inr fun same => absurd (Json.str.inj same) (by decide +kernel)⟩
  have stays : ∀ rest, rest ≠ [] → ["gen"] ++ rest ∈ mixedTree.passed mixedRoot → ∃ more bytes,
      mixedTree.node? (["gen"] ++ (rest ++ more)) = some (.file bytes) ∧
        Survives .default mixedRoot (rest ++ more) bytes := by
    intro rest some_ onWay
    obtain rfl : rest = ["src"] := by
      have start : mixedTree.start .relative = [] := rfl
      simpa [passed, passedFrom, mixedRoot, start, some_] using onWay
    exact ⟨["d.ts"], _, rfl, keptSource⟩
  obtain ⟨deleted, removed, -, -, file, directory, outside, -⟩ :=
    clean_exactly sound_mixedTree (by decide) (fun _ => reached_mixed) (fun _ _ => texts_mixed) stays
  refine ⟨sound_mixedTree, outside _ (by simp), fun there => ?_, (file _ _ (by simp)).mpr ⟨rfl, keptText⟩,
    (file _ _ (by simp)).mpr ⟨rfl, keptSource⟩⟩
  obtain ⟨-, more, bytes, inFile⟩ := (directory ["api"] (by simp)).mp there
  obtain ⟨before, survives⟩ := (file _ _ (by simp)).mp inFile
  have doomed := check_below
    (fun rest node => rest.head? != some "api" || checkFile (fun bytes =>
      Config.default.customizableExtensions.contains
        (Text.lower (⟨mixedRoot.anchor, mixedRoot.parts ++ rest⟩ : Path).suffix) && isMarked .default bytes) node)
    (by decide) (by decide +kernel) before
  obtain ⟨text, decoded⟩ := texts_mixed before
  exact (survives_iff decoded).mp survives (Bool.and_eq_true_iff.mp (by simpa [checkFile] using doomed))

/-- Where the way to the root passes a directory that is removed, those after it are not found. -/
example :
    let tree := (empty.put ["x"] .directory).put ["x", "y"] .directory
    let below (names : List String) : Path := ⟨.relative, ["x", "y", "..", ".."] ++ names⟩
    let ended := removeEmpty [below ["x", "y"], below ["x"]] tree
    ended.state = tree.erase ["x", "y"] ∧ ended.result.toOption = none := by
  decide +kernel

end Output

end Scaffold
