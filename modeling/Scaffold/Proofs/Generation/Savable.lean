import Scaffold.Proofs.Generation.Names
import Scaffold.Proofs.Generation.Repeat
import Scaffold.Proofs.Region.Externalized
import Scaffold.Proofs.Region.HandWritten

/-!
What can be saved. The files below a project have it after a first run, and keep it when lines are put into
them by hand.
-/

namespace Scaffold

open Region Output Scaffold.Tree

variable {c : Config} {t u : Tree} {project p q f s : Path} {as : List Artifact}

namespace Generation

/-- Nothing is below a directory. -/
def EmptyBelow (t : Tree) (root : Path) : Prop := ∀ rest, rest ≠ [] → t.node? (t.placeOf root ++ rest) = none

theorem EmptyBelow.fileAt? (empty : EmptyBelow t project) (below : IsBelow t project p) :
    t.fileAt? p = none := by
  obtain ⟨rest, some_, place⟩ := below
  cases found : t.fileAt? p with
  | none => rfl
  | some bytes =>
    obtain ⟨at_, located, node⟩ := read_eq_ok.mp (fileAt?_eq_some.mp found)
    obtain rfl := (locate_eq_ok located).trans place
    simp [empty rest some_] at node

/-- Where nothing is below a directory, no sidecar is either. -/
theorem EmptyBelow.sidecar (empty : EmptyBelow t project) (sound : t.Sound) {name : String}
    (place : t.placeOf p = t.placeOf p.parent ++ [name]) (below : IsBelow t project p)
    (sidecar : sidecarPath c p = .ok s) : t.fileAt? s = none := by
  cases found : t.fileAt? s with
  | none => rfl
  | some bytes =>
    obtain ⟨at_, located, node⟩ := read_eq_ok.mp (fileAt?_eq_some.mp found)
    have beside := isBelow_of_sidecar sound place below sidecar located (by simp [node])
    rw [← found, empty.fileAt? beside]

theorem linesIn_of_readLines {bytes : ByteArray} {lines : List String} (found : t.read p = .ok bytes)
    (isRead : readLines t p = .ok lines) (kind : RegionKind) :
    linesIn c bytes kind = (parse c.labels lines).linesOf kind := by
  rw [← linesOf_regionsIn, regionsIn_of_readLines found isRead]

/-- What is below a project can be saved: the regions of its files hold no label, and the files bear the
names of generated ones. -/
structure Savable (c : Config) (project : Path) (t : Tree) : Prop where
  sound : t.Sound
  files : ∀ rest bytes, rest ≠ [] → t.node? (t.placeOf project ++ rest) = some (.file bytes) →
    Portable c bytes ∧ ∃ folder name, t.placeOf project ++ rest = folder ++ [name] ∧ Text.EndsIn 's' name

theorem IsBuilt.name {a : Artifact} (h : IsBuilt c t a) (path : filePath c a = .ok p) :
    Text.EndsIn 's' p.name := by
  obtain ⟨target, _, _, _, _, _, isFor, _⟩ := h
  unfold filePath at path
  cases located : c.projectPath a.unit.name with
  | error e => simp [located, Except.map] at path
  | ok project =>
    simp only [located, Except.map, Except.ok.injEq] at path
    obtain ⟨names, last, parts, ends⟩ := isFor.name project
    rw [path] at parts
    simpa [Path.name, parts] using ends

/-- A file below the project after a first run is that of an artifact without custom lines. -/
theorem savable_of_written (legible : c.Legible) (plain : c.formatter = none) (sound : t.Sound)
    (empty : EmptyBelow t project) (built : ∀ a ∈ as, IsBuilt c t a)
    (clean : ∀ a ∈ as, Clean c.labels a) {paths : List Path} (written : (write c as t).result = .ok paths) :
    Savable c project (write c as t).state := by
  have soundU := preserves_write c as t sound
  have writtenEach := write_eq_ok_iff.mp written
  obtain ⟨placed, keeps, laid⟩ := writeEach_eq_ok writtenEach
  rw [← state_write writtenEach] at placed keeps laid
  refine ⟨soundU, fun rest bytes some_ node => ?_⟩
  rw [keeps.placeOf] at node ⊢
  have here := laid (t.placeOf project ++ rest)
  cases last : lastAt (as.filterMap (fileOf? t c)) (t.placeOf project ++ rest) with
  | none => simp [last, empty rest some_, node] at here
  | some content =>
    obtain rfl : bytes = content := by simpa [last, node] using here
    obtain ⟨b, memB, fileB⟩ := List.mem_filterMap.mp (mem_of_lastAt last)
    obtain ⟨p, path, encoded, place⟩ := fileOf?_eq_some_iff.mp fileB
    obtain ⟨p', at_, _, path', _, isPlace⟩ := placed b memB
    obtain rfl := Except.ok.inj (path.symm.trans path')
    obtain rfl : at_ = t.placeOf project ++ rest := by rw [← isPlace.eq_placeOf, keeps.placeOf, place]
    obtain ⟨_, _, _, eq⟩ := soundU.lastName isPlace.located (by simp [node])
    rw [keeps.placeOf] at eq
    have below : IsBelow t project p := ⟨rest, some_, place⟩
    have unwritten : Unwritten c t [b] := by
      intro b' mem q pathQ
      obtain rfl := List.mem_singleton.mp mem
      obtain rfl := Except.ok.inj (path.symm.trans pathQ)
      exact ⟨empty.fileAt? below, fun s sidecar => empty.sidecar sound (place.trans eq) below sidecar⟩
    have found := read_eq_ok.mpr ⟨_, isPlace.located, node⟩
    obtain ⟨lines, isRead, none_⟩ :=
      linesOf_readLines legible plain (built b memB) (clean b memB) unwritten encoded found
    refine ⟨fun kind x hx => ?_, _, p.name, eq, (built b memB).name path⟩
    rw [linesIn_of_readLines found isRead, none_ kind] at hx
    simp at hx

/-- Lines that are written by hand leave the files so. -/
theorem Savable.handWritten (h : Savable c project t) (edited : HandWritten c.labels t u) :
    Savable c project u := by
  induction edited with
  | none => exact h
  | insert _ file single free ih =>
    have ne := ne_nil_of_node? file (by simp)
    refine ⟨ih.sound.put (ih.sound.straight _ _ file) (ih.sound.folders _ _ file) (by simp [file]) _, ?_⟩
    intro rest bytes some_ node
    rw [placeOf_put] at node ⊢
    rw [node?_put _ ne] at node
    split at node
    · rename_i here
      rw [← here] at file
      obtain ⟨portable, named⟩ := ih.files rest _ some_ file
      obtain rfl := Node.file.inj (Option.some.inj node)
      exact ⟨portable.insert single free, named⟩
    · exact ih.files rest bytes some_ node

/-- No sidecar is a file with regions: a custom extension that cannot be one of theirs is the end of its
name. -/
theorem Savable.sidecar_ne (h : Savable c project t) {extension : String}
    (dot : c.customExtension.text = "." ++ extension) (single : '.' ∉ extension.toList)
    (other : c.customizableExtensions.contains (Text.lower c.customExtension.text) = false)
    (mem : f ∈ customizableFiles c t project) (sidecar : sidecarPath c p = .ok s) :
    t.locate s ≠ t.locate f := by
  intro same
  obtain ⟨isFile, customizable, above, rest, located, _, below, there, rfl⟩ :=
    (mem_customizableFiles h.sound).mp mem
  obtain ⟨at_, bytes, locatedF, node⟩ := isFile_eq_true.mp isFile
  obtain rfl := (locate_eq_ok locatedF).trans (h.sound.placeOf_listed located there)
  obtain ⟨_, _, _, eq⟩ := h.sound.lastName locatedF (by simp [node])
  obtain ⟨_, _, _, eq'⟩ := h.sound.lastName (same.trans locatedF) (by simp [node])
  have name := List.singleton_inj.mp (List.append_inj' (eq.symm.trans eq') rfl).2
  obtain ⟨whole, some_⟩ := sidecarPath_eq_ok sidecar
  have chars : s.name.toList = p.stem.toList ++ '.' :: extension.toList := by
    simp [whole, Path.name, dot]
  have suffix := Path.suffix_of_lastDot (Path.stem_ne_nil some_) single chars
  by_cases none_ : extension.toList = []
  · obtain ⟨_, folder, last, eq', ends⟩ := h.files rest bytes below (locate_eq_ok located ▸ node)
    rw [← locate_eq_ok located, eq] at eq'
    obtain rfl := List.singleton_inj.mp (List.append_inj' eq' rfl).2
    rw [name] at ends
    have := ends.unique ⟨p.stem.toList, by rw [chars, none_]⟩
    simp at this
  · rw [if_neg none_] at suffix
    rw [isCustomizable, Path.suffix, name, suffix] at customizable
    have ext : String.ofList ('.' :: extension.toList) = c.customExtension.text := by
      rw [dot]
      simp
    rw [ext, other] at customizable
    simp at customizable

end Generation

end Scaffold
