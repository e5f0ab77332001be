import Scaffold.Proofs.Output.Cleaning
import Scaffold.Proofs.Region.Inserted
import Scaffold.Proofs.Region.Saved

/-!
Saving the regions of a directory and cleaning it. Afterwards the regions of a file that is gone are found
in its sidecar, and all other regions where they were.
-/

namespace Scaffold

open Scaffold.Tree

namespace Region

variable {c : Config} {t u : Tree} {p q f s : Path} {at_ : Location} {bytes saved : ByteArray}
  {files later : List Path}

/-- The lines of a region in the file at a path; none if it cannot be read. -/
def linesAt (c : Config) (t : Tree) (p : Path) (kind : RegionKind) : List String :=
  match t.fileAt? p with
  | some bytes => linesIn c bytes kind
  | none => []

theorem extractFrom_eq (c : Config) (t : Tree) (candidate : Path) :
    ∃ state r, (extractFrom c t candidate).result = .ok (state, r) ∧
      ∀ kind, r.linesOf kind = linesAt c t candidate kind := by
  unfold extractFrom read linesAt
  cases found : t.read candidate with
  | error e =>
    have none_ : t.fileAt? candidate = none := by
      cases file : t.fileAt? candidate with
      | none => rfl
      | some bytes => simp [fileAt?_eq_some.mp file] at found
    refine ⟨.noPriorFile, .none, ?_, fun kind => by simp [none_]⟩
    simp [readLines, readText, found, Except.map, Outcome.fail]
  | ok bytes =>
    simp only [fileAt?_eq_some.mpr found]
    cases decoded : Text.decode bytes with
    | error e =>
      refine ⟨.noPriorFile, .none, ?_, fun kind => by simp [linesIn, decoded]⟩
      simp [readLines, readText, found, decoded, Except.map, Outcome.fail]
    | ok text =>
      let r := parse c.labels (Text.splitLines (Text.readNewlines text))
      refine ⟨if r.count = 0 then .priorFileFound else .regionsExtracted, r, ?_, fun kind =>
        (linesIn_of_decode decoded kind).symm⟩
      simp [readLines, readText, found, decoded, Except.map, r]

theorem extract_of_there (there : t.exists? p = .ok true) :
    ∃ state r, (extract c t p).result = .ok (state, r) ∧ ∀ kind, r.linesOf kind = linesAt c t p kind := by
  have prior : priorPath? c t p = .ok (some p) := by
    simp [priorPath?, isThere, there, bind, Except.bind, pure, Except.pure]
  simpa [extract, prior] using extractFrom_eq c t p

theorem extract_of_gone (gone : t.exists? p = .ok false) (sidecar : sidecarPath c p = .ok s)
    {there : Bool} (known : t.exists? s = .ok there) :
    ∃ state r, (extract c t p).result = .ok (state, r) ∧ ∀ kind, r.linesOf kind = linesAt c t s kind := by
  have prior : priorPath? c t p = .ok (if there then some s else none) := by
    simp [priorPath?, isThere, gone, sidecar, known, bind, Except.bind, pure, Except.pure]
  cases there with
  | true => simpa [extract, prior] using extractFrom_eq c t s
  | false =>
    have none_ : t.fileAt? s = none := by
      unfold exists? at known
      unfold fileAt?
      cases node : t.nodeAt? s with
      | error e => rfl
      | ok found => cases found <;> simp_all [Except.map]
    exact ⟨.noPriorFile, .none, by simp [extract, prior, Outcome.ok], by simp [linesAt, none_]⟩

/-- What is extracted was read from the file or, if it is gone, from its sidecar. -/
theorem extract_eq_ok {state : RegionState} {r : Regions} (h : (extract c t p).result = .ok (state, r)) :
    t.exists? p = .ok true ∨
      t.exists? p = .ok false ∧ ∃ s there, sidecarPath c p = .ok s ∧ t.exists? s = .ok there := by
  unfold extract at h
  cases isThere_ : t.exists? p with
  | error e =>
    simp [priorPath?, isThere, isThere_, bind, Except.bind, Outcome.fail] at h
  | ok there =>
    cases there with
    | true => exact .inl rfl
    | false =>
      cases sidecar : sidecarPath c p with
      | error e =>
        simp [priorPath?, isThere, isThere_, sidecar, bind, Except.bind, Outcome.fail] at h
      | ok s =>
        cases known : t.exists? s with
        | error e =>
          simp [priorPath?, isThere, isThere_, sidecar, known, bind, Except.bind,
            Outcome.fail] at h
        | ok there => exact .inr ⟨rfl, s, there, rfl, known⟩

theorem sidecarPath_eq_ok (h : sidecarPath c p = .ok s) :
    s = ⟨p.parent.anchor, p.parent.parts ++ [p.stem ++ c.customExtension.text]⟩ ∧ p.name ≠ "" := by
  unfold sidecarPath Path.withName at h
  split at h
  · simp at h
  · rename_i some_
    simp only at h
    split at h
    · simp at h
    · exact ⟨(Except.ok.inj h).symm, some_⟩

/-- Paths that lead to one file have their sidecars at one place. -/
theorem Saves.place_eq (sound : t.Sound) (saves : Saves c t f at_ bytes) (same : t.locate p = t.locate f)
    (sidecar : sidecarPath c p = .ok s) {place : Location} (isPlace : IsPlace t s place) :
    place = at_ := by
  obtain ⟨s', sidecar', isPlace'⟩ := saves.sidecar
  obtain ⟨at', located, file⟩ := read_eq_ok.mp saves.found
  have notDir : t.node? at' ≠ some .directory := by simp [file]
  obtain ⟨_, _, _, eq⟩ := sound.lastName located notDir
  obtain ⟨_, _, _, eq'⟩ := sound.lastName (same.trans located) notDir
  obtain ⟨folder, last⟩ := List.append_inj' (eq.symm.trans eq') rfl
  have stem : p.stem = f.stem := by
    rw [Path.stem, Path.stem, List.singleton_inj.mp last]
  have leads := isPlace.eq_placeOf
  have leads' := isPlace'.eq_placeOf
  rw [(sidecarPath_eq_ok sidecar).1, placeOf_append, ← folder, stem] at leads
  rw [(sidecarPath_eq_ok sidecar').1, placeOf_append, leads] at leads'
  exact leads'

/-- A sidecar is in the folder that the path of its file leads through. -/
theorem place_of_sidecar (sound : t.Sound) (sidecar : sidecarPath c p = .ok s) (located : t.locate s = .ok at_)
    (node : t.node? at_ ≠ some .directory) : at_ = t.placeOf p.parent ++ [s.name] := by
  obtain ⟨_, _, _, eq⟩ := sound.lastName located node
  have above : s.parent = p.parent := by
    rw [(sidecarPath_eq_ok sidecar).1]
    simp [Path.parent]
  rwa [above] at eq

/-- The sidecars of files go where nothing is. No other file and none of the paths of a later run leads
there or has its sidecar there. -/
structure SidecarsFree (c : Config) (t : Tree) (files later : List Path) : Prop where
  room : ∀ p ∈ files ++ later, (∃ f ∈ files, t.locate p = t.locate f) →
    ∃ s at_, sidecarPath c p = .ok s ∧ IsPlace t s at_ ∧ t.node? at_ = none
  alone : ∀ f ∈ files, ∀ s, sidecarPath c f = .ok s → ∀ p ∈ files ++ later,
    t.locate p ≠ t.locate s ∧
      ∀ q, sidecarPath c p = .ok q → t.locate q = t.locate s → t.locate p = t.locate f

/-- A path leads neither to one of some files nor to the sidecar of one. -/
structure Apart (c : Config) (t : Tree) (files : List Path) (p : Path) : Prop where
  file : ∀ f ∈ files, t.locate p ≠ t.locate f
  sidecar : ∀ f ∈ files, ∀ s, sidecarPath c f = .ok s → t.locate p ≠ t.locate s

/-- The regions of files are in their sidecars, and nothing else but the files themselves changed. -/
structure Externalized (c : Config) (files : List Path) (t u : Tree) : Prop where
  same : SameDirectories t u
  sidecar : ∀ f ∈ files, ∀ at_ bytes, Saves c t f at_ bytes →
    u.node? at_ = (keptOf? c bytes).map .file
  file : ∀ f ∈ files, ∀ at_, t.locate f = .ok at_ →
    u.node? at_ = t.node? at_ ∨ u.node? at_ = none
  other : ∀ at_, (∀ f ∈ files, t.locate f ≠ .ok at_) →
    (∀ f ∈ files, ∀ bytes, ¬Saves c t f at_ bytes) → u.node? at_ = t.node? at_

theorem nodeAt?_of_located (located : t.locate p = .ok at_) :
    t.nodeAt? p = .ok (t.node? at_) := by
  simp [nodeAt?, located]

theorem linesAt_congr (node : u.nodeAt? p = t.nodeAt? p) (kind : RegionKind) :
    linesAt c u p kind = linesAt c t p kind := by
  simp only [linesAt, fileAt?, node]

theorem sameRegions_of_there (there : t.exists? p = .ok true) (node : u.nodeAt? p = t.nodeAt? p) :
    SameRegions c t u p := by
  intro state r extracted
  obtain ⟨_, r₀, extracted₀, lines⟩ := extract_of_there (c := c) there
  obtain ⟨state', r', extracted', lines'⟩ := extract_of_there (c := c) (exists?_congr node ▸ there)
  obtain rfl : r = r₀ := by simp_all
  exact ⟨state', r', extracted', fun kind => by rw [lines', lines, linesAt_congr node]⟩

theorem sameRegions_of_gone (gone : t.exists? p = .ok false) (sidecar : sidecarPath c p = .ok s)
    {there : Bool} (known : t.exists? s = .ok there) (node : u.nodeAt? p = t.nodeAt? p)
    (nodeS : u.nodeAt? s = t.nodeAt? s) : SameRegions c t u p := by
  intro state r extracted
  obtain ⟨_, r₀, extracted₀, lines⟩ := extract_of_gone (c := c) gone sidecar known
  obtain ⟨state', r', extracted', lines'⟩ :=
    extract_of_gone (exists?_congr node ▸ gone) sidecar (exists?_congr nodeS ▸ known)
  obtain rfl : r = r₀ := by simp_all
  exact ⟨state', r', extracted', fun kind => by rw [lines', lines, linesAt_congr nodeS]⟩

/-- A file that is gone is found in its sidecar with the lines that it had. -/
theorem sameRegions_of_moved (there : t.exists? p = .ok true) (gone : u.exists? p = .ok false)
    (sidecar : sidecarPath c p = .ok s) {known : Bool} (isKnown : u.exists? s = .ok known)
    (moved : ∀ kind, linesAt c u s kind = linesAt c t p kind) : SameRegions c t u p := by
  intro state r extracted
  obtain ⟨_, r₀, extracted₀, lines⟩ := extract_of_there (c := c) there
  obtain ⟨state', r', extracted', lines'⟩ := extract_of_gone (c := c) gone sidecar isKnown
  obtain rfl : r = r₀ := by simp_all
  exact ⟨state', r', extracted', fun kind => by rw [lines', lines, moved]⟩

theorem SidecarsFree.saves (free : SidecarsFree c t files later) (mem : f ∈ files)
    (customizable : isCustomizable c f = true) (found : t.read f = .ok bytes) :
    ∃ at_, Saves c t f at_ bytes := by
  obtain ⟨s, at_, sidecar, isPlace, none_⟩ := free.room f (List.mem_append_left _ mem) ⟨f, mem, rfl⟩
  exact ⟨at_, customizable, found, ⟨s, sidecar, isPlace⟩, none_⟩

/-- Sidecars are free where each of the files has its own place for one, and a later run writes no other. -/
theorem sidecarsFree_of_places {place : Path → Location} (isFile : ∀ f ∈ files, t.isFile f = true)
    (room : ∀ f ∈ files, ∃ s, sidecarPath c f = .ok s ∧ IsPlace t s (place f) ∧ t.node? (place f) = none)
    (distinct : (files.map place).Nodup) (same : ∀ p ∈ later, p ∈ files) : SidecarsFree c t files later := by
  have among : ∀ p ∈ files ++ later, p ∈ files := fun p mem => (List.mem_append.mp mem).elim id (same p)
  constructor
  · intro p mem _
    obtain ⟨s, sidecar, isPlace, none_⟩ := room p (among p mem)
    exact ⟨s, place p, sidecar, isPlace, none_⟩
  · intro f memF s sidecar p memP
    obtain ⟨s', sidecar', isPlace, none_⟩ := room f memF
    obtain rfl := Except.ok.inj (sidecar.symm.trans sidecar')
    refine ⟨fun leads => ?_, fun q sidecarQ leads => ?_⟩
    · obtain ⟨at_, bytes, located, node⟩ := isFile_eq_true.mp (isFile p (among p memP))
      obtain rfl : at_ = place f := by simpa [isPlace.located] using located.symm.trans leads
      simp [node] at none_
    · obtain ⟨q', sidecarQ', isPlaceQ, -⟩ := room p (among p memP)
      obtain rfl := Except.ok.inj (sidecarQ.symm.trans sidecarQ')
      rw [isPlaceQ.located, isPlace.located, Except.ok.injEq] at leads
      rw [List.inj_on_of_nodup_map distinct (among p memP) memF leads]

namespace Externalized

/-- What is neither one of the files nor one of their sidecars is as before. -/
theorem nodeAt? (h : Externalized c files t u) (apart : Apart c t files p) :
    u.nodeAt? p = t.nodeAt? p := by
  refine h.same.nodeAt? fun at_ located => h.other at_ (fun f mem => ?_) fun f mem bytes saves => ?_
  · rw [← located]
    exact (apart.file f mem).symm
  · obtain ⟨s, sidecar, isPlace⟩ := saves.sidecar
    exact apart.sidecar f mem s sidecar (located.trans isPlace.located.symm)

/-- The regions of a file that is gone are found in its sidecar. -/
theorem linesAt_sidecar (h : Externalized c files t u) (mem : f ∈ files) (saves : Saves c t f at_ bytes)
    (proper : c.labels.Proper) (portable : Portable c bytes) (located : t.locate s = .ok at_)
    (kind : RegionKind) :
    linesAt c u s kind = linesIn c bytes kind := by
  have node := nodeAt?_of_located (h.same.keeps.locate located)
  rw [h.sidecar f mem at_ bytes saves] at node
  rw [linesIn_keptOf? proper portable, linesAt, fileAt?, node]
  cases keptOf? c bytes <;> rfl

/-- A path that leads to one of the files finds its regions: in the file or, once that is gone, in its
sidecar. -/
theorem sameRegions_of_file (h : Externalized c files t u) (sound : t.Sound) (proper : c.labels.Proper)
    (mem : f ∈ files) (customizable : isCustomizable c f = true) (found : t.read f = .ok bytes)
    (portable : Portable c bytes) (free : SidecarsFree c t files later) (memAll : p ∈ files ++ later)
    (same : t.locate p = t.locate f) (there : t.exists? p = .ok true) : SameRegions c t u p := by
  obtain ⟨place, located, node⟩ := read_eq_ok.mp found
  have leads := same.trans located
  have node' := nodeAt?_of_located (h.same.keeps.locate leads)
  rcases h.file f mem place located with kept | gone
  · rw [kept, ← nodeAt?_of_located leads] at node'
    exact sameRegions_of_there there node'
  · obtain ⟨at_, saves⟩ := free.saves mem customizable found
    obtain ⟨s, place', sidecar, isPlace, _⟩ := free.room p memAll ⟨f, mem, same⟩
    -- the sidecar of `p` is the one that the saving of `f` wrote, since both names are the last of `place`
    obtain rfl := saves.place_eq sound same sidecar isPlace
    have goneU : u.exists? p = .ok false := by
      simp [exists?, node', gone, Except.map]
    have knownU : u.exists? s = .ok (u.node? place').isSome := by
      simp [exists?, nodeAt?_of_located (h.same.keeps.locate isPlace.located), Except.map]
    have here : t.fileAt? p = some bytes :=
      fileAt?_eq_some.mpr (read_eq_ok.mpr ⟨place, leads, node⟩)
    refine sameRegions_of_moved there goneU sidecar knownU fun kind => ?_
    rw [h.linesAt_sidecar mem saves proper portable isPlace.located, linesAt, here]

/-- A path of a later run finds the regions that it would have found before. -/
theorem sameRegions (h : Externalized c files t u) (sound : t.Sound) (proper : c.labels.Proper)
    (customizable : ∀ f ∈ files, isCustomizable c f = true) (isFile : ∀ f ∈ files, t.isFile f = true)
    (portable : ∀ f ∈ files, ∀ bytes, t.read f = .ok bytes → Portable c bytes)
    (free : SidecarsFree c t files later) (mem : p ∈ later)
    (apart : ∀ s, sidecarPath c p = .ok s → ∀ f ∈ files, t.locate s ≠ t.locate f) :
    SameRegions c t u p := by
  intro state r extracted
  have memAll : p ∈ files ++ later := List.mem_append_right _ mem
  by_cases isOf : ∃ f ∈ files, t.locate p = t.locate f
  · obtain ⟨f, memF, same⟩ := isOf
    obtain ⟨place, bytes, located, node⟩ := isFile_eq_true.mp (isFile f memF)
    have found : t.read f = .ok bytes := read_eq_ok.mpr ⟨place, located, node⟩
    have there : t.exists? p = .ok true := by
      simp [exists?, nodeAt?_of_located (same.trans located), node, Except.map]
    exact h.sameRegions_of_file sound proper memF (customizable f memF) found (portable f memF bytes found)
      free memAll same there state r extracted
  · have notFile : ∀ f ∈ files, t.locate p ≠ t.locate f := fun f memF same => isOf ⟨f, memF, same⟩
    have node : u.nodeAt? p = t.nodeAt? p :=
      h.nodeAt? ⟨notFile, fun f memF s sidecar => (free.alone f memF s sidecar p memAll).1⟩
    rcases extract_eq_ok extracted with there | ⟨gone, s, _, sidecar, known⟩
    · exact sameRegions_of_there there node state r extracted
    · -- a sidecar that were also the one of a saved file would make `p` lead to that file
      have nodeS : u.nodeAt? s = t.nodeAt? s := by
        refine h.nodeAt? ⟨apart s sidecar, fun f memF s' sidecar' sameS => ?_⟩
        exact notFile f memF ((free.alone f memF s' sidecar' p memAll).2 s sidecar sameS)
      exact sameRegions_of_gone gone sidecar known node nodeS state r extracted

end Externalized

theorem keptLines_cons {l : RegionLabels} {lines : RegionKind → List String}
    (some_ : keptLines l lines ≠ []) : ∃ kind rest, keptLines l lines = (l.beginOf kind).text :: rest := by
  unfold keptLines keptBlock at *
  by_cases imports : lines .imports = []
  · by_cases code : lines .code = []
    · simp [imports, code] at some_
    · exact ⟨.code, lines .code ++ [(l.endOf .code).text], by simp [imports, code, block]⟩
  · rw [if_neg imports]
    exact ⟨.imports, _, rfl⟩

/-- A sidecar begins with a label, which is not the mark of generated files. -/
theorem not_isMarked_kept (proper : c.labels.Proper)
    (single : ∀ label ∈ c.labels.all, Text.isSingleLine label.text = true)
    (unlike : isLabelLine c.labels c.generatedLabel.text = false) (kept : keptOf? c bytes = some saved) :
    Output.isMarked c saved = false := by
  unfold keptOf? at kept
  split at kept
  · rw [sidecarBytes?_eq (parse_labelled c.labels _)] at kept
    split at kept
    · simp at kept
    · rename_i some_
      obtain ⟨kind, rest, lines⟩ := keptLines_cons some_
      have labelMem := c.labels.beginOf_mem_all kind
      obtain rfl := Option.some.inj kept
      rw [Output.isMarked, Output.firstLine?, Text.decode_encode, lines]
      simp only [Text.firstFileLine_joinLines (single _ labelMem), Option.any_some, Output.isMark]
      split
      · rename_i mark eq
        obtain ⟨text, label, stripped, _⟩ := proper.texts _ labelMem
        have isLabel := isLabelLine_text proper labelMem
        rw [label, Json.text] at isLabel ⊢
        rw [eq, Json.text] at unlike
        rw [stripped, decide_eq_false_iff_not]
        rintro rfl
        simp [isLabel] at unlike
      · rfl
  · simp at kept

theorem deletable_file (h : Output.isDeletable c t p = true) (located : t.locate p = .ok at_) :
    isCustomizable c p = true ∧ ∃ bytes, t.node? at_ = some (.file bytes) ∧ Output.isMarked c bytes = true := by
  simp only [Output.isDeletable, Bool.and_eq_true, Option.any_eq_true] at h
  obtain ⟨customizable, bytes, found, marked⟩ := h
  obtain ⟨place, located', node⟩ := read_eq_ok.mp (fileAt?_eq_some.mp found)
  obtain rfl : place = at_ := by simpa [located] using located'.symm
  exact ⟨customizable, bytes, node, marked⟩

/-- A file that cleaning deletes and that saving left alone was below the directory before. -/
theorem mem_customizableFiles_of_deletable {root : Path} {found : List (Path × Node)} (sound : t.Sound)
    (soundU : u.Sound) (same : SameDirectories t u) (listed : u.under? root = .ok found)
    (mem : p ∈ found.map (·.1)) (deletable : Output.isDeletable c u p = true)
    (located : u.locate p = .ok at_) (unchanged : u.node? at_ = t.node? at_) :
    p ∈ customizableFiles c t root := by
  obtain ⟨customizable, content, node, _⟩ := deletable_file deletable located
  obtain ⟨above, rest, locatedRoot, dir, some_, there, rfl⟩ := ((soundU.under?_eq_ok listed).2 p).mp mem
  have back := same.symm
  obtain rfl := (locate_eq_ok located).trans (soundU.placeOf_listed locatedRoot there)
  rw [unchanged] at node there
  exact (mem_customizableFiles sound).mpr
    ⟨isFile_eq_true.mpr ⟨_, content, back.keeps.locate located, node⟩, customizable, above, rest,
      back.keeps.locate locatedRoot, back.keeps.directory above dir, some_, there, rfl⟩

theorem customizableFiles_inj {root : Path} (sound : t.Sound) (hp : p ∈ customizableFiles c t root)
    (hq : q ∈ customizableFiles c t root) (same : t.locate p = t.locate q) : p = q := by
  obtain ⟨file, _, above, rest, located, _, _, there, rfl⟩ := (mem_customizableFiles sound).mp hp
  obtain ⟨_, _, above', rest', located', _, _, there', rfl⟩ := (mem_customizableFiles sound).mp hq
  obtain rfl : above = above' := by simpa [located] using located'
  obtain ⟨place, bytes, locatedP, _⟩ := isFile_eq_true.mp file
  have leads := (locate_eq_ok locatedP).symm.trans (locate_eq_ok (same.symm.trans locatedP))
  rw [sound.placeOf_listed located there, sound.placeOf_listed located there'] at leads
  simpa using leads

/-- A path leads to what is below a directory. -/
def IsBelow (t : Tree) (root p : Path) : Prop := ∃ rest, rest ≠ [] ∧ t.placeOf p = t.placeOf root ++ rest

theorem append_eq_concat {above rest folder : Location} {name : String}
    (eq : above ++ rest = folder ++ [name]) (some_ : rest ≠ []) :
    ∃ between, folder = above ++ between := by
  rcases List.eq_nil_or_concat rest with none_ | ⟨between, last, rfl⟩
  · exact absurd none_ some_
  · rw [List.concat_eq_append, ← List.append_assoc] at eq
    exact ⟨between, (List.append_inj' eq rfl).1.symm⟩

/-- Beside what is below a directory everything is. -/
theorem isBelow_of_sidecar {root : Path} (sound : t.Sound) {name : String}
    (place : t.placeOf p = t.placeOf p.parent ++ [name]) (below : IsBelow t root p)
    (sidecar : sidecarPath c p = .ok s) (located : t.locate s = .ok at_) (node : t.node? at_ ≠ some .directory) :
    IsBelow t root s := by
  obtain ⟨rest, some_, place'⟩ := below
  obtain ⟨between, folder⟩ := append_eq_concat (place'.symm.trans place) some_
  refine ⟨between ++ [s.name], by simp, ?_⟩
  rw [← List.append_assoc, ← folder, ← place_of_sidecar sound sidecar located node]
  exact (locate_eq_ok located).symm

/-- Saving what a directory holds and cleaning it runs through, and moves the regions of the files there
into their sidecars. -/
theorem externalized {root : Path} (sound : t.Sound) (proper : c.labels.Proper)
    (single : ∀ label ∈ c.labels.all, Text.isSingleLine label.text = true)
    (unlike : isLabelLine c.labels c.generatedLabel.text = false)
    (free : SidecarsFree c t (customizableFiles c t root) later) :
    (∀ found, t.under? root = .ok found →
      (∃ saved, (saveAll c root t).result = .ok saved) ∧
        ∃ deleted, (Output.deleteGenerated c root (saveAll c root t).state).result = .ok deleted) ∧
      Externalized c (customizableFiles c t root) t
        (Output.deleteGenerated c root (saveAll c root t).state).state := by
  have files : ∀ f ∈ customizableFiles c t root, _ := fun f => (mem_customizableFiles sound).mp
  have room : ∀ f ∈ customizableFiles c t root, ∃ at_ bytes, Saves c t f at_ bytes := by
    intro f mem
    obtain ⟨file, customizable, _⟩ := files f mem
    obtain ⟨bytes, found⟩ := Option.isSome_iff_exists.mp file
    obtain ⟨at_, saves⟩ := free.saves mem customizable (fileAt?_eq_some.mp found)
    exact ⟨at_, bytes, saves⟩
  obtain ⟨saved, filled, kept, others⟩ := saveAll_run sound room fun p hp q hq at_ b b' savesP savesQ => by
    obtain ⟨s, sidecar, isPlace⟩ := savesP.sidecar
    obtain ⟨s', sidecar', isPlace'⟩ := savesQ.sidecar
    refine customizableFiles_inj sound hp hq ?_
    exact (free.alone q hq s' sidecar' p (List.mem_append_left _ hp)).2 s sidecar
      (isPlace.located.trans isPlace'.located.symm)
  have soundSaved := preserves_saveAll c root t sound
  obtain ⟨deleted, same, nodes⟩ := @Output.deleteGenerated_run c _ root soundSaved
  refine ⟨fun found listed => ⟨saved found listed, ?_⟩, filled.sameDirectories.trans same, ?_, ?_, ?_⟩
  · obtain ⟨found', listed'⟩ := filled.sameDirectories.under? listed
    exact deleted found' listed'
  · intro f mem at_ bytes saves
    have saved := kept f mem at_ bytes saves
    rcases nodes at_ with unchanged | ⟨gone, _, _, p, _, deletable, located⟩
    · exact unchanged.trans saved
    · -- what was saved there begins with a label, so it is not one of the marked files
      obtain ⟨_, content, node, marked⟩ := deletable_file deletable located
      rw [saved, Option.map_eq_some_iff] at node
      obtain ⟨content', isKept, eq⟩ := node
      obtain rfl := Node.file.inj eq
      simp [not_isMarked_kept proper single unlike isKept] at marked
  · intro f mem at_ located
    obtain ⟨file, _⟩ := files f mem
    obtain ⟨place, bytes, located', node⟩ := isFile_eq_true.mp file
    obtain rfl : place = at_ := by simpa [located] using located'.symm
    rw [← filled.kept (by simp [node])]
    exact (nodes place).imp id And.left
  · intro at_ notFile notSidecar
    have saved := others at_ notSidecar
    rcases nodes at_ with unchanged | ⟨_, found, listed, p, listedP, deletable, located⟩
    · exact unchanged.trans saved
    · refine absurd (filled.sameDirectories.symm.keeps.locate located) (notFile p ?_)
      exact mem_customizableFiles_of_deletable sound soundSaved filled.sameDirectories listed listedP
        deletable located saved

end Region

end Scaffold
