import Scaffold.Proofs.Json.Entries
import Scaffold.Proofs.Region.OwnSidecar

/-!
Saving the regions of a directory in which some files are no texts. A file that is no text is reported once and left
alone with its sidecar; each other file has the sidecar that it has when it is saved on its own; and nothing else
changes.
-/

namespace Scaffold

open Scaffold.Tree

/-- Every name in the tree has something in it. -/
def Tree.Named (t : Tree) : Prop := ∀ at_, (t.node? at_).isSome = true → "" ∉ at_

theorem Tree.named_empty : empty.Named := by
  intro at_ there
  by_cases none_ : at_ = [] <;> simp_all [empty, node?]

theorem Tree.Named.put {t : Tree} {at_ : Location} (named : t.Named) (some_ : at_ ≠ []) (new : "" ∉ at_) (node : Node) :
    (t.put at_ node).Named := by
  intro other there
  rw [node?_put t some_] at there
  split at there
  · simp_all
  · exact named other there

namespace Region

variable {c : Config} {t u : Tree} {p q s root : Path} {at_ x : Location} {bytes : ByteArray}
  {reason : Text.DecodeError} {extension : String}

/-- Regions without an end are reported under the path of their file. -/
theorem source_of_readIfThere {d : Diagnostic} (mem : d ∈ Note.diagnostics (readIfThere c t p).notes) :
    d.source = .str p.text := by
  have unclosed (lines : List String) (kind : RegionKind) :
      ∀ d ∈ Note.diagnostics (unclosedNotes c.labels kind lines p.text), d.source = .str p.text := by
    intro d mem
    unfold unclosedNotes at mem
    split at mem
    · obtain rfl := List.mem_singleton.mp mem
      rfl
    · cases mem
  unfold readIfThere at mem
  split at mem
  · cases mem
  · cases mem
  · unfold read at mem
    split at mem
    · cases mem
    · rename_i lines _
      change d ∈ Note.diagnostics (parseNotes c.labels lines p.text) at mem
      rw [parseNotes, Note.diagnostics_append, List.mem_append] at mem
      exact mem.elim (unclosed lines .imports d) (unclosed lines .code d)

/-- What is wrong with a file that is saved is reported under its path. -/
theorem save_records (c : Config) (p : Path) : (save c p).Records fun d => d.source = .str p.text := by
  have removed (s : Path) : (removeSidecar s).Records fun d => d.source = .str p.text := .change _
  have replaced (s : Path) (kept? : Option ByteArray) :
      (replaceSidecar p s kept?).Records fun d => d.source = .str p.text := by
    cases kept? with
    | none => exact .bind (removed s) fun _ => .of_silent fun _ => rfl
    | some bytes =>
      refine .bind (removed s) fun _ => .bind (.change _) fun _ => .bind ?_ fun _ => .of_silent fun _ => rfl
      rintro t d ⟨⟩
  exact .bind (.ofExcept _) fun s => .bind (fun _ _ => source_of_readIfThere) fun regions => replaced s _

/-- Every report of a run is of one of its files. -/
theorem source_of_saveEach {todo : List Path} {d : Diagnostic} (mem : d ∈ Note.diagnostics (saveEach c todo u).notes) :
    ∃ q ∈ todo, (∃ v : Tree, v.isFile q = true) ∧ d.source = .str q.text := by
  induction todo generalizing u with
  | nil => cases mem
  | cons p rest ih =>
    have later {v : Tree} (mem : d ∈ Note.diagnostics (saveEach c rest v).notes) :
        ∃ q ∈ p :: rest, (∃ v : Tree, v.isFile q = true) ∧ d.source = .str q.text := by
      obtain ⟨q, memQ, found⟩ := ih mem
      exact ⟨q, List.mem_cons_of_mem _ memQ, found⟩
    simp only [saveEach] at mem
    split at mem
    · rename_i carries
      have isFile := (Bool.and_eq_true_iff.mp carries).1
      have here (source : d.source = .str p.text) :
          ∃ q ∈ p :: rest, (∃ v : Tree, v.isFile q = true) ∧ d.source = .str q.text :=
        ⟨p, List.mem_cons_self, ⟨u, isFile⟩, source⟩
      split at mem
      · split at mem
        · rw [Note.diagnostics_append, List.mem_append] at mem
          rcases mem with mem | mem
          · exact here (save_records c p u d mem)
          · rcases List.mem_cons.mp mem with rfl | mem
            · exact here rfl
            · exact later mem
        · exact here (save_records c p u d mem)
      · rw [Note.diagnostics_append, List.mem_append] at mem
        exact mem.elim (fun mem => here (save_records c p u d mem)) later
    · exact later mem

theorem saveEach_append {before rest : List Path} {saved : List Path} (ran : (saveEach c before u).result = .ok saved) :
    (saveEach c (before ++ rest) u).notes =
      (saveEach c before u).notes ++ (saveEach c rest (saveEach c before u).state).notes := by
  induction before generalizing u saved with
  | nil => rfl
  | cons p more ih =>
    simp only [List.cons_append, saveEach] at ran ⊢
    split at ran
    · rename_i carries
      simp only [carries, if_true]
      cases result : (save c p u).result with
      | error e =>
        simp only [result] at ran ⊢
        split at ran
        · rename_i passed
          simp only [passed, if_true, ih ran, List.append_assoc, List.cons_append]
        · cases ran
      | ok sidecar =>
        simp only [result] at ran ⊢
        obtain ⟨_, ran, -⟩ := exists_of_map_eq_ok ran
        simp only [ih ran, List.append_assoc]
    · rename_i other
      simp only [other]
      exact ih ran

/-- A file that is no text is not saved. -/
theorem save_of_undecodable (sidecar : sidecarPath c p = .ok s) (file : u.fileAt? p = some bytes)
    (undecodable : Text.decode bytes = .error reason) :
    save c p u = ⟨[], u, .error (.read (.undecodable reason))⟩ := by
  have found := fileAt?_eq_some.mp file
  have unread : readLines u p = .error (.undecodable reason) := by
    simp only [readLines, readText, found, undecodable]
    rfl
  have none_ : readIfThere c u p = ⟨[], .error (.read (.undecodable reason))⟩ := by
    simp only [readIfThere, isThere_of_read found, read, unread]
    rfl
  rw [save_eq sidecar]
  simp only [Action.bind, Action.ofOutcome, none_]

/-- Where a file with regions is found, the directory can be listed. -/
theorem listed_of_mem (mem : p ∈ customizableFiles c t root) : ∃ found, t.under? root = .ok found := by
  unfold customizableFiles at mem
  split at mem
  · exact ⟨_, ‹_›⟩
  · cases mem

/-- What a directory lists is told apart by its text. -/
theorem eq_of_text {found : List (Path × Node)} {v v' : Tree} (sound : t.Sound) (listed : t.under? root = .ok found)
    (memP : p ∈ found.map (·.1)) (memQ : q ∈ found.map (·.1)) (fileP : v.isFile p = true)
    (fileQ : v'.isFile q = true) (same : p.text = q.text) : p = q := by
  have shape {r : Path} (mem : r ∈ found.map (·.1)) : r.anchor = root.anchor ∧ r.parts ≠ [] := by
    obtain ⟨_, rest, _, _, some_, _, rfl⟩ := ((sound.under?_eq_ok listed).2 r).mp mem
    exact ⟨rfl, by simp [some_]⟩
  have slashes {v : Tree} {r : Path} (isFile : v.isFile r = true) : ∀ name ∈ r.parts, '/' ∉ name.toList := by
    obtain ⟨_, _, located, _⟩ := isFile_eq_true.mp isFile
    exact fun name mem => ((impossible?_eq_none.mp (locate_eq_ok_iff.mp located).1).2.2.2 name mem).1
  exact Path.text_inj ((shape memP).1.trans (shape memQ).1.symm) (shape memP).2 (shape memQ).2 (slashes fileP)
    (slashes fileQ) same

/-- Saving what a directory holds goes on past the files that are no texts. -/
structure PassesUnreadable (c : Config) (t : Tree) (root : Path) : Prop where
  /-- No such file ends the run. -/
  never : ∀ reason, (saveAll c root t).result ≠ .error (.read (.undecodable reason))
  through : ∀ found, t.under? root = .ok found → ∃ saved, (saveAll c root t).result = .ok saved
  /-- Each of them is reported once. -/
  once : ∀ p ∈ customizableFiles c t root, ∀ bytes reason, t.fileAt? p = some bytes →
    Text.decode bytes = .error reason →
    Diagnostic.forSource (.str p.text) (Note.diagnostics (saveAll c root t).notes) =
      [⟨.str p.text, "custom parts not saved: " ++ reason.message⟩]
  /-- Each of them is left as it was, with its sidecar. -/
  untouched : ∀ p ∈ customizableFiles c t root, ∀ bytes reason, t.fileAt? p = some bytes →
    Text.decode bytes = .error reason →
    (saveAll c root t).state.nodeAt? p = t.nodeAt? p ∧
      ∃ s, sidecarPath c p = .ok s ∧ (saveAll c root t).state.nodeAt? s = t.nodeAt? s
  /-- The sidecar of each other file is as when the file is saved on its own. -/
  alone : ∀ p ∈ customizableFiles c t root, ∀ bytes text, t.fileAt? p = some bytes →
    Text.decode bytes = .ok text →
    ∃ s, sidecarPath c p = .ok s ∧ (saveAll c root t).state.nodeAt? s = (save c p t).state.nodeAt? s
  /-- Nothing but these sidecars is made, changed or removed. -/
  only : ∀ x, (saveAll c root t).state.node? x ≠ t.node? x →
    ∃ p ∈ customizableFiles c t root, (∃ lines, readLines t p = .ok lines) ∧
      ∃ s, sidecarPath c p = .ok s ∧ t.locate s = .ok x

/-- Trees and sidecars that are saved without one file disturbing another: a tree as a file system has it, an extension
that gives every file its own sidecar, and files with regions that differ in their stems if they are in one folder. -/
structure Undisturbed (c : Config) (t : Tree) (root : Path) : Prop where
  sound : t.Sound
  named : t.Named
  own : ∃ extension, OwnSidecars c extension
  stems : ∀ p ∈ customizableFiles c t root, ∀ q ∈ customizableFiles c t root,
    p.parent = q.parent → p.stem = q.stem → p = q

namespace Undisturbed

variable {found : List (Path × Node)} (h : Undisturbed c t root)

include h

/-- Every file has a sidecar that can be asked for and has no regions. -/
theorem sidecar (mem : p ∈ customizableFiles c t root) :
    ∃ s, sidecarPath c p = .ok s ∧ Askable s ∧ isCustomizable c s = false := by
  obtain ⟨extension, own⟩ := h.own
  obtain ⟨isFile, _, above, rest, _, _, some_, there, rfl⟩ := (mem_customizableFiles h.sound).mp mem
  obtain ⟨_, _, located, _⟩ := isFile_eq_true.mp isFile
  have possible := (locate_eq_ok_iff.mp located).1
  have named : Path.name ⟨root.anchor, root.parts ++ rest⟩ ≠ "" := by
    rw [Path.name, List.getLast?_append, List.getLast?_eq_some_getLast some_]
    rintro (same : rest.getLast some_ = "")
    exact h.named _ there (List.mem_append_right _ (same ▸ List.getLast_mem some_))
  have slash : '/' ∉ (Path.name ⟨root.anchor, root.parts ++ rest⟩).toList :=
    ((impossible?_eq_none.mp possible).2.2.2 _ (by rw [Path.parts_eq named]; simp)).1
  have sidecar := own.sidecarPath named slash
  exact ⟨_, sidecar, own.askable possible sidecar, own.not_isCustomizable sidecar⟩

/-- A sidecar has its place where no file with regions is. -/
theorem clear (customizable : isCustomizable c p = true) (located : t.locate p = .ok at_)
    (mem : q ∈ customizableFiles c t root) : sidecarPlace? c t q ≠ some at_ := by
  obtain ⟨s, sidecar, _, other⟩ := h.sidecar mem
  exact sidecarPlace?_ne h.sound sidecar other customizable located

/-- A place of a sidecar belongs to one file. -/
theorem owner (memP : p ∈ customizableFiles c t root) (sidecar : sidecarPath c p = .ok s)
    (located : t.locate s = .ok x) (memQ : q ∈ customizableFiles c t root)
    (place : sidecarPlace? c t q = some x) : p = q := by
  obtain ⟨extension, own⟩ := h.own
  obtain ⟨_, s', sidecar', located', notDir⟩ := sidecarPlace?_eq_some.mp place
  exact own.eq_of_sidecar h.sound h.stems memP memQ sidecar sidecar' located located' notDir

/-- The run goes through, over all files or over some of them. -/
theorem saved {todo : List Path} (listed : t.under? root = .ok found) (sub : ∀ p ∈ todo, p ∈ found.map (·.1)) :
    (∃ saved, (saveEach c todo t).result = .ok saved) ∧ SameDirectories t (saveEach c todo t).state ∧
      ∀ x, (saveEach c todo t).state.node? x =
        match lastSaved? c t (todo.filter fun p => t.isFile p && isCustomizable c p) x with
        | some p => (keptAt? c t p).map .file
        | none => t.node? x := by
  refine saveEach_last h.sound (.refl t) (fun _ _ => rfl) (fun p mem isFile customizable => ?_)
    fun p _ customizable at_ located q memQ => h.clear customizable located memQ
  have mem : p ∈ customizableFiles c t root := by
    rw [customizableFiles_of_listed listed]
    exact List.mem_filter.mpr ⟨sub p mem, by simp [isFile, customizable]⟩
  obtain ⟨s, sidecar, askable, _⟩ := h.sidecar mem
  exact ⟨mem, s, sidecar, askable⟩

/-- Saving leaves the files with regions as they were. -/
theorem nodeAt?_file {todo : List Path} (listed : t.under? root = .ok found)
    (sub : ∀ p ∈ todo, p ∈ found.map (·.1)) (customizable : isCustomizable c p = true) :
    (saveEach c todo t).state.nodeAt? p = t.nodeAt? p := by
  obtain ⟨-, same, last⟩ := h.saved listed sub
  refine same.nodeAt? fun at_ located => ?_
  rw [last]
  split
  · rename_i q isLast
    obtain ⟨memQ, place⟩ := mem_of_lastSaved? isLast
    obtain ⟨memTodo, carries⟩ := List.mem_filter.mp memQ
    have memQ : q ∈ customizableFiles c t root := by
      rw [customizableFiles_of_listed listed]
      exact List.mem_filter.mpr ⟨sub q memTodo, carries⟩
    exact absurd place (h.clear customizable located memQ)
  · rfl

/-- The run comes to a file that is no text as it was, reports it and goes on. -/
theorem notes_of_undecodable {before after : List Path} (listed : t.under? root = .ok found)
    (split : found.map (·.1) = before ++ p :: after) (mem : p ∈ customizableFiles c t root)
    (file : t.fileAt? p = some bytes) (undecodable : Text.decode bytes = .error reason) :
    (saveAll c root t).notes = (saveEach c before t).notes ++
      .warn p.text ("custom parts not saved: " ++ reason.message) ::
        (saveEach c after (saveEach c before t).state).notes := by
  obtain ⟨-, customizable, -⟩ := (mem_customizableFiles h.sound).mp mem
  obtain ⟨s, sidecar, -⟩ := h.sidecar mem
  have sub : ∀ q ∈ before, q ∈ found.map (·.1) := fun q mem => split ▸ List.mem_append_left _ mem
  obtain ⟨saved, ran⟩ := (h.saved listed sub).1
  have fileHere : (saveEach c before t).state.fileAt? p = some bytes := by
    simpa only [fileAt?, h.nodeAt?_file listed sub customizable] using file
  have here : (saveEach c before t).state.isFile p = true := by simp [Tree.isFile, fileHere]
  rw [saveAll, listed]
  simp only [split]
  rw [saveEach_append ran]
  simp only [saveEach, here, customizable, save_of_undecodable sidecar fileHere undecodable]
  rfl

/-- Saving other files reports nothing for a file. -/
theorem forSource_saveEach {todo : List Path} (listed : t.under? root = .ok found)
    (mem : p ∈ customizableFiles c t root) (sub : ∀ q ∈ todo, q ∈ found.map (·.1)) (apart : p ∉ todo)
    (u : Tree) : Diagnostic.forSource (.str p.text) (Note.diagnostics (saveEach c todo u).notes) = [] := by
  obtain ⟨file, -⟩ := (mem_customizableFiles h.sound).mp mem
  have memP : p ∈ found.map (·.1) := (List.mem_filter.mp (customizableFiles_of_listed listed ▸ mem)).1
  refine List.filter_eq_nil_iff.mpr fun d mem same => apart ?_
  obtain ⟨q, memQ, ⟨v, isFile⟩, source⟩ := source_of_saveEach mem
  -- two listed files have one text only if they are one file
  rw [source, Json.equals_str, Json.str.injEq] at same
  exact eq_of_text h.sound listed (sub q memQ) memP isFile file same ▸ memQ

/-- A file that is no text is reported once. -/
theorem forSource_undecodable (listed : t.under? root = .ok found) (mem : p ∈ customizableFiles c t root)
    (file : t.fileAt? p = some bytes) (undecodable : Text.decode bytes = .error reason) :
    Diagnostic.forSource (.str p.text) (Note.diagnostics (saveAll c root t).notes) =
      [⟨.str p.text, "custom parts not saved: " ++ reason.message⟩] := by
  have memP : p ∈ found.map (·.1) := (List.mem_filter.mp (customizableFiles_of_listed listed ▸ mem)).1
  obtain ⟨before, after, split⟩ := List.append_of_mem memP
  have distinct := (h.sound.under?_eq_ok listed).1
  rw [split] at distinct
  have apart := (List.nodup_cons.mp (List.nodup_middle.mp distinct)).1
  rw [List.mem_append, not_or] at apart
  have others_before := h.forSource_saveEach listed mem
    (fun q mem => split ▸ List.mem_append_left _ mem) apart.1 t
  have others_after := h.forSource_saveEach listed mem
    (fun q mem => split ▸ List.mem_append_right _ (List.mem_cons_of_mem _ mem)) apart.2
    (saveEach c before t).state
  have warned {rest : List Diagnostic} {message : String} :
      Diagnostic.forSource (.str p.text) (⟨.str p.text, message⟩ :: rest) =
        ⟨.str p.text, message⟩ :: Diagnostic.forSource (.str p.text) rest :=
    List.filter_cons_of_pos (Json.equals_str.mpr rfl)
  calc Diagnostic.forSource (.str p.text) (Note.diagnostics (saveAll c root t).notes)
    _ = Diagnostic.forSource (.str p.text) (Note.diagnostics (saveEach c before t).notes) ++
          Diagnostic.forSource (.str p.text) (⟨.str p.text, "custom parts not saved: " ++ reason.message⟩ ::
            Note.diagnostics (saveEach c after (saveEach c before t).state).notes) := by
      rw [h.notes_of_undecodable listed split mem file undecodable, Note.diagnostics_append]
      exact List.filter_append ..
    _ = _ := by rw [others_before, List.nil_append, warned, others_after]

theorem nodes (x : Location) : (saveAll c root t).state.node? x =
    match lastSaved? c t (customizableFiles c t root) x with
    | some p => (keptAt? c t p).map .file
    | none => t.node? x := by
  cases listed : t.under? root with
  | error e => simp [saveAll, customizableFiles, listed, lastSaved?]
  | ok found =>
    simp only [saveAll, customizableFiles, listed]
    exact (h.saved listed fun _ => id).2.2 x

theorem sameDirectories : SameDirectories t (saveAll c root t).state := by
  cases listed : t.under? root with
  | error e =>
    simp only [saveAll, listed]
    exact .refl t
  | ok found =>
    simp only [saveAll, listed]
    exact (h.saved listed fun _ => id).2.1

/-- The sidecar of a file that is no text stays as it was. -/
theorem nodeAt?_sidecar_undecodable (mem : p ∈ customizableFiles c t root) (file : t.fileAt? p = some bytes)
    (undecodable : Text.decode bytes = .error reason) (sidecar : sidecarPath c p = .ok s) :
    (saveAll c root t).state.nodeAt? s = t.nodeAt? s := by
  refine h.sameDirectories.nodeAt? fun x located => ?_
  rw [h.nodes]
  split
  · rename_i q isLast
    obtain ⟨memQ, place⟩ := mem_of_lastSaved? isLast
    obtain rfl := h.owner mem sidecar located memQ place
    obtain ⟨⟨lines, isRead⟩, _⟩ := sidecarPlace?_eq_some.mp place
    obtain ⟨bytes', text, found, decoded, _⟩ := readLines_eq_ok.mp isRead
    obtain rfl := Option.some.inj (file.symm.trans (fileAt?_eq_some.mpr found))
    simp [undecodable] at decoded
  · rfl

/-- The sidecar of a file is as when the file is saved on its own. -/
theorem nodeAt?_sidecar (mem : p ∈ customizableFiles c t root) (sidecar : sidecarPath c p = .ok s) :
    (saveAll c root t).state.nodeAt? s = (save c p t).state.nodeAt? s := by
  obtain ⟨s', sidecar', askable, _⟩ := h.sidecar mem
  obtain rfl := Except.ok.inj (sidecar.symm.trans sidecar')
  have isFile := ((mem_customizableFiles h.sound).mp mem).1
  obtain ⟨_, alone, nodesAlone⟩ := save_of_isFile h.sound isFile sidecar askable
  refine (alone.symm.trans h.sameDirectories).nodeAt? fun x located => ?_
  have located := alone.symm.keeps.locate located
  rw [h.nodes, nodesAlone]
  cases isLast : lastSaved? c t (customizableFiles c t root) x with
  | some q =>
    obtain ⟨memQ, place⟩ := mem_of_lastSaved? isLast
    obtain rfl := h.owner mem sidecar located memQ place
    simp only [if_pos place]
  | none =>
    have elsewhere : sidecarPlace? c t p ≠ some x := fun place => by
      obtain ⟨q, last⟩ := lastSaved?_of_mem mem place
      simp [isLast] at last
    simp only [if_neg elsewhere]

/-- What is not the place of the sidecar of a file that can be read stays as it was. -/
theorem exists_sidecar_of_changed (changed : (saveAll c root t).state.node? x ≠ t.node? x) :
    ∃ p ∈ customizableFiles c t root, (∃ lines, readLines t p = .ok lines) ∧
      ∃ s, sidecarPath c p = .ok s ∧ t.locate s = .ok x := by
  rw [h.nodes] at changed
  split at changed
  · rename_i p isLast
    obtain ⟨mem, place⟩ := mem_of_lastSaved? isLast
    obtain ⟨isRead, s, sidecar, located, _⟩ := sidecarPlace?_eq_some.mp place
    exact ⟨p, mem, isRead, s, sidecar, located⟩
  · exact absurd rfl changed

end Undisturbed

/-- A file that is no text does not disturb the rest. -/
theorem saveAll_passes_unreadable (h : Undisturbed c t root) : PassesUnreadable c t root where
  never reason failed := by
    cases listed : t.under? root with
    | error e => simp [saveAll, listed, fileFailure] at failed
    | ok found =>
      simp only [saveAll, listed] at failed
      obtain ⟨saved, ran⟩ := (h.saved listed fun _ => id).1
      simp [ran] at failed
  through found listed := by
    simp only [saveAll, listed]
    exact (h.saved listed fun _ => id).1
  once p mem bytes reason file undecodable := by
    obtain ⟨found, listed⟩ := listed_of_mem mem
    exact h.forSource_undecodable listed mem file undecodable
  untouched p mem bytes reason file undecodable := by
    obtain ⟨found, listed⟩ := listed_of_mem mem
    obtain ⟨_, customizable, _⟩ := (mem_customizableFiles h.sound).mp mem
    obtain ⟨s, sidecar, _⟩ := h.sidecar mem
    refine ⟨?_, s, sidecar, h.nodeAt?_sidecar_undecodable mem file undecodable sidecar⟩
    rw [saveAll, listed]
    exact h.nodeAt?_file listed (fun _ => id) customizable
  alone p mem bytes text file decoded := by
    obtain ⟨s, sidecar, _⟩ := h.sidecar mem
    exact ⟨s, sidecar, h.nodeAt?_sidecar mem sidecar⟩
  only x := h.exists_sidecar_of_changed

/-- Two files that are no texts, one of them with a sidecar, and between them a file with something to keep. -/
def mixedTree : Tree :=
  let broken : Node := .file ⟨#[0xff]⟩
  let keeping : Node := .file (Text.encode (Text.joinLines (sharedLines ["  keep();"])))
  ((((empty.put ["p"] .directory).put ["p", "a."] broken).put ["p", "a.ts"] keeping).put ["p", "b.custom"]
    (.file (Text.encode "kept"))).put ["p", "b.ts"] broken

theorem sound_mixedTree : mixedTree.Sound := by decide

theorem named_mixedTree : mixedTree.Named :=
  ((((named_empty.put (by decide) (by decide) _).put (by decide) (by decide) _).put (by decide) (by decide) _).put
    (by decide) (by decide) _).put (by decide) (by decide) _

theorem decode_broken : ∃ reason, Text.decode ⟨#[0xff]⟩ = .error reason := exists_error_of_isOk (by decide)

/-- What is listed of the folder. -/
def mixedFiles : List Path := ["a.", "a.ts", "b.custom", "b.ts"].map sharedPath

theorem listed_mixedTree : ∃ found, mixedTree.under? sharedRoot = .ok found ∧ found.map (·.1) = mixedFiles := by
  have located : mixedTree.locate sharedRoot = .ok ["p"] := locate_eq_ok_iff.mpr ⟨by decide, rfl, rfl⟩
  exact ⟨_, sound_mixedTree.under?_eq located (by decide), by decide⟩

theorem customizableFiles_mixedTree (c : Config) : customizableFiles c mixedTree sharedRoot =
    mixedFiles.filter fun p => mixedTree.isFile p && isCustomizable c p := by
  obtain ⟨found, listed, files⟩ := listed_mixedTree
  rw [customizableFiles_of_listed listed, files]

theorem saveAll_mixedTree (c : Config) : saveAll c sharedRoot mixedTree = saveEach c mixedFiles mixedTree := by
  obtain ⟨found, listed, files⟩ := listed_mixedTree
  simp only [saveAll, listed, files]

theorem ownSidecars_default : OwnSidecars Config.default ".custom" where
  given := rfl
  dotted := ⟨"custom".toList, by decide⟩
  apart := by decide
  written ch mem := by
    have clean : ".custom".toList.all (fun ch => decide (ch ≠ '\x00' ∧ Text.carried? ch = none)) = true := by
      decide
    exact (of_decide_eq_true (List.all_eq_true.mp clean ch mem)).imp_right .inr
  listed := by decide
  suffix := by decide

theorem customizableFiles_default : customizableFiles Config.default mixedTree sharedRoot =
    [sharedPath "a.ts", sharedPath "b.ts"] := by
  rw [customizableFiles_mixedTree]
  decide

theorem undisturbed_mixedTree : Undisturbed Config.default mixedTree sharedRoot where
  sound := sound_mixedTree
  named := named_mixedTree
  own := ⟨_, ownSidecars_default⟩
  stems := by
    rw [customizableFiles_default]
    decide

/-- One of the files that are no texts can have no regions; the other one is passed over. -/
theorem saveAll_passes_unreadable_mixed :
    Undisturbed Config.default mixedTree sharedRoot ∧ PassesUnreadable Config.default mixedTree sharedRoot ∧
      customizableFiles Config.default mixedTree sharedRoot = [sharedPath "a.ts", sharedPath "b.ts"] :=
  ⟨undisturbed_mixedTree, saveAll_passes_unreadable undisturbed_mixedTree, customizableFiles_default⟩

/-- An extension with a null character. -/
def nullConfig : Config := { Config.default with customExtension := .str ".a\x00b" }

/-- An extension with half of a surrogate pair. -/
def halfConfig : Config :=
  { Config.default with customExtension := .str (String.ofList ['.', Text.carrier 0xD800]) }

/-- An extension that is no suffix, where files without a suffix have regions. -/
def dotConfig : Config :=
  { Config.default with customExtension := .str ".", customizableExtensions := ["", ".ts"] }

theorem dotted_nullConfig : Dotted nullConfig ".a\x00b" where
  given := rfl
  dotted := ⟨"a\x00b".toList, by decide⟩
  apart := by decide

theorem dotted_halfConfig : Dotted halfConfig (String.ofList ['.', Text.carrier 0xD800]) where
  given := rfl
  dotted := ⟨[Text.carrier 0xD800], by decide⟩
  apart := by decide

theorem dotted_dotConfig : Dotted dotConfig "." where
  given := rfl
  dotted := ⟨[], by decide⟩
  apart := by decide

section

variable {c : Config}

/-- The run ends before it comes to the last file, if the sidecar of another cannot be written. -/
theorem not_passesUnreadable_of_silent (mem : sharedPath "b.ts" ∈ customizableFiles c mixedTree sharedRoot)
    (silent : Note.diagnostics (saveEach c mixedFiles mixedTree).notes = []) :
    ¬ PassesUnreadable c mixedTree sharedRoot := by
  intro passes
  obtain ⟨reason, undecodable⟩ := decode_broken
  have once := passes.once _ mem ⟨#[0xff]⟩ _ (by decide) undecodable
  rw [saveAll_mixedTree] at once
  simp [silent, Diagnostic.forSource] at once

/-- A sidecar takes the place of the first file. -/
theorem not_passesUnreadable_of_replaced (mem : sharedPath "a." ∈ customizableFiles c mixedTree sharedRoot)
    (replaced : (saveEach c mixedFiles mixedTree).state.fileAt? (sharedPath "a.") ≠
      mixedTree.fileAt? (sharedPath "a.")) : ¬ PassesUnreadable c mixedTree sharedRoot := by
  intro passes
  obtain ⟨reason, undecodable⟩ := decode_broken
  have same := (passes.untouched _ mem ⟨#[0xff]⟩ _ (by decide) undecodable).1
  rw [saveAll_mixedTree] at same
  exact replaced (by simp only [fileAt?, same])

theorem not_isDirectory_of_toOption {files : List Path}
    (h : ∀ p ∈ files, ((sidecarPath c p).toOption.bind fun s => (mixedTree.isDirectory? s).toOption) ≠ some true) :
    ∀ p ∈ files, ∀ s, sidecarPath c p = .ok s → mixedTree.isDirectory? s ≠ .ok true :=
  fun p mem s sidecar dir => h p mem (by simp [sidecar, dir, Except.toOption])

end

/-- A dot with no other dot and no slash behind it is not enough. -/
theorem saveAll_not_passes_unreadable :
    mixedTree.Sound ∧ mixedTree.Named ∧ ∀ c ∈ [nullConfig, halfConfig, dotConfig],
      (∃ extension, Dotted c extension) ∧
      (∀ p ∈ customizableFiles c mixedTree sharedRoot, ∀ q ∈ customizableFiles c mixedTree sharedRoot,
        p.parent = q.parent → p.stem = q.stem → p = q) ∧
      (∀ p ∈ customizableFiles c mixedTree sharedRoot, ∀ s, sidecarPath c p = .ok s →
        mixedTree.isDirectory? s ≠ .ok true) ∧
      ¬ PassesUnreadable c mixedTree sharedRoot := by
  refine ⟨sound_mixedTree, named_mixedTree, ?_⟩
  simp only [List.forall_mem_cons, customizableFiles_mixedTree]
  refine ⟨⟨⟨_, dotted_nullConfig⟩, by decide, not_isDirectory_of_toOption (by decide), ?_⟩,
    ⟨⟨_, dotted_halfConfig⟩, by decide, not_isDirectory_of_toOption (by decide), ?_⟩,
    ⟨⟨_, dotted_dotConfig⟩, by decide, not_isDirectory_of_toOption (by decide), ?_⟩, List.forall_mem_nil _⟩
  · exact not_passesUnreadable_of_silent (by rw [customizableFiles_mixedTree]; decide) (by decide)
  · exact not_passesUnreadable_of_silent (by rw [customizableFiles_mixedTree]; decide) (by decide)
  · exact not_passesUnreadable_of_replaced (by rw [customizableFiles_mixedTree]; decide) (by decide)

end Region

end Scaffold
