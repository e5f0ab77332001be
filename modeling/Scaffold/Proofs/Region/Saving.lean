import Scaffold.Proofs.Action
import Scaffold.Proofs.Region.Sidecar
import Scaffold.Proofs.Tree.Sound

/-!
What a tree holds after the regions of a file were saved. The sidecar is replaced at its place, whatever was
there; if it has none, or the file is no text, nothing changes and the failure is one that is passed over.
-/

namespace Scaffold.Region

open Scaffold.Tree

variable {c : Config} {t u : Tree} {p s : Path} {at_ : Location} {bytes : ByteArray}

/-- The place of the sidecar of a file, if the file can be read and a sidecar can be there. -/
def sidecarPlace? (c : Config) (t : Tree) (p : Path) : Option Location :=
  match readLines t p, sidecarPath c p with
  | .ok _, .ok s =>
    match t.locate s with
    | .ok at_ => if t.node? at_ = some .directory then none else some at_
    | _ => none
  | _, _ => none

/-- What is kept of the file at a path. -/
def keptAt? (c : Config) (t : Tree) (p : Path) : Option ByteArray := (t.fileAt? p).bind (keptOf? c)

theorem readLines_congr (node : u.nodeAt? p = t.nodeAt? p) {lines : List String} :
    readLines u p = .ok lines ↔ readLines t p = .ok lines := by
  have read : ∀ bytes, u.read p = .ok bytes ↔ t.read p = .ok bytes := by
    intro bytes
    rw [← fileAt?_eq_some, ← fileAt?_eq_some, fileAt?, fileAt?, node]
  simp only [readLines_eq_ok, read]

theorem sidecarPlace?_eq_some : sidecarPlace? c t p = some at_ ↔
    (∃ lines, readLines t p = .ok lines) ∧
      ∃ s, sidecarPath c p = .ok s ∧ t.locate s = .ok at_ ∧ t.node? at_ ≠ some .directory := by
  unfold sidecarPlace?
  cases readLines t p with
  | error e => simp
  | ok lines =>
    cases sidecarPath c p with
    | error e => simp
    | ok s =>
      cases located : t.locate s with
      | error e => simp [located]
      | ok place =>
        simp only [located, Except.ok.injEq, exists_eq_left', exists_eq', true_and]
        split
        · rename_i dir
          simp only [reduceCtorEq, false_iff, not_and, Classical.not_not]
          rintro rfl
          exact dir
        · rename_i notDir
          simp only [Option.some.injEq, iff_self_and]
          rintro rfl
          exact notDir

theorem sidecarPlace?_congr (same : SameDirectories t u) (node : u.nodeAt? p = t.nodeAt? p) :
    sidecarPlace? c u p = sidecarPlace? c t p := by
  ext place
  simp only [sidecarPlace?_eq_some, readLines_congr node]
  refine and_congr_right fun _ => exists_congr fun s => and_congr_right fun _ => ?_
  constructor
  · rintro ⟨located, notDir⟩
    exact ⟨same.symm.keeps.locate located, fun dir => notDir ((same.directory place).mp dir)⟩
  · rintro ⟨located, notDir⟩
    exact ⟨same.keeps.locate located, fun dir => notDir ((same.directory place).mpr dir)⟩

theorem isThere_of_read (found : t.read p = .ok bytes) : isThere t p = .ok true := by
  obtain ⟨at_, located, node⟩ := read_eq_ok.mp found
  simp [isThere, exists?, nodeAt?, located, node, Except.map]

theorem isThere_of_free (located : t.locate p = .ok at_) (free : t.node? at_ = none) :
    isThere t p = .ok false := by
  simp [isThere, exists?, nodeAt?, located, free, Except.map]

theorem removeSidecar_of_gone (gone : isThere t s = .ok false) : removeSidecar s t = ⟨[], t, .ok ()⟩ := by
  simp [removeSidecar, Action.change, gone, bind, Except.bind, pure, Except.pure]

/-- What is at the place of a sidecar is taken away. -/
theorem removeSidecar_of_place (located : u.locate s = .ok at_)
    (notDir : u.node? at_ ≠ some .directory) :
    (removeSidecar s u).result = .ok () ∧ ChangedAt u at_ none (removeSidecar s u).state := by
  cases node : u.node? at_ with
  | none =>
    rw [removeSidecar_of_gone (isThere_of_free located node)]
    refine ⟨rfl, rfl, fun x => ?_⟩
    split
    · rename_i same
      rw [same, node]
    · rfl
  | some found =>
    cases found with
    | directory => exact absurd node notDir
    | file old =>
      have there : isThere u s = .ok true := isThere_of_read (read_eq_ok.mpr ⟨at_, located, node⟩)
      have taken : u.remove s = .ok (u.erase at_) := remove_eq_ok.mpr ⟨at_, old, located, node, rfl⟩
      have removed : removeSidecar s u = ⟨[], u.erase at_, .ok ()⟩ := by
        simp [removeSidecar, Action.change, there, taken, bind, Except.bind]
      rw [removed]
      exact ⟨rfl, .erase notDir⟩

theorem map_file_ne (kept? : Option ByteArray) : kept?.map Node.file ≠ some .directory := by
  cases kept? <;> simp

/-- A sidecar is put into its place, and nothing is there if none is put. -/
theorem replaceSidecar_of_place (sound : u.Sound) (located : u.locate s = .ok at_)
    (notDir : u.node? at_ ≠ some .directory) (kept? : Option ByteArray) :
    (∃ sidecar, (replaceSidecar p s kept? u).result = .ok sidecar) ∧
      ChangedAt u at_ (kept?.map .file) (replaceSidecar p s kept? u).state := by
  obtain ⟨removed, taken⟩ := removeSidecar_of_place located notDir
  cases kept? with
  | none =>
    simp only [replaceSidecar, Action.bind_eq]
    rw [Action.result_bind removed, Action.state_bind removed]
    exact ⟨⟨none, rfl⟩, taken⟩
  | some kept =>
    have same := taken.sameDirectories notDir (by simp)
    obtain ⟨dir, _, _, rfl⟩ := sound.lastName located notDir
    have gone : (removeSidecar s u).state.node? (u.placeOf s.parent ++ [s.name]) = none := by
      rw [taken.nodes, if_pos rfl]
    have written : (removeSidecar s u).state.write s kept =
        .ok ((removeSidecar s u).state.put (u.placeOf s.parent ++ [s.name]) (.file kept)) :=
      write_eq_ok.mpr ⟨_, same.keeps.locate located, by simp [gone], by simpa using same.keeps.directory _ dir, rfl⟩
    have changed := Action.change_of_ok
      (f := fun t : Tree => (t.write s kept).mapError fileFailure) (mapError_eq_ok.mpr written)
    simp only [replaceSidecar, Action.bind_eq]
    rw [Action.result_bind removed, Action.state_bind removed]
    simp only [Action.bind, changed]
    refine ⟨⟨some s, rfl⟩, taken.home, fun x => ?_⟩
    show (Tree.put _ _ _).node? x = _
    rw [node?_put _ (by simp), taken.nodes]
    split <;> rfl

theorem replaceSidecar_of_unremoved {e : FileError} (isOfSystem : e.isOfSystem = true)
    (kept : removeSidecar s u = ⟨[], u, .error (fileFailure e)⟩) (kept? : Option ByteArray) :
    (replaceSidecar p s kept? u).state = u ∧
      ∀ e, (replaceSidecar p s kept? u).result = .error e → isPassedOver e = true := by
  cases kept? <;> simp [replaceSidecar, Action.bind_eq, Action.bind, kept, fileFailure, isPassedOver,
    ReadFailure.isOfFile, isOfSystem]

/-- Where a sidecar has no place nothing changes. The system refuses it, or there was nothing to put. -/
theorem replaceSidecar_refused (askable : Askable s)
    (refused : ∀ place, u.locate s = .ok place → u.node? place = some .directory)
    (kept? : Option ByteArray) :
    (replaceSidecar p s kept? u).state = u ∧
      ∀ e, (replaceSidecar p s kept? u).result = .error e → isPassedOver e = true := by
  cases located : u.locate s with
  | ok place =>
    have directory := refused place located
    have there : isThere u s = .ok true := by
      simp [isThere, exists?, nodeAt?, located, directory, Except.map]
    have unremoved : u.remove s = .error ⟨.isDirectory, s⟩ := by simp [remove, located, directory]
    have kept : removeSidecar s u = ⟨[], u, .error (fileFailure ⟨.isDirectory, s⟩)⟩ := by
      simp [removeSidecar, Action.change, there, unremoved, bind, Except.bind]
    exact replaceSidecar_of_unremoved rfl kept kept?
  | error obstacle =>
    by_cases long : obstacle = .nameTooLong
    · have unknown : isThere u s = .error (fileFailure ⟨.nameTooLong, s⟩) := by
        simp [isThere, exists?, nodeAt?, located, long, Except.map, fileFailure]
      have kept : removeSidecar s u = ⟨[], u, .error (fileFailure ⟨.nameTooLong, s⟩)⟩ := by
        simp [removeSidecar, Action.change, unknown, bind, Except.bind]
      exact replaceSidecar_of_unremoved rfl kept kept?
    · have gone : isThere u s = .ok false := by
        cases obstacle <;> simp_all [isThere, exists?, nodeAt?, Except.map]
      have unwritten : ∀ kept, u.write s kept = .error ⟨obstacle, s⟩ := by
        simp [write, located]
      cases kept? <;> simp [replaceSidecar, Action.bind_eq, Action.bind, removeSidecar_of_gone gone,
        Action.pure_eq, Action.change, unwritten, fileFailure, isPassedOver, ReadFailure.isOfFile,
        askable.isOfSystem located]

theorem save_eq {s : Path} (sidecar : sidecarPath c p = .ok s) (t : Tree) :
    save c p t = Action.bind (fun t => Action.ofOutcome (readIfThere c t p) t)
      (fun regions => replaceSidecar p s (sidecarBytes? regions)) t := by
  rw [save, sidecar]
  rfl

theorem keptOf?_of_text {text : String} (decoded : Text.decode bytes = .ok text) :
    keptOf? c bytes = sidecarBytes? (regionsIn c bytes) := by
  simp [keptOf?, regionsIn, decoded]

theorem regionsIn_of_readLines {lines : List String} (found : t.read p = .ok bytes)
    (isRead : readLines t p = .ok lines) : regionsIn c bytes = parse c.labels lines := by
  obtain ⟨bytes', text, found', decoded, rfl⟩ := readLines_eq_ok.mp isRead
  obtain rfl := Except.ok.inj (found.symm.trans found')
  simp [regionsIn, decoded]

theorem result_readIfThere {lines : List String} (isRead : readLines t p = .ok lines) :
    (readIfThere c t p).result = .ok (parse c.labels lines) := by
  obtain ⟨bytes, found⟩ := read_of_readLines isRead
  simp [readIfThere, isThere_of_read found, read, isRead]

/-- Bytes that are no text have no regions that can be read. -/
theorem result_readIfThere_error (found : t.read p = .ok bytes) {e : ReadFailure}
    (unread : readLines t p = .error e) :
    ∃ reason, (readIfThere c t p).result = .error (.read (.undecodable reason)) := by
  cases decoded : Text.decode bytes with
  | ok text => simp [readLines_eq_ok.mpr ⟨bytes, text, found, decoded, rfl⟩] at unread
  | error reason =>
    refine ⟨reason, ?_⟩
    simp [readIfThere, isThere_of_read found, read, readLines, readText, found, decoded, Except.map,
      Outcome.fail]

theorem save_of_regions (sidecar : sidecarPath c p = .ok s) {r : Regions}
    (isRead : (readIfThere c u p).result = .ok r) :
    (save c p u).result = (replaceSidecar p s (sidecarBytes? r) u).result ∧
      (save c p u).state = (replaceSidecar p s (sidecarBytes? r) u).state := by
  rw [save_eq sidecar]
  simp [Action.bind, isRead]

/-- Saving a file replaces the sidecar at its place, and changes nothing if there is none. A failure is passed
over. -/
theorem save_of_isFile (sound : u.Sound) (isFile : u.isFile p = true) (sidecar : sidecarPath c p = .ok s)
    (askable : Askable s) :
    (∀ e, (save c p u).result = .error e → isPassedOver e = true) ∧
      SameDirectories u (save c p u).state ∧
      ∀ x, (save c p u).state.node? x =
        if sidecarPlace? c u p = some x then (keptAt? c u p).map .file else u.node? x := by
  obtain ⟨bytes, file⟩ := Option.isSome_iff_exists.mp isFile
  have found := fileAt?_eq_some.mp file
  cases isRead : readLines u p with
  | error e =>
    obtain ⟨reason, unread⟩ := result_readIfThere_error (c := c) found isRead
    have unsaved : save c p u = ⟨(readIfThere c u p).notes, u, .error (.read (.undecodable reason))⟩ := by
      rw [save_eq sidecar]
      simp [Action.bind, Action.ofOutcome, unread]
    have none_ : sidecarPlace? c u p = none := by simp [sidecarPlace?, isRead]
    rw [unsaved, none_]
    refine ⟨fun e failed => ?_, .refl u, fun x => rfl⟩
    obtain rfl := Except.error.inj failed
    rfl
  | ok lines =>
    obtain ⟨_, text, found', decoded, _⟩ := readLines_eq_ok.mp isRead
    obtain rfl := Except.ok.inj (found.symm.trans found')
    have kept : keptAt? c u p = sidecarBytes? (parse c.labels lines) := by
      rw [keptAt?, file, Option.bind_some, keptOf?_of_text decoded, regionsIn_of_readLines found isRead]
    obtain ⟨result, state⟩ := save_of_regions sidecar (result_readIfThere (c := c) isRead)
    rw [result, state, ← kept]
    cases place : sidecarPlace? c u p with
    | some at_ =>
      obtain ⟨_, s', sidecar', located, notDir⟩ := sidecarPlace?_eq_some.mp place
      obtain rfl := Except.ok.inj (sidecar.symm.trans sidecar')
      obtain ⟨⟨saved, ok⟩, changed⟩ := replaceSidecar_of_place (p := p) sound located notDir (keptAt? c u p)
      refine ⟨fun e failed => ?_, changed.sameDirectories notDir (map_file_ne _), fun x => ?_⟩
      · simp [ok] at failed
      · simp [changed.nodes x, eq_comm]
    | none =>
      have refused : ∀ at_, u.locate s = .ok at_ → u.node? at_ = some .directory := by
        intro at_ located
        refine Decidable.byContradiction fun notDir => ?_
        simp [sidecarPlace?_eq_some.mpr ⟨⟨lines, isRead⟩, s, sidecar, located, notDir⟩] at place
      obtain ⟨unchanged, passed⟩ := replaceSidecar_refused (p := p) askable refused (keptAt? c u p)
      rw [unchanged]
      exact ⟨passed, .refl u, fun x => by simp⟩

theorem preserves_removeSidecar (s : Path) : (removeSidecar s).Preserves Sound := by
  refine Action.Preserves.change fun t u removed h => ?_
  cases there : isThere t s with
  | error e => simp [there, bind, Except.bind] at removed
  | ok isThere =>
    simp only [there, bind, Except.bind] at removed
    split at removed
    · exact h.remove (mapError_eq_ok.mp removed)
    · obtain rfl := Except.ok.inj removed
      exact h

theorem preserves_save (c : Config) (p : Path) : (save c p).Preserves Sound := by
  refine Action.Preserves.bind (.ofExcept _) fun s => Action.Preserves.bind (fun t h => h) fun r => ?_
  unfold replaceSidecar
  split
  · exact Action.Preserves.bind (preserves_removeSidecar s) fun _ => .ok _
  · refine Action.Preserves.bind (preserves_removeSidecar s) fun _ => Action.Preserves.bind ?_ fun _ =>
      Action.Preserves.bind (.note _) fun _ => .ok _
    exact Action.Preserves.change fun t u written h => h.write (mapError_eq_ok.mp written)

end Scaffold.Region
