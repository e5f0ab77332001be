import Scaffold.Proofs.Region.Saving

/-!
What a tree holds after the regions of its files were saved. Saving goes over the files in their order; so at
the place of a sidecar is what is kept of the last file that has its sidecar there, and nothing else changes.
Where the sidecars have room and are apart, each of them holds what is kept of its file.
-/

namespace Scaffold.Region

open Scaffold.Tree

variable {c : Config} {t u : Tree} {p : Path} {at_ : Location} {bytes : ByteArray}

/-- The last of some files that has its sidecar at a place. -/
def lastSaved? (c : Config) (t : Tree) (files : List Path) (at_ : Location) : Option Path :=
  (files.filter fun p => sidecarPlace? c t p = some at_).getLast?

theorem lastSaved?_cons (files : List Path) : lastSaved? c t (p :: files) at_ =
    (lastSaved? c t files at_).or (if sidecarPlace? c t p = some at_ then some p else none) := by
  unfold lastSaved?
  by_cases here : sidecarPlace? c t p = some at_
  · rw [List.filter_cons_of_pos (by simpa using here), List.getLast?_cons, if_pos here]
    cases (files.filter fun p => sidecarPlace? c t p = some at_).getLast? <;> rfl
  · rw [List.filter_cons_of_neg (by simpa using here), if_neg here, Option.or_none]

theorem mem_of_lastSaved? {files : List Path} (h : lastSaved? c t files at_ = some p) :
    p ∈ files ∧ sidecarPlace? c t p = some at_ := by
  simpa using List.mem_of_getLast? h

theorem lastSaved?_of_mem {files : List Path} (mem : p ∈ files) (place : sidecarPlace? c t p = some at_) :
    ∃ q, lastSaved? c t files at_ = some q := by
  have some_ : (files.filter fun p => sidecarPlace? c t p = some at_) ≠ [] :=
    List.ne_nil_of_mem (List.mem_filter.mpr ⟨mem, by simpa using place⟩)
  exact ⟨_, List.getLast?_eq_some_getLast some_⟩

/-- A file that is saved or passed over is followed by the others. -/
theorem saveEach_cons (isFile : u.isFile p = true) (customizable : isCustomizable c p = true)
    (passed : ∀ e, (save c p u).result = .error e → isPassedOver e = true) (rest : List Path) :
    (saveEach c (p :: rest) u).state = (saveEach c rest (save c p u).state).state ∧
      ∀ saved, (saveEach c rest (save c p u).state).result = .ok saved →
        ∃ more, (saveEach c (p :: rest) u).result = .ok more := by
  simp only [saveEach, isFile, customizable, Bool.and_self, if_true]
  cases result : (save c p u).result with
  | ok sidecar => simp +contextual [Except.map]
  | error e => simp +contextual [passed e result]

theorem saveEach_skip (h : (u.isFile p && isCustomizable c p) = false) (rest : List Path) :
    saveEach c (p :: rest) u = saveEach c rest u := by
  simp [saveEach, h]

theorem preserves_saveEach (c : Config) (todo : List Path) : (saveEach c todo).Preserves Sound := by
  induction todo with
  | nil => exact fun t h => h
  | cons p rest ih =>
    intro t h
    have saved := preserves_save c p t h
    simp only [saveEach]
    split
    · split
      · split
        · exact ih _ saved
        · exact saved
      · exact ih _ saved
    · exact ih t h

/-- Saving runs through. At each place is what is kept of the last file with its sidecar there, and elsewhere
nothing changes. -/
theorem saveEach_last {files todo : List Path} (sound : u.Sound) (same : SameDirectories t u)
    (others : ∀ x, (∀ p ∈ files, sidecarPlace? c t p ≠ some x) → u.node? x = t.node? x)
    (ready : ∀ p ∈ todo, t.isFile p = true → isCustomizable c p = true →
      p ∈ files ∧ ∃ s, sidecarPath c p = .ok s ∧ Askable s)
    (clear : ∀ p ∈ todo, isCustomizable c p = true → ∀ at_, t.locate p = .ok at_ →
      ∀ q ∈ files, sidecarPlace? c t q ≠ some at_) :
    (∃ saved, (saveEach c todo u).result = .ok saved) ∧ SameDirectories t (saveEach c todo u).state ∧
      ∀ x, (saveEach c todo u).state.node? x =
        match lastSaved? c t (todo.filter fun p => t.isFile p && isCustomizable c p) x with
        | some p => (keptAt? c t p).map .file
        | none => u.node? x := by
  induction todo generalizing u with
  | nil => exact ⟨⟨[], rfl⟩, same, fun x => rfl⟩
  | cons p rest ih =>
    have readyRest := fun q hq => ready q (List.mem_cons_of_mem p hq)
    have clearRest := fun q hq => clear q (List.mem_cons_of_mem p hq)
    -- no file with regions is at the place of a sidecar, so each is still as it was
    have node : isCustomizable c p = true → u.nodeAt? p = t.nodeAt? p := fun customizable =>
      same.nodeAt? fun at_ located => others at_ (clear p List.mem_cons_self customizable at_ located)
    by_cases carries : (t.isFile p && isCustomizable c p) = true
    · obtain ⟨isFile, customizable⟩ := Bool.and_eq_true_iff.mp carries
      obtain ⟨mem, s, sidecar, askable⟩ := ready p List.mem_cons_self isFile customizable
      have file : u.fileAt? p = t.fileAt? p := by simp only [fileAt?, node customizable]
      have isFileHere : u.isFile p = true := by rwa [Tree.isFile, file]
      obtain ⟨passed, sameHere, nodes⟩ := save_of_isFile sound isFileHere sidecar askable
      rw [sidecarPlace?_congr same (node customizable), keptAt?, file, ← keptAt?] at nodes
      obtain ⟨state, result⟩ := saveEach_cons isFileHere customizable passed rest
      have othersHere : ∀ x, (∀ p ∈ files, sidecarPlace? c t p ≠ some x) →
          (save c p u).state.node? x = t.node? x := by
        intro x none_
        rw [nodes, if_neg (none_ p mem), others x none_]
      obtain ⟨⟨saved, ok⟩, sameRest, last⟩ := ih (preserves_save c p u sound) (same.trans sameHere) othersHere readyRest
        clearRest
      refine ⟨result saved ok, state ▸ sameRest, fun x => ?_⟩
      rw [state, last, List.filter_cons_of_pos (p := fun p => t.isFile p && isCustomizable c p) carries,
        lastSaved?_cons, nodes]
      cases lastSaved? c t (rest.filter fun p => t.isFile p && isCustomizable c p) x with
      | some q => rfl
      | none => by_cases place : sidecarPlace? c t p = some x <;> simp [place]
    · have skipped : (u.isFile p && isCustomizable c p) = false := by
        by_cases customizable : isCustomizable c p = true
        · simpa [customizable, Tree.isFile, fileAt?, node customizable] using carries
        · simp [customizable]
      rw [saveEach_skip skipped,
        List.filter_cons_of_neg (p := fun p => t.isFile p && isCustomizable c p) carries]
      exact ih sound same others readyRest clearRest

/-- The files below a directory that can carry regions. -/
def customizableFiles (c : Config) (t : Tree) (root : Path) : List Path :=
  match t.under? root with
  | .ok found => (found.map (·.1)).filter fun p => t.isFile p && isCustomizable c p
  | .error _ => []

theorem customizableFiles_of_listed {root : Path} {found : List (Path × Node)} (listed : t.under? root = .ok found) :
    customizableFiles c t root = (found.map (·.1)).filter fun p => t.isFile p && isCustomizable c p := by
  rw [customizableFiles, listed]

theorem mem_customizableFiles {root : Path} (sound : t.Sound) : p ∈ customizableFiles c t root ↔
    t.isFile p = true ∧ isCustomizable c p = true ∧
      ∃ above rest, t.locate root = .ok above ∧ t.node? above = some .directory ∧ rest ≠ [] ∧
        (t.node? (above ++ rest)).isSome = true ∧ p = ⟨root.anchor, root.parts ++ rest⟩ := by
  unfold customizableFiles
  cases listed : t.under? root with
  | error e =>
    simp only [List.not_mem_nil, false_iff]
    rintro ⟨_, _, above, rest, located, _⟩
    simp [under?, located] at listed
  | ok found =>
    rw [List.mem_filter, (sound.under?_eq_ok listed).2 p, Bool.and_eq_true]
    constructor
    · rintro ⟨below, file, customizable⟩
      exact ⟨file, customizable, below⟩
    · rintro ⟨file, customizable, below⟩
      exact ⟨below, file, customizable⟩

/-- After saving what a directory holds, each sidecar is that of the last file that has it. -/
theorem saveAll_last {root : Path} {found : List (Path × Node)} (sound : t.Sound)
    (listed : t.under? root = .ok found)
    (ready : ∀ p ∈ customizableFiles c t root, ∃ s, sidecarPath c p = .ok s ∧ Askable s)
    (clear : ∀ p, isCustomizable c p = true → p ∈ found.map (·.1) →
      ∀ at_, t.locate p = .ok at_ →
        ∀ q ∈ customizableFiles c t root, sidecarPlace? c t q ≠ some at_) :
    (∃ saved, (saveAll c root t).result = .ok saved) ∧ SameDirectories t (saveAll c root t).state ∧
      ∀ x, (saveAll c root t).state.node? x =
        match lastSaved? c t (customizableFiles c t root) x with
        | some p => (keptAt? c t p).map .file
        | none => t.node? x := by
  have files := @customizableFiles_of_listed c t root found listed
  rw [saveAll, listed, files]
  rw [files] at ready clear
  refine saveEach_last sound (.refl t) (fun _ _ => rfl) (fun p mem isFile customizable => ?_)
    fun p mem customizable at_ located => clear p customizable mem at_ located
  have here : p ∈ (found.map (·.1)).filter fun p => t.isFile p && isCustomizable c p :=
    List.mem_filter.mpr ⟨mem, by simp [isFile, customizable]⟩
  exact ⟨here, ready p here⟩

/-- A file that can carry regions, with a sidecar at a place where nothing is. -/
structure Saves (c : Config) (t : Tree) (p : Path) (at_ : Location) (bytes : ByteArray) : Prop where
  customizable : isCustomizable c p = true
  found : t.read p = .ok bytes
  sidecar : ∃ s, sidecarPath c p = .ok s ∧ IsPlace t s at_
  free : t.node? at_ = none

/-- The sidecar of a file that is saved is at its place, if the file is a text. -/
theorem Saves.place (h : Saves c t p at_ bytes) :
    (∀ x, sidecarPlace? c t p = some x → x = at_) ∧
      (sidecarPlace? c t p = some at_ ∨ keptOf? c bytes = none) := by
  obtain ⟨s, sidecar, isPlace⟩ := h.sidecar
  constructor
  · intro x place
    obtain ⟨_, s', sidecar', located, _⟩ := sidecarPlace?_eq_some.mp place
    obtain rfl := Except.ok.inj (sidecar.symm.trans sidecar')
    exact Except.ok.inj (located.symm.trans isPlace.located)
  · cases decoded : Text.decode bytes with
    | error e => simp [keptOf?, decoded]
    | ok text =>
      have isRead := readLines_eq_ok.mpr ⟨bytes, text, h.found, decoded, rfl⟩
      exact .inl (sidecarPlace?_eq_some.mpr ⟨⟨_, isRead⟩, s, sidecar, isPlace.located, by simp [h.free]⟩)

theorem Saves.askable (h : Saves c t p at_ bytes) : ∃ s, sidecarPath c p = .ok s ∧ Askable s := by
  obtain ⟨s, sidecar, isPlace⟩ := h.sidecar
  exact ⟨s, sidecar, askable_of_located isPlace.located⟩

/-- Where a listed path leads, something is. -/
theorem node?_of_listed {root : Path} {found : List (Path × Node)} (sound : t.Sound)
    (listed : t.under? root = .ok found) (mem : p ∈ found.map (·.1)) (located : t.locate p = .ok at_) :
    t.node? at_ ≠ none := by
  obtain ⟨above, rest, locatedRoot, _, _, there, rfl⟩ := ((sound.under?_eq_ok listed).2 p).mp mem
  obtain rfl := (locate_eq_ok located).trans (sound.placeOf_listed locatedRoot there)
  exact Option.isSome_iff_ne_none.mp there

/-- The last file with its sidecar at a place where nothing is saves it there. -/
theorem saves_of_lastSaved? {files : List Path} (room : ∀ p ∈ files, ∃ at_ bytes, Saves c t p at_ bytes)
    (last : lastSaved? c t files at_ = some p) : p ∈ files ∧ ∃ bytes, Saves c t p at_ bytes := by
  obtain ⟨mem, place⟩ := mem_of_lastSaved? last
  obtain ⟨x, bytes, saved⟩ := room p mem
  obtain rfl := saved.place.1 at_ place
  exact ⟨mem, bytes, saved⟩

/-- After saving, the sidecars hold what is kept of the files below a directory, and nothing else changed. -/
theorem saveAll_run {root : Path} (sound : t.Sound)
    (room : ∀ p ∈ customizableFiles c t root, ∃ at_ bytes, Saves c t p at_ bytes)
    (apart : ∀ p ∈ customizableFiles c t root, ∀ q ∈ customizableFiles c t root,
      ∀ at_ b b', Saves c t p at_ b → Saves c t q at_ b' → p = q) :
    (∀ found, t.under? root = .ok found → ∃ saved, (saveAll c root t).result = .ok saved) ∧
      Filled t (saveAll c root t).state ∧
      (∀ p ∈ customizableFiles c t root, ∀ at_ bytes, Saves c t p at_ bytes →
        (saveAll c root t).state.node? at_ = (keptOf? c bytes).map .file) ∧
      ∀ x, (∀ p ∈ customizableFiles c t root, ∀ bytes, ¬Saves c t p x bytes) →
        (saveAll c root t).state.node? x = t.node? x := by
  cases listed : t.under? root with
  | error e => simp [saveAll, customizableFiles, listed, Filled.refl]
  | ok found =>
    have ready : ∀ p ∈ customizableFiles c t root, ∃ s, sidecarPath c p = .ok s ∧ Askable s := by
      intro p mem
      obtain ⟨_, _, saved⟩ := room p mem
      exact saved.askable
    -- a sidecar goes where nothing is, so that no listed file is overwritten
    have clear : ∀ p, isCustomizable c p = true → p ∈ found.map (·.1) → ∀ x, t.locate p = .ok x →
        ∀ q ∈ customizableFiles c t root, sidecarPlace? c t q ≠ some x := by
      intro p _ mem x located q memQ place
      obtain ⟨_, _, saved⟩ := room q memQ
      obtain rfl := saved.place.1 x place
      exact node?_of_listed sound listed mem located saved.free
    obtain ⟨ok, same, last⟩ := saveAll_last sound listed ready clear
    refine ⟨fun _ _ => ok, ⟨same.home, fun x => ?_⟩, fun p mem at_ bytes saved => ?_, fun x none_ => ?_⟩
    · rw [last]
      cases here : lastSaved? c t (customizableFiles c t root) x with
      | none => exact .inl rfl
      | some q =>
        obtain ⟨_, _, saved⟩ := saves_of_lastSaved? room here
        cases kept : keptAt? c t q <;> simp [kept, saved.free]
    · rw [last]
      cases here : lastSaved? c t (customizableFiles c t root) at_ with
      | none =>
        rcases saved.place.2 with place | none_
        · obtain ⟨q, there⟩ := lastSaved?_of_mem mem place
          simp [there] at here
        · simp [saved.free, none_]
      | some q =>
        obtain ⟨memQ, _, savedQ⟩ := saves_of_lastSaved? room here
        obtain rfl := apart p mem q memQ at_ _ _ saved savedQ
        simp [keptAt?, fileAt?_eq_some.mpr saved.found]
    · rw [last]
      cases here : lastSaved? c t (customizableFiles c t root) x with
      | none => rfl
      | some q =>
        obtain ⟨memQ, bytes, saved⟩ := saves_of_lastSaved? room here
        exact absurd saved (none_ q memQ bytes)

theorem preserves_saveAll (c : Config) (root : Path) : (saveAll c root).Preserves Sound := by
  intro t h
  unfold saveAll
  split
  · exact h
  · exact preserves_saveEach c _ t h

end Scaffold.Region
