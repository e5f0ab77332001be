import Scaffold.Proofs.Outcome
import Scaffold.Proofs.Tree.Paths

/-!
What writing, removing and making directories change. Each of them changes one location, or makes
directories where nothing was.
-/

namespace Scaffold

namespace Tree

variable {t u v : Tree} {p : Path} {at_ : Location} {bytes : ByteArray}

theorem write_eq_ok : t.write p bytes = .ok u ↔
    ∃ at_, t.locate p = .ok at_ ∧ t.node? at_ ≠ some .directory ∧
      t.node? at_.dropLast = some .directory ∧ u = t.put at_ (.file bytes) := by
  unfold write
  cases t.locate p with
  | error e => simp
  | ok at_ =>
    simp only [Except.ok.injEq, exists_eq_left']
    split
    · rename_i dir
      simp [dir]
    · rename_i folder notDir
      have free : t.node? at_ ≠ some .directory := notDir
      simp [free, folder, eq_comm]
    · rename_i notFolder
      constructor
      · simp
      · rintro ⟨_, folder, _⟩
        exact (notFolder folder).elim

theorem remove_eq_ok : t.remove p = .ok u ↔
    ∃ at_ old, t.locate p = .ok at_ ∧ t.node? at_ = some (.file old) ∧ u = t.erase at_ := by
  unfold remove
  cases t.locate p with
  | error e => simp
  | ok at_ =>
    cases node : t.node? at_ with
    | none => simp [node]
    | some found => cases found <;> simp [node, eq_comm]

theorem ne_nil_of_node? {node : Option Node} (h : t.node? at_ = node)
    (ne : node ≠ some .directory) : at_ ≠ [] := by
  rintro rfl
  exact ne (by simpa using h.symm)

/-- A directory that is made is there, and nothing else is new. -/
theorem makeDirectory_eq_ok (h : t.makeDirectory p = .ok u) :
    Grown t u ∧ ∃ at_, u.locate p = .ok at_ ∧ u.node? at_ = some .directory := by
  unfold makeDirectory at h
  cases located : t.locate p with
  | error e => simp [located] at h
  | ok at_ =>
    cases node : t.node? at_ with
    | none =>
      simp only [located, node, Except.ok.injEq] at h
      subst h
      have grown := Grown.put_directory node
      have ne := ne_nil_of_node? node (by simp)
      refine ⟨grown, at_, grown.keepsDirectories.locate located, ?_⟩
      simp [node?_put t ne]
    | some found =>
      cases found with
      | file bytes => simp [located, node] at h
      | directory =>
        simp only [located, node, Except.ok.injEq] at h
        subst h
        exact ⟨Grown.refl t, at_, located, node⟩

theorem make_eq (h : makeDirectoriesTo.make t p = (u, none)) : t.makeDirectory p = .ok u := by
  unfold makeDirectoriesTo.make at h
  split at h
  · rename_i made
    rw [made, (Prod.mk.inj h).1]
  · cases h

theorem makeDirectoriesTo_eq {anchor : Anchor} {names : List String}
    (h : t.makeDirectoriesTo anchor names = (u, none)) :
    Grown t u ∧ ∃ at_, u.locate ⟨anchor, names.reverse⟩ = .ok at_ ∧ u.node? at_ = some .directory := by
  induction names generalizing t u with
  | nil => exact makeDirectory_eq_ok (make_eq h)
  | cons name above ih =>
    simp only [makeDirectoriesTo] at h
    split at h
    · split at h
      · rename_i w made
        obtain ⟨grown, _⟩ := ih made
        obtain ⟨grown', there⟩ := makeDirectory_eq_ok (make_eq h)
        exact ⟨grown.trans grown', there⟩
      · rename_i refused
        exact absurd h (by simpa using refused _)
    · exact makeDirectory_eq_ok (make_eq h)

/-- Directories that are made are there, and nothing else is new. -/
theorem makeDirectories_eq (h : t.makeDirectories p = (u, none)) :
    Grown t u ∧ ∃ at_, u.locate p = .ok at_ ∧ u.node? at_ = some .directory := by
  simpa using makeDirectoriesTo_eq h

theorem makeDirectories_of_directory (located : t.locate p = .ok at_)
    (there : t.node? at_ = some .directory) : t.makeDirectories p = (t, none) := by
  have made : makeDirectoriesTo.make t p = (t, none) := by
    simp [makeDirectoriesTo.make, makeDirectory, located, there]
  unfold makeDirectories
  cases names : p.parts.reverse with
  | nil =>
    have whole : (⟨p.anchor, []⟩ : Path) = p := by
      rw [← List.reverse_eq_nil_iff.mp names]
    rw [makeDirectoriesTo, whole, made]
  | cons name above =>
    have whole : (⟨p.anchor, (name :: above).reverse⟩ : Path) = p := by
      rw [← names, List.reverse_reverse]
    simp only [makeDirectoriesTo, whole, located, made]

/-- A path leads to a place where a file can be. -/
structure IsPlace (t : Tree) (p : Path) (at_ : Location) : Prop where
  located : t.locate p = .ok at_
  parent : ∃ folder, t.locate p.parent = .ok folder ∧ t.node? folder = some .directory
  folder : t.node? at_.dropLast = some .directory

instance (t : Tree) (p : Path) (at_ : Location) : Decidable (IsPlace t p at_) :=
  decidable_of_iff ((t.locate p).toOption = some at_ ∧
    ((t.locate p.parent).toOption.any fun folder => t.node? folder = some .directory) = true ∧
    t.node? at_.dropLast = some .directory) <| by
    constructor
    · rintro ⟨located, parent, folder⟩
      obtain ⟨above, locatedAbove, there⟩ := exists_ok_of_any parent
      exact ⟨eq_ok_of_toOption located, ⟨above, locatedAbove, of_decide_eq_true there⟩, folder⟩
    · rintro ⟨located, ⟨above, locatedAbove, there⟩, folder⟩
      exact ⟨by rw [located]; rfl, by rw [locatedAbove]; exact decide_eq_true there, folder⟩

theorem KeepsDirectories.isPlace (keeps : KeepsDirectories t u) (h : IsPlace t p at_) :
    IsPlace u p at_ where
  located := keeps.locate h.located
  parent := by
    obtain ⟨folder, located, there⟩ := h.parent
    exact ⟨folder, keeps.locate located, keeps.directory folder there⟩
  folder := keeps.directory _ h.folder

theorem IsPlace.eq_placeOf (h : IsPlace t p at_) : t.placeOf p = at_ := (locate_eq_ok h.located).symm

theorem IsPlace.write (h : IsPlace t p at_) (free : t.node? at_ ≠ some .directory)
    (bytes : ByteArray) : t.write p bytes = .ok (t.put at_ (.file bytes)) :=
  write_eq_ok.mpr ⟨at_, h.located, free, h.folder, rfl⟩

theorem IsPlace.makeDirectories (h : IsPlace t p at_) : t.makeDirectories p.parent = (t, none) := by
  obtain ⟨spot, located, there⟩ := h.parent
  exact makeDirectories_of_directory located there

/-- A file that can be read is in a place of the tree. -/
theorem read_eq_ok : t.read p = .ok bytes ↔
    ∃ at_, t.locate p = .ok at_ ∧ t.node? at_ = some (.file bytes) := by
  unfold read
  cases t.locate p with
  | error e => simp
  | ok at_ =>
    cases node : t.node? at_ with
    | none => simp [node]
    | some found => cases found <;> simp [node]

/-- A file that is written is read as it was written. -/
theorem read_of_write (done : t.write p bytes = .ok u) : u.read p = .ok bytes := by
  obtain ⟨at_, located, free, -, rfl⟩ := write_eq_ok.mp done
  have ne := ne_nil_of_node? rfl free
  exact read_eq_ok.mpr ⟨at_, (keepsDirectories_put free _).locate located, by rw [node?_put t ne, if_pos rfl]⟩

theorem exists?_of_read (h : t.read p = .ok bytes) : t.exists? p = .ok true := by
  obtain ⟨at_, located, node⟩ := read_eq_ok.mp h
  simp [exists?, nodeAt?, located, node, Except.map]

theorem fileAt?_eq_some : t.fileAt? p = some bytes ↔ t.read p = .ok bytes := by
  unfold fileAt? nodeAt? read
  cases located : t.locate p with
  | error e => cases e <;> simp
  | ok at_ =>
    simp only
    cases node : t.node? at_ with
    | none => simp
    | some found => cases found <;> simp

theorem fileAt?_empty (p : Path) : empty.fileAt? p = none := by
  cases found : empty.fileAt? p with
  | none => rfl
  | some bytes =>
    obtain ⟨at_, _, node⟩ := read_eq_ok.mp (fileAt?_eq_some.mp found)
    by_cases root : at_ = [] <;> simp [node?, empty, root] at node

end Tree

end Scaffold
