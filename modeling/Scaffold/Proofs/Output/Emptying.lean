import Scaffold.Output.Cleaning
import Scaffold.Proofs.Tree.Passed

/-!
Removing the directories that are left empty. Those that are deeper have their turn first, so that a
directory is empty at its turn if there is no file below it; and one with a file below it never is.
-/

namespace Scaffold

namespace Output

open Scaffold.Tree

variable {t v w : Tree} {root : Path} {above rest at_ x : Location} {left : List Location} {node : Node}

/-- A directory without a file below it. -/
structure Bare (t : Tree) (at_ : Location) : Prop where
  directory : t.node? at_ = some .directory
  noFile : ∀ rest bytes, t.node? (at_ ++ rest) ≠ some (.file bytes)

/-- What is below a bare directory is bare. -/
theorem Bare.below (bare : Bare t at_) (there : t.node? (at_ ++ rest) = some node) : Bare t (at_ ++ rest) where
  directory := by
    cases node with
    | directory => exact there
    | file bytes => exact absurd there (bare.noFile rest bytes)
  noFile more bytes := by
    rw [List.append_assoc]
    exact bare.noFile (rest ++ more) bytes

theorem exists_file_of_not_bare (directory : t.node? at_ = some .directory) (full : ¬ Bare t at_) :
    ∃ rest bytes, rest ≠ [] ∧ t.node? (at_ ++ rest) = some (.file bytes) := by
  by_contra none_
  refine full ⟨directory, fun rest bytes file => none_ ⟨rest, bytes, ?_, file⟩⟩
  rintro rfl
  rw [List.append_nil, directory] at file
  cases file

/-- From the tree `v` the bare directories below a location are gone, but for those that have their turn
yet. Everything else is as it was. -/
structure Emptied (v : Tree) (above : Location) (left : List Location) (w : Tree) : Prop where
  sound : w.Sound
  home : w.home = v.home
  gone : ∀ rest, rest ≠ [] → rest ∉ left → Bare v (above ++ rest) → w.node? (above ++ rest) = none
  kept : ∀ x, (∀ rest, rest ≠ [] → rest ∉ left → x = above ++ rest → ¬ Bare v x) →
    w.node? x = v.node? x

namespace Emptied

theorem start (sound : v.Sound)
    (all : ∀ rest, rest ≠ [] → v.node? (above ++ rest) = some .directory → rest ∈ left) :
    Emptied v above left v where
  sound := sound
  home := rfl
  gone rest some_ done bare := absurd (all rest some_ bare.directory) done
  kept _ _ := rfl

/-- Nothing is new. -/
theorem node?_eq_some (h : Emptied v above left w) (there : w.node? x = some node) : v.node? x = some node := by
  rw [← there]
  refine (h.kept x ?_).symm
  rintro rest some_ done rfl bare
  rw [h.gone rest some_ done bare] at there
  cases there

theorem file (h : Emptied v above left w) {bytes : ByteArray} :
    w.node? x = some (.file bytes) ↔ v.node? x = some (.file bytes) := by
  refine ⟨h.node?_eq_some, fun file => (h.kept x ?_).trans file⟩
  rintro rest some_ done rfl bare
  rw [bare.directory] at file
  cases file

/-- A directory that has its turn is still there. -/
theorem directory (h : Emptied v above (rest :: left) w) (there : v.node? (above ++ rest) = some .directory) :
    w.node? (above ++ rest) = some .directory := by
  refine (h.kept _ ?_).trans there
  intro other some_ done same
  rw [List.append_cancel_left same] at done
  exact absurd List.mem_cons_self done

/-- A bare directory is empty at its turn, since all that are deeper had theirs. -/
theorem empty (h : Emptied v above (rest :: left) w) (deeper : ∀ other ∈ left, other.length ≤ rest.length)
    (bare : Bare v (above ++ rest)) : ∀ more, more ≠ [] → w.node? (above ++ rest ++ more) = none := by
  intro more some_
  cases there : w.node? (above ++ rest ++ more) with
  | none => rfl
  | some node =>
    have bareBelow := bare.below (h.node?_eq_some there)
    rw [List.append_assoc] at bareBelow there
    have longer : rest.length < (rest ++ more).length := by
      simpa using List.length_pos_iff.mpr some_
    have done : rest ++ more ∉ rest :: left := by
      intro mem
      rcases List.mem_cons.mp mem with same | mem
      · exact some_ (by simpa using same)
      · exact absurd (deeper _ mem) (by omega)
    rw [h.gone (rest ++ more) (by simp [some_]) done bareBelow] at there
    cases there

theorem erase (h : Emptied v above (rest :: left) w) (some_ : rest ≠ []) (once : rest ∉ left)
    (bare : Bare v (above ++ rest))
    (empty : ∀ more, more ≠ [] → w.node? (above ++ rest ++ more) = none) :
    Emptied v above left (w.erase (above ++ rest)) where
  sound := h.sound.erase_empty (by simp [some_]) empty
  home := h.home
  gone other some' done bare' := by
    rw [node?_erase w (by simp [some_])]
    split
    · rfl
    · rename_i ne
      have done' : other ∉ rest :: left := by
        refine fun mem => (List.mem_cons.mp mem).elim (fun same => ?_) done
        exact ne (by rw [same])
      exact h.gone other some' done' bare'
  kept x free := by
    have ne : x ≠ above ++ rest := fun same => free rest some_ once same (same ▸ bare)
    rw [node?_erase w (by simp [some_]), if_neg ne]
    exact h.kept x fun other some' done => free other some' (fun mem => done (List.mem_cons_of_mem _ mem))

theorem skip (h : Emptied v above (rest :: left) w) (full : ¬ Bare v (above ++ rest)) :
    Emptied v above left w where
  sound := h.sound
  home := h.home
  gone other some_ done bare := by
    refine h.gone other some_ (fun mem => ?_) bare
    rcases List.mem_cons.mp mem with rfl | mem
    · exact full bare
    · exact done mem
  kept x free := by
    refine h.kept x fun other some_ done => free other some_ fun mem => ?_
    exact done (List.mem_cons_of_mem _ mem)

/-- A directory is found at its turn, where the way to the root passes none that is gone. -/
theorem locate (h : Emptied v above (rest :: left) w)
    (reached : v.locate ⟨root.anchor, root.parts ++ rest⟩ = .ok (above ++ rest))
    (located : v.locate root = .ok above) (there : v.node? (above ++ rest) = some .directory)
    (stays : ∀ rest, rest ≠ [] → above ++ rest ∈ v.passed root → ¬ Bare v (above ++ rest)) :
    w.locate ⟨root.anchor, root.parts ++ rest⟩ = .ok (above ++ rest) := by
  refine locate_of_passed h.home reached fun x mem => ?_
  have here := h.directory there
  have straight : ".." ∉ rest := fun mem => h.sound.straight _ _ here (List.mem_append_right _ mem)
  rcases mem_passed_append (locate_eq_ok located).symm straight mem with onWay | ⟨first, later, some_, rfl, rfl⟩
  · refine (h.kept x ?_).trans (directory_of_passed located x onWay)
    rintro other some_ - rfl
    exact stays other some_ onWay
  · rw [← List.append_assoc] at here
    exact h.sound.folder_of_below some_ here

end Emptied

theorem removeDirectory_of_empty {p : Path} (sound : t.Sound) (located : t.locate p = .ok at_)
    (there : t.node? at_ = some .directory) (empty : ∀ rest, rest ≠ [] → t.node? (at_ ++ rest) = none) :
    t.removeDirectory p = .ok (t.erase at_) := by
  simp [removeDirectory, located, there, sound.descendants_eq_nil.mpr empty]

theorem removeDirectory_of_full {p : Path} (located : t.locate p = .ok at_)
    (there : t.node? at_ = some .directory) (sound : t.Sound) (some_ : rest ≠ [])
    (full : t.node? (at_ ++ rest) = some node) : t.removeDirectory p = .error ⟨.notEmpty, p⟩ := by
  have notEmpty : t.descendants at_ ≠ [] := by
    intro none_
    rw [sound.descendants_eq_nil.mp none_ rest some_] at full
    cases full
  simp [removeDirectory, located, there, notEmpty]

/-- Directories that have their turn in this order: all that are bare are removed, and no others. -/
theorem removeEmpty_run (located : v.locate root = .ok above)
    (stays : ∀ rest, rest ≠ [] → above ++ rest ∈ v.passed root → ¬ Bare v (above ++ rest))
    (some_ : ∀ rest ∈ left, rest ≠ []) (once : left.Nodup)
    (deepest : left.Pairwise fun rest other => other.length ≤ rest.length)
    (directories : ∀ rest ∈ left, v.node? (above ++ rest) = some .directory)
    (reached : ∀ rest ∈ left, v.locate ⟨root.anchor, root.parts ++ rest⟩ = .ok (above ++ rest))
    (h : Emptied v above left w) :
    ∃ removed : List Location,
      (removeEmpty (left.map fun rest => ⟨root.anchor, root.parts ++ rest⟩) w).result =
        .ok (removed.map fun rest => ⟨root.anchor, root.parts ++ rest⟩) ∧
      removed.Sublist left ∧ (∀ rest ∈ left, rest ∈ removed ↔ Bare v (above ++ rest)) ∧
      Emptied v above [] (removeEmpty (left.map fun rest => ⟨root.anchor, root.parts ++ rest⟩) w).state := by
  induction left generalizing w with
  | nil => exact ⟨[], rfl, .slnil, by simp, h⟩
  | cons rest left ih =>
    obtain ⟨someHere, someLater⟩ := List.forall_mem_cons.mp some_
    obtain ⟨onceHere, onceLater⟩ := List.nodup_cons.mp once
    obtain ⟨deeper, deepestLater⟩ := List.pairwise_cons.mp deepest
    obtain ⟨there, directoriesLater⟩ := List.forall_mem_cons.mp directories
    obtain ⟨reachedHere, reachedLater⟩ := List.forall_mem_cons.mp reached
    have found := h.locate reachedHere located there stays
    have further {w : Tree} := @ih w someLater onceLater deepestLater directoriesLater reachedLater
    rw [List.map_cons, removeEmpty]
    by_cases bare : Bare v (above ++ rest)
    · have empty := h.empty deeper bare
      obtain ⟨removed, result, sublist, exactly_, ended⟩ := further (h.erase someHere onceHere bare empty)
      rw [removeDirectory_of_empty h.sound found (h.directory there) empty]
      refine ⟨rest :: removed, by simp [result, Except.map], sublist.cons_cons rest, ?_, ended⟩
      refine List.forall_mem_cons.mpr ⟨by simp [bare], fun other mem => ?_⟩
      have ne : other ≠ rest := by
        rintro rfl
        exact onceHere mem
      simpa [ne] using exactly_ other mem
    · obtain ⟨more, bytes, someMore, file⟩ := exists_file_of_not_bare there bare
      obtain ⟨removed, result, sublist, exactly_, ended⟩ := further (h.skip bare)
      rw [removeDirectory_of_full found (h.directory there) h.sound someMore (h.file.mpr file)]
      refine ⟨removed, result, sublist.cons rest, List.forall_mem_cons.mpr ⟨?_, exactly_⟩, ended⟩
      exact iff_of_false (fun mem => onceHere (sublist.subset mem)) bare

theorem filterMap_ite {α β : Type} (p : α → Bool) (f : α → β) (l : List α) :
    (l.filterMap fun a => if p a then some (f a) else none) = (l.filter p).map f := by
  induction l with
  | nil => rfl
  | cons a rest ih => cases here : p a <;> simp [here, ih]

/-- The directories below a root, each once, the deepest first. -/
theorem directoriesBelow_eq_ok (sound : v.Sound) (located : v.locate root = .ok above)
    (there : v.node? above = some .directory) :
    ∃ all : List Location,
      directoriesBelow v root = .ok (all.map fun rest => ⟨root.anchor, root.parts ++ rest⟩) ∧
      all.Nodup ∧ (all.Pairwise fun rest other => other.length ≤ rest.length) ∧
      ∀ rest, rest ∈ all ↔ rest ≠ [] ∧ v.node? (above ++ rest) = some .directory := by
  let sorted := (v.descendants above).mergeSort precedes
  let found := (sorted.filter fun entry => entry.2 == .directory).map (·.1)
  let deeper (rest other : Location) : Bool := decide (other.length ≤ rest.length)
  let below (rest : Location) : Path := ⟨root.anchor, root.parts ++ rest⟩
  have perm : sorted.Perm (v.descendants above) := List.mergeSort_perm _ _
  have order : (found.mergeSort deeper).Perm found := List.mergeSort_perm _ _
  have under : v.under? root = .ok (sorted.map fun entry => (below entry.1, entry.2)) := by
    rw [under?, located]
    simp only [if_pos there]
    rfl
  have listed : (sorted.map fun entry => (below entry.1, entry.2)).filterMap
      (fun entry => if entry.2 == .directory then some entry.1 else none) = found.map below := by
    rw [List.filterMap_map, List.map_map]
    exact filterMap_ite (fun entry => entry.2 == .directory) (fun entry => below entry.1) sorted
  have deepest : directoriesBelow v root = .ok ((found.mergeSort deeper).map below) := by
    have order : (found.mergeSort deeper).map below = (found.map below).mergeSort fun p q =>
        decide (q.parts.length ≤ p.parts.length) :=
      List.map_mergeSort fun rest _ other _ => by simp [deeper, below]
    rw [order, ← listed]
    simp only [directoriesBelow, under]
    rfl
  refine ⟨found.mergeSort deeper, deepest, ?_, ?_, fun rest => ?_⟩
  · refine order.nodup_iff.mpr ?_
    exact ((perm.map _).nodup_iff.mpr (nodup_descendants sound.distinct above)).sublist
      (List.filter_sublist.map _)
  · have trans (a b c : Location) (first : deeper a b = true) (second : deeper b c = true) : deeper a c = true :=
      decide_eq_true (Nat.le_trans (of_decide_eq_true second) (of_decide_eq_true first))
    have total (a b : Location) : (deeper a b || deeper b a) = true := by
      simpa [deeper] using Nat.le_total b.length a.length
    exact (List.pairwise_mergeSort trans total found).imp of_decide_eq_true
  · calc rest ∈ found.mergeSort deeper
      _ ↔ (rest, Node.directory) ∈ v.descendants above := by
        simp [found, sorted, beq_iff_eq]
      _ ↔ rest ≠ [] ∧ v.node? (above ++ rest) = some .directory := sound.mem_descendants_iff

/-- Cleaning runs through where the way to the root passes no directory that is removed. It removes the bare
directories below the root, each once. -/
theorem cleanDirectories_run (sound : v.Sound) (located : v.locate root = .ok above)
    (there : v.node? above = some .directory)
    (reached : ∀ rest, v.node? (above ++ rest) = some .directory →
      v.locate ⟨root.anchor, root.parts ++ rest⟩ = .ok (above ++ rest))
    (stays : ∀ rest, rest ≠ [] → above ++ rest ∈ v.passed root → ¬ Bare v (above ++ rest)) :
    ∃ removed, (cleanDirectories root v).result = .ok removed ∧ removed.Nodup ∧
      (∀ p, p ∈ removed ↔
        ∃ rest, rest ≠ [] ∧ Bare v (above ++ rest) ∧ p = ⟨root.anchor, root.parts ++ rest⟩) ∧
      Emptied v above [] (cleanDirectories root v).state := by
  obtain ⟨all, listed, once, deepest, members⟩ := directoriesBelow_eq_ok sound located there
  have start : Emptied v above all v := .start sound fun rest some_ dir => (members rest).mpr ⟨some_, dir⟩
  obtain ⟨removed, result, sublist, exactly_, ended⟩ := removeEmpty_run located stays
    (fun rest mem => ((members rest).mp mem).1) once deepest (fun rest mem => ((members rest).mp mem).2)
    (fun rest mem => reached rest ((members rest).mp mem).2) start
  have run : cleanDirectories root v = removeEmpty (all.map fun rest => ⟨root.anchor, root.parts ++ rest⟩) v := by
    rw [cleanDirectories, listed]
  rw [run]
  refine ⟨_, result, ?_, fun p => ?_, ended⟩
  · exact List.pairwise_map.mpr ((once.sublist sublist).imp fun apart same => apart (by simpa using same))
  rw [List.mem_map]
  constructor
  · rintro ⟨rest, mem, rfl⟩
    have inAll := sublist.subset mem
    exact ⟨rest, ((members rest).mp inAll).1, (exactly_ rest inAll).mp mem, rfl⟩
  · rintro ⟨rest, some_, bare, rfl⟩
    exact ⟨rest, (exactly_ rest ((members rest).mpr ⟨some_, bare.directory⟩)).mpr bare, rfl⟩

end Output

end Scaffold
