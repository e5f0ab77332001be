import Scaffold.Output.File
import Scaffold.Proofs.Action
import Scaffold.Proofs.Tree.Reached
import Scaffold.Proofs.Tree.Sound

/-!
What a tree holds after artifacts were written: at each place the bytes of the last artifact that leads
there, elsewhere what was there before or a new directory. Where all places are there already, nothing else
changes.
-/

namespace Scaffold.Output

open Scaffold.Tree

variable {c : Config} {a : Artifact} {as : List Artifact} {t u w : Tree} {p : Path} {at_ : Location}
  {content : ByteArray}

theorem makeDirectories_eq_ok (h : (makeDirectories p t).result = .ok ()) :
    t.makeDirectories p = ((makeDirectories p t).state, none) := by
  unfold makeDirectories at h ⊢
  rcases made : t.makeDirectories p with ⟨u, refused⟩
  cases refused <;> simp_all

/-- Bytes that are placed are in a place whose directories were made. -/
theorem place_eq_ok (h : (place p content t).result = .ok ()) :
    ∃ w at_, Grown t w ∧ w.node? at_ ≠ some .directory ∧ IsPlace w p at_ ∧
      (place p content t).state = w.put at_ (.file content) := by
  obtain ⟨_, made, changed⟩ := Action.bind_eq_ok.mp h
  obtain ⟨grown, parent⟩ := makeDirectories_eq (makeDirectories_eq_ok made)
  have written := Action.change_eq_ok changed
  obtain ⟨at_, located, free, folder, eq⟩ := write_eq_ok.mp written
  refine ⟨_, at_, grown, free, ⟨located, parent, folder⟩, ?_⟩
  rw [place, Action.bind_eq, Action.state_bind made, eq]

theorem place_of_isPlace (isPlace : IsPlace t p at_) (free : t.node? at_ ≠ some .directory)
    (content : ByteArray) : place p content t = ⟨[], t.put at_ (.file content), .ok ()⟩ := by
  have made : makeDirectories p.parent t = ⟨[], t, .ok ()⟩ := by
    simp [makeDirectories, isPlace.makeDirectories]
  have written := Action.change_of_ok (f := fun t : Tree => t.write p content) (isPlace.write free content)
  simp only [place, Action.bind_eq, Action.bind, made, written, List.append_nil]

/-- Opening a file anew and writing it puts the bytes into its place. -/
theorem writeOne_of_opened {notes : List Note} (path : filePath c a = .ok p) (encoded : bytes c a = .ok content)
    (opened : openAnew p t = ⟨notes, w.put at_ (.file ByteArray.empty), .ok ()⟩)
    (isPlace : IsPlace w p at_) (free : w.node? at_ ≠ some .directory) :
    (writeOne c a t).result = .ok p ∧ ChangedAt w at_ (some (.file content)) (writeOne c a t).state := by
  have ne : at_ ≠ [] := ne_nil_of_node? rfl free
  have again := (keepsDirectories_put free (.file ByteArray.empty)).isPlace isPlace
  have notDirectory : (w.put at_ (.file ByteArray.empty)).node? at_ ≠ some .directory := by
    simp [node?_put w ne]
  have written := Action.change_of_ok (f := fun t : Tree => t.write p content) (again.write notDirectory content)
  have ended : writeOne c a t =
      ⟨notes ++ [note .debug ("Wrote " ++ p.text)],
        (w.put at_ (.file ByteArray.empty)).put at_ (.file content), .ok p⟩ := by
    simp only [writeOne, Action.bind_eq, path, encoded, mapError_ok, Action.ofExcept_bind]
    simp only [Action.bind, Action.mapError, opened, mapError_ok, written]
    rfl
  rw [ended]
  refine ⟨rfl, rfl, fun other => ?_⟩
  rw [node?_put _ ne, node?_put _ ne]
  split <;> rfl

/-- The bytes of an artifact that is written are in a place whose directories were made. -/
theorem writeOne_eq_ok (h : (writeOne c a t).result = .ok p) :
    filePath c a = .ok p ∧ ∃ w at_ content, bytes c a = .ok content ∧ Grown t w ∧
      w.node? at_ ≠ some .directory ∧ IsPlace w p at_ ∧
      ChangedAt w at_ (some (.file content)) (writeOne c a t).state := by
  obtain ⟨q, path, h'⟩ := Action.ofExcept_bind_eq_ok.mp h
  obtain ⟨_, opened, h'⟩ := Action.bind_eq_ok.mp h'
  obtain ⟨content, encoded, h'⟩ := Action.ofExcept_bind_eq_ok.mp h'
  obtain ⟨_, _, h'⟩ := Action.bind_eq_ok.mp h'
  obtain rfl : q = p := Except.ok.inj h'
  have path' : filePath c a = .ok q := mapError_eq_ok.mp path
  have opened := Action.result_mapError_eq_ok.mp opened
  obtain ⟨w, at_, grown, free, isPlace, state⟩ := place_eq_ok opened
  have ended : openAnew q t =
      ⟨(openAnew q t).notes, w.put at_ (.file ByteArray.empty), .ok ()⟩ := by
    rw [← state, ← opened]
    rfl
  exact ⟨path', w, at_, content, encoded, grown, free, isPlace,
    (writeOne_of_opened path' encoded ended isPlace free).2⟩

/-- The place and the bytes of an artifact's file. -/
def fileOf? (t : Tree) (c : Config) (a : Artifact) : Option (Location × ByteArray) :=
  match filePath c a, bytes c a with
  | .ok p, .ok content => some (t.placeOf p, content)
  | _, _ => none

/-- Where a file belongs does not depend on what is there. -/
theorem fileOf?_of_keeps (keeps : KeepsDirectories t u) (c : Config) : fileOf? u c = fileOf? t c := by
  funext a
  simp only [fileOf?, keeps.placeOf]

/-- What the last of some files leaves at a place. -/
def lastAt (files : List (Location × ByteArray)) (at_ : Location) : Option ByteArray :=
  files.reverse.lookup at_

theorem lastAt_cons (file : Location × ByteArray) (files : List (Location × ByteArray))
    (at_ : Location) : lastAt (file :: files) at_ =
      (lastAt files at_).or (if at_ = file.1 then some file.2 else none) := by
  obtain ⟨place, content⟩ := file
  rw [lastAt, List.reverse_cons, List.lookup_append, lookup_cons_ite, List.lookup_nil]
  rfl

theorem mem_of_lastAt {files : List (Location × ByteArray)} (h : lastAt files at_ = some content) :
    (at_, content) ∈ files := by
  obtain ⟨before, after, eq, _⟩ := List.lookup_eq_some_iff.mp h
  have mem : (at_, content) ∈ files.reverse := by
    rw [eq]
    simp
  simpa using mem

theorem lastAt_of_mem {files : List (Location × ByteArray)} (h : (at_, content) ∈ files) :
    ∃ last, lastAt files at_ = some last ∧ (at_, last) ∈ files := by
  induction files with
  | nil => simp at h
  | cons file rest ih =>
    rw [lastAt_cons]
    cases later : lastAt rest at_ with
    | some last => exact ⟨last, rfl, List.mem_cons_of_mem _ (mem_of_lastAt later)⟩
    | none =>
      rcases List.mem_cons.mp h with rfl | h
      · exact ⟨content, by simp, List.mem_cons_self⟩
      · obtain ⟨last, found, _⟩ := ih h
        simp [found] at later

theorem fileOf?_eq_some_iff : fileOf? t c a = some (at_, content) ↔
    ∃ p, filePath c a = .ok p ∧ bytes c a = .ok content ∧ t.placeOf p = at_ := by
  unfold fileOf?
  cases filePath c a with
  | error e => simp
  | ok p =>
    cases bytes c a with
    | error e => simp
    | ok content' => simp [and_comm]

theorem fileOf?_eq_some (path : filePath c a = .ok p) (encoded : bytes c a = .ok content)
    (isPlace : IsPlace t p at_) : fileOf? t c a = some (at_, content) :=
  fileOf?_eq_some_iff.mpr ⟨p, path, encoded, isPlace.eq_placeOf⟩

/-- Each artifact has bytes and a place in the tree. -/
def AllPlaced (c : Config) (t : Tree) (as : List Artifact) : Prop :=
  ∀ a ∈ as, ∃ p at_ content, filePath c a = .ok p ∧ bytes c a = .ok content ∧ IsPlace t p at_

theorem writeEach_eq_ok {paths : List Path}
    (h : (Action.mapEach (writeOne c) as t).result = .ok paths) :
    let u := (Action.mapEach (writeOne c) as t).state
    AllPlaced c u as ∧ KeepsDirectories t u ∧
      ∀ at_, match lastAt (as.filterMap (fileOf? t c)) at_ with
        | some content => u.node? at_ = some (.file content)
        | none => u.node? at_ = t.node? at_ ∨ t.node? at_ = none ∧ u.node? at_ = some .directory := by
  induction as generalizing t paths with
  | nil => exact ⟨by simp [AllPlaced], KeepsDirectories.refl t, fun at_ => .inl rfl⟩
  | cons a rest ih =>
    obtain ⟨p, more, rfl, written, restOk, state⟩ := Action.mapEach_cons_eq_ok h
    obtain ⟨path, w, at_, content, encoded, grown, free, isPlace, changed⟩ := writeOne_eq_ok written
    have keepsFirst := changed.keepsDirectories free
    have keepsBoth := grown.keepsDirectories.trans keepsFirst
    obtain ⟨placed, keeps, laid⟩ := ih restOk
    rw [← state] at placed keeps laid
    rw [fileOf?_of_keeps keepsBoth] at laid
    refine ⟨?_, keepsBoth.trans keeps, ?_⟩
    · intro b hb
      rcases List.mem_cons.mp hb with rfl | hb
      · exact ⟨p, at_, content, path, encoded, (keepsFirst.trans keeps).isPlace isPlace⟩
      · exact placed b hb
    · intro other
      have here := fileOf?_eq_some path encoded isPlace
      rw [fileOf?_of_keeps grown.keepsDirectories] at here
      rw [List.filterMap_cons_some here, lastAt_cons]
      have later := laid other
      cases last : lastAt (rest.filterMap (fileOf? t c)) other with
      | some content' => simpa [last] using later
      | none =>
        rw [last] at later
        have first := changed.nodes other
        by_cases same : other = at_
        · subst same
          rw [if_pos rfl] at first
          simpa [first] using later
        · rw [if_neg same] at first
          simp only [Option.none_or, if_neg same]
          rw [first] at later
          rcases later with later | later <;> rcases grown.node other with first | first <;> simp_all

/-- Artifacts whose places are all there are written without any other change. -/
theorem writeEach_of_placed (placed : AllPlaced c t as)
    (free : ∀ file ∈ as.filterMap (fileOf? t c), t.node? file.1 ≠ some .directory) :
    (∃ paths, (Action.mapEach (writeOne c) as t).result = .ok paths) ∧
      ∀ at_, (Action.mapEach (writeOne c) as t).state.node? at_ =
        match lastAt (as.filterMap (fileOf? t c)) at_ with
        | some content => some (.file content)
        | none => t.node? at_ := by
  induction as generalizing t with
  | nil => exact ⟨⟨[], rfl⟩, fun at_ => rfl⟩
  | cons a rest ih =>
    obtain ⟨p, at_, content, path, encoded, isPlace⟩ := placed a List.mem_cons_self
    rw [List.filterMap_cons_some (fileOf?_eq_some path encoded isPlace)] at free ⊢
    have freeHere : t.node? at_ ≠ some .directory := free (at_, content) List.mem_cons_self
    obtain ⟨written, changed⟩ := writeOne_of_opened path encoded
      (place_of_isPlace isPlace freeHere ByteArray.empty) isPlace freeHere
    have keeps := changed.keepsDirectories freeHere
    have placedRest : AllPlaced c (writeOne c a t).state rest := by
      intro b hb
      obtain ⟨p', at_', content', path', encoded', isPlace'⟩ := placed b (List.mem_cons_of_mem _ hb)
      exact ⟨p', at_', content', path', encoded', keeps.isPlace isPlace'⟩
    have freeRest : ∀ file ∈ rest.filterMap (fileOf? (writeOne c a t).state c),
        (writeOne c a t).state.node? file.1 ≠ some .directory := by
      intro file hf
      rw [fileOf?_of_keeps keeps] at hf
      rw [changed.nodes]
      split
      · simp
      · exact free file (List.mem_cons_of_mem _ hf)
    obtain ⟨⟨paths, ok⟩, nodesRest⟩ := ih placedRest freeRest
    obtain ⟨result, state⟩ := Action.mapEach_cons_of_ok written ok
    refine ⟨⟨p :: paths, result⟩, fun other => ?_⟩
    rw [state, nodesRest, fileOf?_of_keeps keeps, lastAt_cons, changed.nodes]
    cases lastAt (rest.filterMap (fileOf? t c)) other with
    | some content' => rfl
    | none =>
      by_cases same : other = at_ <;> simp [same]

/-- Every written artifact can be read again where it leads: the bytes are those of one of the artifacts, which
leads to the same place. -/
theorem read_of_written {paths : List Path}
    (h : (Action.mapEach (writeOne c) as t).result = .ok paths) (mem : a ∈ as) (path : filePath c a = .ok p) :
    ∃ b ∈ as, ∃ content, bytes c b = .ok content ∧
      (Action.mapEach (writeOne c) as t).state.read p = .ok content ∧
      ∃ q, filePath c b = .ok q ∧ t.placeOf p = t.placeOf q := by
  obtain ⟨placed, keeps, laid⟩ := writeEach_eq_ok h
  obtain ⟨p', at_, content, path', encoded, isPlace⟩ := placed a mem
  obtain rfl := Except.ok.inj (path'.symm.trans path)
  have place := (keeps.placeOf p').symm.trans isPlace.eq_placeOf
  have file : (at_, content) ∈ as.filterMap (fileOf? t c) :=
    List.mem_filterMap.mpr ⟨a, mem, fileOf?_eq_some_iff.mpr ⟨p', path, encoded, place⟩⟩
  -- of the artifacts with this place the last one is what is there in the end
  obtain ⟨last, isLast, memLast⟩ := lastAt_of_mem file
  obtain ⟨b, memB, fileB⟩ := List.mem_filterMap.mp memLast
  obtain ⟨q, pathB, encodedB, placeB⟩ := fileOf?_eq_some_iff.mp fileB
  have here := laid at_
  rw [isLast] at here
  exact ⟨b, memB, last, encodedB, read_eq_ok.mpr ⟨at_, isPlace.located, here⟩, q, pathB,
    place.trans placeB.symm⟩

/-- Writing artifacts succeeds if each of them can be written in turn. -/
theorem write_eq_ok_iff {paths : List Path} : (write c as t).result = .ok paths ↔
    (Action.mapEach (writeOne c) as t).result = .ok paths := by
  constructor
  · intro h
    obtain ⟨written, ok, h⟩ := Action.bind_eq_ok.mp h
    obtain ⟨_, _, h⟩ := Action.bind_eq_ok.mp h
    rw [ok]
    exact h
  · intro h
    exact Action.bind_eq_ok.mpr ⟨paths, h, Action.bind_eq_ok.mpr ⟨(), rfl, rfl⟩⟩

theorem state_write {paths : List Path}
    (h : (Action.mapEach (writeOne c) as t).result = .ok paths) :
    (write c as t).state = (Action.mapEach (writeOne c) as t).state :=
  Action.state_bind h

theorem preserves_place (p : Path) (content : ByteArray) : (place p content).Preserves Sound := by
  refine Action.Preserves.bind ?_ fun _ => Action.Preserves.change fun s s' written h => h.write written
  intro s h
  have made := h.makeDirectories p.parent
  unfold makeDirectories
  split <;> simp_all

/-- Writing leaves a tree as a file system has it. -/
theorem preserves_write (c : Config) (as : List Artifact) : (write c as).Preserves Sound := by
  refine Action.Preserves.bind (Action.Preserves.mapEach fun a _ => ?_) fun written =>
    Action.Preserves.bind (.note _) fun _ => .ok _
  refine Action.Preserves.bind (.ofExcept _) fun p => Action.Preserves.bind ?_ fun _ =>
    Action.Preserves.bind (.ofExcept _) fun content => Action.Preserves.bind ?_ fun _ =>
      Action.Preserves.bind (.note _) fun _ => .ok _
  · exact .mapError _ (preserves_place p _)
  · exact .mapError _ (.change fun s s' written h => h.write written)

/-- All that writing changes is on the way to the files. -/
theorem preserves_changedAlong {paths : Path → Prop} (all : ∀ a ∈ as, ∀ p, filePath c a = .ok p → paths p) :
    (write c as).Preserves (ChangedAlong paths t) := by
  refine .bind (.mapEach fun a mem => ?_) fun written => .bind (.note _) fun _ => .ok _
  cases path : filePath c a with
  | error e =>
    intro s along
    rw [writeOne, path, Action.bind_eq, Action.bind_of_error (e := .misfit e) rfl]
    exact along
  | ok p =>
    have isPath := all a mem p path
    have changed (content : ByteArray) :
        (Action.change (·.write p content)).Preserves (ChangedAlong paths t) :=
      .change fun s s' written along => along.trans (.write isPath written)
    have made : (makeDirectories p.parent).Preserves (ChangedAlong paths t) := by
      intro s along
      have start : p.parent.parts.reverse.reverse <+: p.parts := by
        simpa [Path.parent] using List.dropLast_prefix p.parts
      have made := along.trans (.makeDirectoriesTo isPath start)
      unfold makeDirectories Tree.makeDirectories
      split <;> simp_all [Path.parent]
    rw [writeOne, path, mapError_ok, Action.bind_eq, Action.ofExcept_bind]
    refine .bind (.mapError _ (.bind made fun _ => changed _)) fun _ => .bind (.ofExcept _) fun content =>
      .bind (.mapError _ (changed content)) fun _ => .bind (.note _) fun _ => .ok _

end Scaffold.Output
