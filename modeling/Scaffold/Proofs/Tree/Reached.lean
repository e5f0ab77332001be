import Scaffold.Proofs.Tree.Passed
import Scaffold.Proofs.Tree.Refusal

/-!
What the names on a way reach. What a path reaches below a directory, it is reached from there by some of the
names that the path goes on with; and what is made on the way to a path is reached by the start of it.
-/

namespace Scaffold

theorem intercalate_sublist {α : Type} (separator : List α) {pieces pieces' : List (List α)}
    (h : pieces.Sublist pieces') : (separator.intercalate pieces).Sublist (separator.intercalate pieces') := by
  induction h with
  | slnil => exact .slnil
  | @cons pieces pieces' piece sub ih =>
    by_cases last : pieces' = []
    · obtain rfl : pieces = [] := by simpa [last] using sub
      simp
    · rw [List.intercalate_cons_of_ne_nil last]
      exact ih.trans (List.sublist_append_right _ _)
  | @cons_cons pieces pieces' piece sub ih =>
    by_cases none_ : pieces = []
    · have first : piece.Sublist (separator.intercalate (piece :: pieces')) := by
        by_cases last : pieces' = []
        · simp [last]
        · rw [List.intercalate_cons_of_ne_nil last, List.append_assoc]
          exact List.sublist_append_left _ _
      simpa [none_] using first
    · have some_ : pieces' ≠ [] := fun eq => none_ (by simpa [eq] using sub)
      rw [List.intercalate_cons_of_ne_nil none_, List.intercalate_cons_of_ne_nil some_]
      exact (List.Sublist.refl _).append ih

theorem Text.countBytes_le_of_sublist {cs cs' : List Char} (h : cs.Sublist cs') : countBytes cs ≤ countBytes cs' := by
  induction h with
  | slnil => exact Nat.le_refl _
  | cons ch _ ih => rw [countBytes]; omega
  | cons_cons ch _ ih => rw [countBytes, countBytes]; omega

namespace Tree

variable {t u : Tree} {at_ above rest place x : Location} {names more : List String} {p root : Path}
  {anchor : Anchor}

theorem impossible?_eq_none : impossible? p = none ↔
    Text.firstHalves? Text.isNameByte 0 p.text.toList = none ∧ '\x00' ∉ p.text.toList ∧
      Text.nameSize p.text ≤ pathLimit ∧
      ∀ name ∈ p.parts, '/' ∉ name.toList ∧ Text.spellsCharacter name.toList = false := by
  rw [impossible?, Text.chars_eq]
  cases Text.firstHalves? Text.isNameByte 0 p.text.toList with
  | some e => simp
  | none =>
    by_cases null : '\x00' ∈ p.text.toList
    · simp [null]
    · by_cases long : pathLimit < Text.nameSize p.text
      · simp [null, long, Nat.not_le.mpr long]
      · simp [null, long, Nat.le_of_not_lt long, Text.chars_eq]

theorem text_sublist (some_ : names ≠ []) (sub : names.Sublist more) :
    (Path.text ⟨anchor, names⟩).toList.Sublist (Path.text ⟨anchor, more⟩).toList := by
  have some' : more ≠ [] := fun eq => some_ (by simpa [eq] using sub)
  have inner : ("/".intercalate names).toList.Sublist ("/".intercalate more).toList := by
    rw [String.toList_intercalate, String.toList_intercalate]
    exact intercalate_sublist _ (sub.map _)
  cases anchor <;> simpa [Path.text, some_, some'] using inner

/-- A path is possible if one with more names is. -/
theorem impossible?_of_sublist (some_ : names ≠ []) (sub : names.Sublist more)
    (possible : impossible? ⟨anchor, more⟩ = none) : impossible? ⟨anchor, names⟩ = none := by
  obtain ⟨halves, null, short, slashes⟩ := impossible?_eq_none.mp possible
  have text := @text_sublist _ _ anchor some_ sub
  refine impossible?_eq_none.mpr ⟨?_, fun mem => null (text.subset mem), ?_, fun name mem => ?_⟩
  · exact Text.firstHalves?_eq_none.mpr fun ch mem => Text.firstHalves?_eq_none.mp halves ch (text.subset mem)
  · rw [Text.nameSize, Text.chars_eq] at short ⊢
    exact Nat.le_trans (Text.countBytes_le_of_sublist text) short
  · exact slashes name (sub.subset mem)

/-- The names that a way ends with are among those that it takes. -/
theorem exists_of_placeFrom (at_ : Location) (names : List String) :
    ∃ count later, placeFrom at_ names = at_.take count ++ later ∧ later.Sublist names := by
  induction names generalizing at_ with
  | nil => exact ⟨at_.length, [], by simp [placeFrom], .slnil⟩
  | cons name rest ih =>
    rw [placeFrom]
    split
    · obtain ⟨count, later, same, sub⟩ := ih at_.dropLast
      refine ⟨min count (at_.length - 1), later, ?_, sub.cons name⟩
      rw [same, List.dropLast_eq_take, List.take_take]
    · obtain ⟨count, later, same, sub⟩ := ih (at_ ++ [name])
      by_cases back : count ≤ at_.length
      · exact ⟨count, later, by rw [same, List.take_append_of_le_length back], sub.cons name⟩
      · refine ⟨at_.length, name :: later, ?_, sub.cons_cons name⟩
        rw [same, List.take_of_length_le (by simp; omega)]
        simp

theorem sublist_of_placeFrom (h : placeFrom above names = above ++ rest) : rest.Sublist names := by
  obtain ⟨count, later, same, sub⟩ := exists_of_placeFrom above names
  rw [h] at same
  have rest_ : rest = later.drop (above.length - (above.take count).length) := by
    have dropped := congrArg (List.drop above.length) same
    rw [List.drop_left, List.drop_append, List.drop_of_length_le (List.length_take_le' _ _)] at dropped
    exact dropped
  rw [rest_]
  exact (List.drop_sublist _ _).trans sub

theorem short_of_walk (h : t.walk at_ names = .ok place) : ∀ name ∈ names, Text.nameSize name ≤ nameLimit := by
  induction names generalizing at_ with
  | nil => simp
  | cons name rest ih =>
    obtain ⟨-, short, further⟩ := walk_cons_eq_ok.mp h
    exact List.forall_mem_cons.mpr ⟨short, ih further⟩

/-- Names that are short enough lead straight to what is there. -/
theorem Sound.walk_straight (h : t.Sound) {node : Node} (there : t.node? (at_ ++ names) = some node)
    (short : ∀ name ∈ names, Text.nameSize name ≤ nameLimit) :
    t.walk at_ names = .ok (at_ ++ names) := by
  induction names generalizing at_ with
  | nil => simp [walk]
  | cons name rest ih =>
    have here := h.folder_of_below (List.cons_ne_nil name rest) there
    have notUp : name ≠ ".." := by
      rintro rfl
      exact h.straight _ node there (by simp)
    obtain ⟨shortHere, shortRest⟩ := List.forall_mem_cons.mp short
    rw [List.append_cons] at there ⊢
    rw [walk_cons_of here shortHere, next, if_neg notUp]
    exact ih there shortRest

/-- What a path reaches below a directory is reached without its detours. -/
theorem Sound.locate_below (h : t.Sound) (located : t.locate root = .ok above) {node : Node}
    (there : t.node? (above ++ rest) = some node) (some_ : rest ≠ [])
    (reached : t.locate ⟨root.anchor, root.parts ++ more⟩ = .ok (above ++ rest)) :
    t.locate ⟨root.anchor, root.parts ++ rest⟩ = .ok (above ++ rest) := by
  obtain ⟨-, start, toRoot⟩ := locate_eq_ok_iff.mp located
  obtain ⟨possible, -, further⟩ := locate_eq_ok_iff.mp reached
  have place := (locate_eq_ok reached).symm
  rw [placeOf_append, ← locate_eq_ok located] at place
  have sub := sublist_of_placeFrom place
  have short : ∀ name ∈ rest, Text.nameSize name ≤ nameLimit := fun name mem =>
    short_of_walk further name (List.mem_append_right _ (sub.subset mem))
  refine locate_eq_ok_iff.mpr ⟨?_, start, ?_⟩
  · exact impossible?_of_sublist (by simp [some_]) ((List.Sublist.refl _).append sub) possible
  · rw [walk_append toRoot]
    exact h.walk_straight there short

/-- The directories are kept, and all that is changed is on the way to some paths: the start of one leads
there. -/
structure ChangedAlong (paths : Path → Prop) (t u : Tree) : Prop where
  keeps : KeepsDirectories t u
  along : ∀ x, u.node? x ≠ t.node? x →
    ∃ p names, paths p ∧ names <+: p.parts ∧ u.locate ⟨p.anchor, names⟩ = .ok x

namespace ChangedAlong

variable {paths : Path → Prop}

theorem refl (t : Tree) : ChangedAlong paths t t := ⟨.refl t, fun _ changed => absurd rfl changed⟩

theorem trans {v : Tree} (h : ChangedAlong paths t u) (h' : ChangedAlong paths u v) :
    ChangedAlong paths t v where
  keeps := h.keeps.trans h'.keeps
  along := by
    intro x changed
    by_cases same : v.node? x = u.node? x
    · obtain ⟨p, names, isPath, start, located⟩ := h.along x (same ▸ changed)
      exact ⟨p, names, isPath, start, h'.keeps.locate located⟩
    · exact h'.along x same

theorem put (isPath : paths p) (start : names <+: p.parts)
    (located : t.locate ⟨p.anchor, names⟩ = .ok at_) (free : t.node? at_ ≠ some .directory)
    (node : Node) : ChangedAlong paths t (t.put at_ node) where
  keeps := keepsDirectories_put free node
  along := by
    intro x changed
    rw [node?_put t (ne_nil_of_node? rfl free)] at changed
    obtain rfl : x = at_ := by
      by_contra other
      exact changed (if_neg other)
    exact ⟨p, names, isPath, start, (keepsDirectories_put free node).locate located⟩

theorem makeDirectory (isPath : paths p) (start : names <+: p.parts)
    (made : t.makeDirectory ⟨p.anchor, names⟩ = .ok u) : ChangedAlong paths t u := by
  unfold Tree.makeDirectory at made
  split at made
  · cases made
  · rename_i at_ located
    split at made
    · obtain rfl := Except.ok.inj made
      exact refl t
    · cases made
    · rename_i free
      obtain rfl := Except.ok.inj made
      exact put isPath start located (by simp [free]) _

theorem make (isPath : paths p) (start : names <+: p.parts) (t : Tree) :
    ChangedAlong paths t (makeDirectoriesTo.make t ⟨p.anchor, names⟩).1 := by
  unfold makeDirectoriesTo.make
  split
  · rename_i made
    exact makeDirectory isPath start made
  · exact refl t

/-- Making directories changes nothing else, even where it is refused in the end. -/
theorem makeDirectoriesTo (isPath : paths p) (start : names.reverse <+: p.parts) :
    ChangedAlong paths t (t.makeDirectoriesTo p.anchor names).1 := by
  induction names generalizing t with
  | nil => exact make isPath (List.nil_prefix) t
  | cons name above ih =>
    rw [List.reverse_cons] at start
    have before : ChangedAlong paths t (t.makeDirectoriesTo p.anchor above).1 :=
      ih ((List.prefix_append _ _).trans start)
    have whole : (name :: above).reverse <+: p.parts := by simpa using start
    simp only [Tree.makeDirectoriesTo]
    split
    · split
      · rename_i eq
        rw [eq] at before
        exact before.trans (make isPath whole _)
      · exact before
    · exact make isPath whole t

theorem write (isPath : paths p) {bytes : ByteArray} (written : t.write p bytes = .ok u) :
    ChangedAlong paths t u := by
  obtain ⟨at_, located, free, -, rfl⟩ := write_eq_ok.mp written
  exact put isPath (List.prefix_refl _) located free _

end ChangedAlong

end Tree

end Scaffold
