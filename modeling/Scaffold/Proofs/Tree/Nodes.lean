import Scaffold.Tree.Basic

/-!
What is where in a tree, before and after it is changed at one location. A change of one location leaves
every other location as it is.
-/

namespace Scaffold.Tree

variable {t u v : Tree} {at_ other : Location}

@[simp] theorem node?_nil (t : Tree) : t.node? [] = some .directory := by simp [node?]

theorem node?_of_ne_nil (t : Tree) (h : at_ ≠ []) : t.node? at_ = t.nodes.lookup at_ := by
  simp [node?, h]

theorem lookup_cons_ite {β : Type} (other place : Location) (old : β) (rest : List (Location × β)) :
    ((place, old) :: rest).lookup other = if other = place then some old else rest.lookup other := by
  by_cases h : other = place
  · simp [h]
  · rw [List.lookup_cons, if_neg h, beq_eq_false_iff_ne.mpr h]

theorem lookup_replace (nodes : List (Location × Node)) (at_ other : Location) (node : Node) :
    (nodes.map fun (place, old) => if place = at_ then (place, node) else (place, old)).lookup other =
      if other = at_ then (nodes.lookup at_).map fun _ => node else nodes.lookup other := by
  induction nodes with
  | nil => simp
  | cons first rest ih =>
    obtain ⟨place, old⟩ := first
    simp only [List.map_cons, lookup_cons_ite at_, lookup_cons_ite other place]
    by_cases hp : place = at_
    · rw [if_pos hp, lookup_cons_ite, ih, hp]
      by_cases ho : other = at_ <;> simp [ho]
    · rw [if_neg hp, lookup_cons_ite, ih, if_neg (Ne.symm hp)]
      by_cases ho : other = at_
      · simp [ho, Ne.symm hp]
      · simp [ho]

theorem lookup_filter_ne (nodes : List (Location × Node)) (at_ other : Location) :
    (nodes.filter fun (place, _) => place ≠ at_).lookup other =
      if other = at_ then none else nodes.lookup other := by
  induction nodes with
  | nil => simp
  | cons first rest ih =>
    obtain ⟨place, old⟩ := first
    rw [lookup_cons_ite]
    by_cases hp : place = at_
    · rw [List.filter_cons_of_neg (by simp [hp]), ih, hp]
      by_cases ho : other = at_ <;> simp [ho]
    · rw [List.filter_cons_of_pos (by simp [hp]), lookup_cons_ite, ih]
      by_cases ho : other = at_
      · simp [ho, Ne.symm hp]
      · simp [ho]

theorem node?_put (t : Tree) (h : at_ ≠ []) (node : Node) (other : Location) :
    (t.put at_ node).node? other = if other = at_ then some node else t.node? other := by
  by_cases root : other = []
  · subst root
    simp [Ne.symm h]
  · rw [node?_of_ne_nil _ root, node?_of_ne_nil _ root, put]
    split
    · rename_i there
      rw [lookup_replace]
      obtain ⟨old, hold⟩ := Option.isSome_iff_exists.mp there
      simp [hold]
    · rename_i there
      rw [Bool.not_eq_true, Option.isSome_eq_false_iff, Option.isNone_iff_eq_none] at there
      by_cases ho : other = at_
      · simp [List.lookup_append, ho, there]
      · simp [List.lookup_append, ho, lookup_cons_ite]

theorem node?_erase (t : Tree) (h : at_ ≠ []) (other : Location) :
    (t.erase at_).node? other = if other = at_ then none else t.node? other := by
  by_cases root : other = []
  · subst root
    simp [Ne.symm h]
  · rw [node?_of_ne_nil _ root, node?_of_ne_nil _ root, erase, lookup_filter_ne]

@[simp] theorem home_put (t : Tree) (at_ : Location) (node : Node) : (t.put at_ node).home = t.home := rfl

@[simp] theorem home_erase (t : Tree) (at_ : Location) : (t.erase at_).home = t.home := rfl

/-- Where paths start depends on the working directory alone. -/
theorem start_of_home (home : u.home = t.home) (anchor : Anchor) : u.start anchor = t.start anchor := by
  unfold start
  rw [home]

/-- The directories of a tree are directories in another, with the same working directory. -/
structure KeepsDirectories (t u : Tree) : Prop where
  home : u.home = t.home
  directory : ∀ at_, t.node? at_ = some .directory → u.node? at_ = some .directory

namespace KeepsDirectories

theorem refl (t : Tree) : KeepsDirectories t t := ⟨rfl, fun _ h => h⟩

theorem trans (h : KeepsDirectories t u) (h' : KeepsDirectories u v) : KeepsDirectories t v :=
  ⟨h'.home.trans h.home, fun at_ dir => h'.directory at_ (h.directory at_ dir)⟩

theorem start (h : KeepsDirectories t u) (anchor : Anchor) : u.start anchor = t.start anchor :=
  start_of_home h.home anchor

end KeepsDirectories

/-- Nothing but directories is new, and everything else is as before. -/
structure Grown (t u : Tree) : Prop where
  home : u.home = t.home
  node : ∀ at_, u.node? at_ = t.node? at_ ∨ t.node? at_ = none ∧ u.node? at_ = some .directory

namespace Grown

theorem refl (t : Tree) : Grown t t := ⟨rfl, fun _ => .inl rfl⟩

theorem trans (h : Grown t u) (h' : Grown u v) : Grown t v where
  home := h'.home.trans h.home
  node := by
    intro at_
    rcases h.node at_ with same | ⟨free, made⟩ <;> rcases h'.node at_ with same' | ⟨free', made'⟩
    · exact .inl (same'.trans same)
    · exact .inr ⟨same ▸ free', made'⟩
    · exact .inr ⟨free, same'.trans made⟩
    · rw [made] at free'
      exact absurd free' (by simp)

theorem put_directory (h : t.node? at_ = none) : Grown t (t.put at_ .directory) where
  home := rfl
  node := by
    intro other
    have ne : at_ ≠ [] := by
      rintro rfl
      simp at h
    rw [node?_put t ne]
    by_cases same : other = at_
    · subst same
      simp [h]
    · simp [same]

theorem keepsDirectories (h : Grown t u) : KeepsDirectories t u where
  home := h.home
  directory := by
    intro at_ dir
    rcases h.node at_ with same | ⟨free, _⟩
    · exact same.trans dir
    · rw [dir] at free
      exact absurd free (by simp)

end Grown

/-- One tree is as another but for one location, where it has a node or none. -/
structure ChangedAt (t : Tree) (at_ : Location) (node : Option Node) (u : Tree) : Prop where
  home : u.home = t.home
  nodes : ∀ x, u.node? x = if x = at_ then node else t.node? x

namespace ChangedAt

theorem put (h : t.node? at_ ≠ some .directory) (node : Node) : ChangedAt t at_ (some node) (t.put at_ node) where
  home := rfl
  nodes := node?_put t (by rintro rfl; simp at h) node

theorem erase (h : t.node? at_ ≠ some .directory) : ChangedAt t at_ none (t.erase at_) where
  home := rfl
  nodes := node?_erase t (by rintro rfl; simp at h)

/-- A change of a location that is no directory keeps the directories. -/
theorem keepsDirectories {node : Option Node} (h : ChangedAt t at_ node u) (free : t.node? at_ ≠ some .directory) :
    KeepsDirectories t u where
  home := h.home
  directory := by
    intro other dir
    rw [h.nodes, if_neg, dir]
    rintro rfl
    exact free dir

end ChangedAt

/-- Putting a node where no directory is keeps the directories. -/
theorem keepsDirectories_put (h : t.node? at_ ≠ some .directory) (node : Node) :
    KeepsDirectories t (t.put at_ node) :=
  (ChangedAt.put h node).keepsDirectories h

theorem exists?_congr {p : Path} (node : u.nodeAt? p = t.nodeAt? p) : u.exists? p = t.exists? p := by
  simp only [exists?, node]

end Scaffold.Tree
