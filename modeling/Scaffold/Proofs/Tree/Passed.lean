import Mathlib.Data.List.Induction
import Scaffold.Proofs.Tree.Sound

/-!
The directories that a path passes. Where they are kept, it leads to the same place.
-/

namespace Scaffold

namespace Tree

variable {t u : Tree} {at_ above rest place x : Location} {names : List String} {p root : Path} {node : Node}

/-- The locations that names pass on their way from a location. Each of them has to be a directory. -/
def passedFrom (at_ : Location) : List String → List Location
  | [] => []
  | name :: rest => at_ :: if name = ".." then passedFrom at_.dropLast rest else passedFrom (at_ ++ [name]) rest

/-- The locations that a path passes, from where it starts. -/
def passed (t : Tree) (p : Path) : List Location := t.start p.anchor :: passedFrom (t.start p.anchor) p.parts

theorem KeepsDirectories.passed (keeps : KeepsDirectories t u) (p : Path) : u.passed p = t.passed p := by
  rw [Tree.passed, keeps.start, Tree.passed]

theorem passedFrom_cons (at_ : Location) (name : String) :
    passedFrom at_ (name :: names) = at_ :: passedFrom (next at_ name) names := by
  rw [passedFrom, next]
  split <;> rfl

theorem directory_of_passedFrom (h : t.walk at_ names = .ok place) :
    ∀ x ∈ passedFrom at_ names, t.node? x = some .directory := by
  induction names generalizing at_ with
  | nil => simp [passedFrom]
  | cons name rest ih =>
    obtain ⟨here, -, further⟩ := walk_cons_eq_ok.mp h
    rw [passedFrom_cons]
    exact List.forall_mem_cons.mpr ⟨here, ih further⟩

theorem directory_of_passed (h : t.locate p = .ok at_) : ∀ x ∈ t.passed p, t.node? x = some .directory := by
  obtain ⟨-, start, walked⟩ := locate_eq_ok_iff.mp h
  exact List.forall_mem_cons.mpr ⟨start, directory_of_passedFrom walked⟩

theorem walk_of_passedFrom (h : t.walk at_ names = .ok place)
    (keeps : ∀ x ∈ passedFrom at_ names, u.node? x = some .directory) : u.walk at_ names = .ok place := by
  induction names generalizing at_ with
  | nil => exact h
  | cons name rest ih =>
    rw [passedFrom_cons] at keeps
    obtain ⟨here, later⟩ := List.forall_mem_cons.mp keeps
    obtain ⟨-, short, further⟩ := walk_cons_eq_ok.mp h
    exact walk_cons_eq_ok.mpr ⟨here, short, ih further later⟩

/-- A path leads to the same place where all that it passes is a directory. -/
theorem locate_of_passed (home : u.home = t.home) (h : t.locate p = .ok at_)
    (keeps : ∀ x ∈ t.passed p, u.node? x = some .directory) : u.locate p = .ok at_ := by
  obtain ⟨possible, -, walked⟩ := locate_eq_ok_iff.mp h
  obtain ⟨start, later⟩ := List.forall_mem_cons.mp keeps
  rw [locate_eq_ok_iff, start_of_home home]
  exact ⟨possible, start, walk_of_passedFrom walked later⟩

theorem passedFrom_append (at_ : Location) (names more : List String) :
    passedFrom at_ (names ++ more) = passedFrom at_ names ++ passedFrom (placeFrom at_ names) more := by
  induction names generalizing at_ with
  | nil => rfl
  | cons name rest ih =>
    rw [List.cons_append, passedFrom_cons, passedFrom_cons, placeFrom_cons, ih, List.cons_append]

/-- Where the start of a path leads, the path passes. -/
theorem mem_passed_of_start {later : List String} (split : p.parts = names ++ later) (some_ : later ≠ [])
    (place : t.placeOf ⟨p.anchor, names⟩ = x) : x ∈ t.passed p := by
  rw [passed, split, passedFrom_append, ← place]
  refine List.mem_cons_of_mem _ (List.mem_append_right _ ?_)
  cases later with
  | nil => exact absurd rfl some_
  | cons name later => exact List.mem_cons_self

/-- Names without steps up pass what is on the straight way. -/
theorem mem_passedFrom_straight (straight : ".." ∉ names) :
    x ∈ passedFrom at_ names ↔ ∃ first later, later ≠ [] ∧ names = first ++ later ∧ x = at_ ++ first := by
  induction names generalizing at_ with
  | nil =>
    simp only [passedFrom, List.not_mem_nil, false_iff]
    rintro ⟨first, later, some_, none_, -⟩
    exact some_ (List.append_eq_nil_iff.mp none_.symm).2
  | cons name rest ih =>
    simp only [List.mem_cons, not_or] at straight
    rw [passedFrom, if_neg (Ne.symm straight.1), List.mem_cons, ih straight.2]
    constructor
    · rintro (rfl | ⟨first, later, some_, rfl, rfl⟩)
      · exact ⟨[], name :: rest, by simp, rfl, by simp⟩
      · exact ⟨name :: first, later, some_, rfl, by simp⟩
    · rintro ⟨first, later, some_, split, rfl⟩
      cases first with
      | nil => exact .inl (by simp)
      | cons head first =>
        obtain ⟨rfl, rfl⟩ := List.cons_eq_cons.mp split
        exact .inr ⟨first, later, some_, rfl, by simp⟩

/-- What is passed on the way to something below a directory is passed on the way to the directory or lies
straight below it. -/
theorem mem_passed_append (place : t.placeOf root = above) (straight : ".." ∉ rest)
    (h : x ∈ t.passed ⟨root.anchor, root.parts ++ rest⟩) :
    x ∈ t.passed root ∨ ∃ first later, later ≠ [] ∧ rest = first ++ later ∧ x = above ++ first := by
  rw [passed, passedFrom_append, ← List.cons_append] at h
  rw [← place]
  exact (List.mem_append.mp h).imp_right (mem_passedFrom_straight straight).mp

namespace Sound

/-- Every node is in directories. -/
theorem folder_of_below (h : t.Sound) (some_ : rest ≠ []) (there : t.node? (above ++ rest) = some node) :
    t.node? above = some .directory := by
  induction rest using List.reverseRecOn generalizing node with
  | nil => exact absurd rfl some_
  | append_singleton names name ih =>
    have folder := h.folders _ _ there
    rw [← List.append_assoc, List.dropLast_concat] at folder
    by_cases none_ : names = []
    · simpa [none_] using folder
    · exact ih none_ folder

theorem mem_descendants_iff (h : t.Sound) :
    (rest, node) ∈ t.descendants above ↔ rest ≠ [] ∧ t.node? (above ++ rest) = some node := by
  rw [mem_descendants]
  refine and_congr_right fun some_ => ?_
  rw [node?_of_ne_nil t (by simp [some_])]
  refine ⟨lookup_of_mem h.distinct, fun found => ?_⟩
  obtain ⟨before, after, nodes, -⟩ := List.lookup_eq_some_iff.mp found
  simp [nodes]

theorem descendants_eq_nil (h : t.Sound) :
    t.descendants at_ = [] ↔ ∀ rest, rest ≠ [] → t.node? (at_ ++ rest) = none := by
  simp only [List.eq_nil_iff_forall_not_mem, Prod.forall, h.mem_descendants_iff, Option.eq_none_iff_forall_ne_some,
    not_and]
  exact forall_congr' fun rest => forall_comm

/-- An empty directory can be taken away. -/
theorem erase_empty (h : t.Sound) (ne : at_ ≠ []) (empty : ∀ rest, rest ≠ [] → t.node? (at_ ++ rest) = none) :
    (t.erase at_).Sound where
  distinct := h.distinct.sublist (List.Sublist.map _ List.filter_sublist)
  straight := by
    intro other found there
    rw [node?_erase t ne] at there
    split at there
    · cases there
    · exact h.straight other found there
  folders := by
    intro other found there
    rw [node?_erase t ne] at there ⊢
    split at there
    · cases there
    rw [if_neg, h.folders other found there]
    rintro rfl
    have inside : other ≠ [] := by
      rintro rfl
      exact ne rfl
    have nothing := empty [other.getLast inside] (by simp)
    rw [List.dropLast_concat_getLast inside, there] at nothing
    cases nothing

end Sound

end Tree

end Scaffold
