import Scaffold.Proofs.Tree.Nodes

/-!
Where paths lead. A path that leads somewhere leads to one place, whatever the tree; which paths do depends
on the directories alone.
-/

namespace Scaffold

namespace Tree

variable {t u : Tree} {at_ place : Location} {names : List String} {p : Path}

/-- The location that one name leads to from a directory. -/
def next (at_ : Location) (name : String) : Location := if name = ".." then at_.dropLast else at_ ++ [name]

theorem walk_cons_of {name : String} (here : t.node? at_ = some .directory) (short : Text.nameSize name ≤ nameLimit) :
    t.walk at_ (name :: names) = t.walk (next at_ name) names := by
  rw [walk, here, next]
  by_cases up : name = ".."
  · simp only [if_pos up]
  · simp only [if_neg up, if_neg (Nat.not_lt.mpr short)]

/-- A name leads on from a directory if it is not too long. -/
theorem walk_cons_eq_ok {name : String} : t.walk at_ (name :: names) = .ok place ↔
    t.node? at_ = some .directory ∧ Text.nameSize name ≤ nameLimit ∧ t.walk (next at_ name) names = .ok place := by
  refine ⟨fun h => ?_, fun ⟨here, short, h⟩ => by rwa [walk_cons_of here short]⟩
  have here : t.node? at_ = some .directory := by
    rw [walk] at h
    split at h
    · assumption
    · cases h
    · cases h
  have short : Text.nameSize name ≤ nameLimit := by
    refine Nat.not_lt.mp fun long => ?_
    have notUp : name ≠ ".." := by
      rintro rfl
      exact absurd long (by decide)
    rw [walk, here] at h
    simp [if_neg notUp, if_pos long] at h
  exact ⟨here, short, by rwa [walk_cons_of here short] at h⟩

/-- A walk ends at a name that is too long if that is in a directory. -/
theorem walk_cons_tooLong {name : String} : t.walk at_ (name :: names) = .error .nameTooLong ↔
    t.node? at_ = some .directory ∧
      (nameLimit < Text.nameSize name ∨ t.walk (next at_ name) names = .error .nameTooLong) := by
  by_cases here : t.node? at_ = some .directory
  · by_cases long : nameLimit < Text.nameSize name
    · have notUp : name ≠ ".." := by
        rintro rfl
        exact absurd long (by decide)
      simp [walk, here, notUp, long]
    · simp [walk_cons_of here (Nat.not_lt.mp long), here, long]
  · refine iff_of_false (fun h => ?_) fun h => here h.1
    rw [walk] at h
    split at h
    · exact here ‹_›
    · cases h
    · cases h

/-- The location that names lead to from another if every directory on the way is there. -/
def placeFrom (at_ : Location) : List String → Location
  | [] => at_
  | name :: rest => if name = ".." then placeFrom at_.dropLast rest else placeFrom (at_ ++ [name]) rest

/-- The location that a path leads to if it leads anywhere. -/
def placeOf (t : Tree) (p : Path) : Location := placeFrom (t.start p.anchor) p.parts

@[simp] theorem placeOf_put (t : Tree) (place : Location) (node : Node) (p : Path) :
    (t.put place node).placeOf p = t.placeOf p := rfl

theorem placeOf_of_home (home : u.home = t.home) (p : Path) : u.placeOf p = t.placeOf p := by
  rw [placeOf, start_of_home home, placeOf]

theorem KeepsDirectories.placeOf (keeps : KeepsDirectories t u) (p : Path) : u.placeOf p = t.placeOf p :=
  placeOf_of_home keeps.home p

theorem placeFrom_cons (at_ : Location) (name : String) :
    placeFrom at_ (name :: names) = placeFrom (next at_ name) names := by
  rw [placeFrom, next]
  split <;> rfl

/-- A path leads on from where its first names lead. -/
theorem placeFrom_append (at_ : Location) (names more : List String) :
    placeFrom at_ (names ++ more) = placeFrom (placeFrom at_ names) more := by
  induction names generalizing at_ with
  | nil => rfl
  | cons name rest ih =>
    rw [List.cons_append, placeFrom_cons, placeFrom_cons]
    exact ih (next at_ name)

/-- Names without steps up lead straight on. -/
theorem placeFrom_of_straight (at_ : Location) (h : ".." ∉ names) : placeFrom at_ names = at_ ++ names := by
  induction names generalizing at_ with
  | nil => simp [placeFrom]
  | cons name rest ih =>
    simp only [List.mem_cons, not_or] at h
    rw [placeFrom, if_neg (Ne.symm h.1), ih (at_ ++ [name]) h.2]
    simp

/-- There are no steps up in a place. -/
theorem straight_placeFrom (straight : ".." ∉ at_) (names : List String) : ".." ∉ placeFrom at_ names := by
  induction names generalizing at_ with
  | nil => exact straight
  | cons name rest ih =>
    rw [placeFrom]
    split
    · exact ih fun mem => straight (List.dropLast_subset at_ mem)
    · rename_i notUp
      refine ih ?_
      simp [straight, Ne.symm notUp]

theorem placeOf_append (t : Tree) (p : Path) (more : List String) :
    t.placeOf ⟨p.anchor, p.parts ++ more⟩ = placeFrom (t.placeOf p) more :=
  placeFrom_append _ p.parts more

theorem walk_eq_ok (h : t.walk at_ names = .ok place) : place = placeFrom at_ names := by
  induction names generalizing at_ with
  | nil => simpa [walk, placeFrom, eq_comm] using h
  | cons name rest ih =>
    rw [placeFrom_cons]
    exact ih (walk_cons_eq_ok.mp h).2.2

/-- The last name of a path that leads somewhere is looked for in a directory. -/
theorem walk_concat_eq_ok {name : String} (h : t.walk at_ (names ++ [name]) = .ok place) :
    t.node? (placeFrom at_ names) = some .directory ∧ placeFrom (placeFrom at_ names) [name] = place := by
  induction names generalizing at_ with
  | nil =>
    exact ⟨(walk_cons_eq_ok.mp h).1, (walk_eq_ok h).symm⟩
  | cons first rest ih =>
    rw [placeFrom_cons]
    exact ih (walk_cons_eq_ok.mp h).2.2

theorem locate_eq_ok_iff : t.locate p = .ok at_ ↔
    impossible? p = none ∧ t.node? (t.start p.anchor) = some .directory ∧
      t.walk (t.start p.anchor) p.parts = .ok at_ := by
  unfold locate
  cases impossible? p with
  | some obstacle => simp
  | none => by_cases start : t.node? (t.start p.anchor) = some .directory <;> simp [start]

theorem locate_eq_ok (h : t.locate p = .ok at_) : at_ = t.placeOf p := walk_eq_ok (locate_eq_ok_iff.mp h).2.2

/-- With more directories more paths lead somewhere. -/
theorem KeepsDirectories.walk (keeps : KeepsDirectories t u) (h : t.walk at_ names = .ok place) :
    u.walk at_ names = .ok place := by
  induction names generalizing at_ with
  | nil => simpa [Tree.walk] using h
  | cons name rest ih =>
    obtain ⟨here, short, further⟩ := walk_cons_eq_ok.mp h
    exact walk_cons_eq_ok.mpr ⟨keeps.directory at_ here, short, ih further⟩

theorem KeepsDirectories.locate (keeps : KeepsDirectories t u) (h : t.locate p = .ok at_) :
    u.locate p = .ok at_ := by
  obtain ⟨possible, start, walked⟩ := locate_eq_ok_iff.mp h
  rw [← keeps.start] at start walked
  exact locate_eq_ok_iff.mpr ⟨possible, keeps.start _ ▸ keeps.directory _ (keeps.start _ ▸ start), keeps.walk walked⟩

/-- The system can be asked for a path, whether it leads anywhere or not. -/
def Askable (p : Path) : Prop :=
  ∀ obstacle, impossible? p = some obstacle → (FileError.mk obstacle p).isOfSystem = true

theorem askable_of_located (located : t.locate p = .ok at_) : Askable p := by
  intro obstacle impossible
  simp [locate, impossible] at located

theorem walk_error {obstacle : Obstacle} (h : t.walk at_ names = .error obstacle) :
    (FileError.mk obstacle p).isOfSystem = true := by
  induction names generalizing at_ with
  | nil => simp [walk] at h
  | cons name rest ih =>
    rw [walk] at h
    split at h
    · split at h
      · exact ih h
      · split at h
        · obtain rfl := Except.error.inj h
          rfl
        · exact ih h
    · obtain rfl := Except.error.inj h
      rfl
    · obtain rfl := Except.error.inj h
      rfl

theorem Askable.isOfSystem (h : Askable p) {obstacle : Obstacle} (refused : t.locate p = .error obstacle) :
    (FileError.mk obstacle p).isOfSystem = true := by
  unfold locate at refused
  split at refused
  · rename_i impossible
    exact h obstacle (Except.error.inj refused ▸ impossible)
  · split at refused
    · exact walk_error refused
    · obtain rfl := Except.error.inj refused
      rfl

/-- The location of a path, if it leads anywhere; a name that is too long is refused. -/
def placeAt? (t : Tree) (p : Path) : Except FileError (Option Location) :=
  match t.locate p with
  | .ok at_ => .ok (some at_)
  | .error .nameTooLong => .error ⟨.nameTooLong, p⟩
  | .error _ => .ok none

theorem nodeAt?_eq (t : Tree) (p : Path) :
    t.nodeAt? p = (t.placeAt? p).map fun place => place.bind t.node? := by
  unfold nodeAt? placeAt?
  split <;> simp_all [Except.map]

/-- The trees have the same directories, and the same working directory. -/
structure SameDirectories (t u : Tree) : Prop where
  home : u.home = t.home
  directory : ∀ at_, t.node? at_ = some .directory ↔ u.node? at_ = some .directory

theorem SameDirectories.refl (t : Tree) : SameDirectories t t := ⟨rfl, fun _ => .rfl⟩

theorem SameDirectories.keeps (same : SameDirectories t u) : KeepsDirectories t u :=
  ⟨same.home, fun at_ => (same.directory at_).mp⟩

theorem SameDirectories.symm (same : SameDirectories t u) : SameDirectories u t :=
  ⟨same.home.symm, fun at_ => (same.directory at_).symm⟩

theorem SameDirectories.trans {v : Tree} (h : SameDirectories t u) (h' : SameDirectories u v) :
    SameDirectories t v :=
  ⟨h'.home.trans h.home, fun at_ => (h.directory at_).trans (h'.directory at_)⟩

/-- A change of one location that holds no directory, before or after. -/
theorem ChangedAt.sameDirectories {node : Option Node} (h : ChangedAt t at_ node u)
    (before : t.node? at_ ≠ some .directory) (after : node ≠ some .directory) : SameDirectories t u where
  home := h.home
  directory := by
    intro x
    rw [h.nodes]
    by_cases same : x = at_
    · simp [same, before, after]
    · simp [same]

theorem SameDirectories.walk_tooLong (same : SameDirectories t u)
    (h : t.walk at_ names = .error .nameTooLong) : u.walk at_ names = .error .nameTooLong := by
  induction names generalizing at_ with
  | nil => simp [Tree.walk] at h
  | cons name rest ih =>
    obtain ⟨here, further⟩ := walk_cons_tooLong.mp h
    exact walk_cons_tooLong.mpr ⟨(same.directory at_).mp here, further.imp_right ih⟩

theorem SameDirectories.locate_tooLong (same : SameDirectories t u)
    (h : t.locate p = .error .nameTooLong) : u.locate p = .error .nameTooLong := by
  unfold Tree.locate at h ⊢
  rw [same.keeps.start]
  split at h
  · exact h
  · split at h
    · rename_i start
      rw [if_pos ((same.directory _).mp start)]
      exact same.walk_tooLong h
    · cases h

/-- Trees with the same directories have the same places. -/
theorem SameDirectories.placeAt? (same : SameDirectories t u) (p : Path) :
    t.placeAt? p = u.placeAt? p := by
  unfold Tree.placeAt?
  cases ht : t.locate p with
  | ok at_ => rw [same.keeps.locate ht]
  | error e =>
    by_cases long : e = .nameTooLong
    · subst long
      rw [same.locate_tooLong ht]
    · cases hu : u.locate p with
      | ok at_ =>
        rw [same.symm.keeps.locate hu] at ht
        simp at ht
      | error e' =>
        by_cases long' : e' = .nameTooLong
        · subst long'
          rw [same.symm.locate_tooLong hu] at ht
          exact absurd (Except.error.inj ht).symm long
        · cases e <;> cases e' <;> simp_all

/-- A path has the same node in trees that have the same directories and the same at its place. -/
theorem SameDirectories.nodeAt? (same : SameDirectories t u)
    (node : ∀ at_, t.locate p = .ok at_ → u.node? at_ = t.node? at_) : u.nodeAt? p = t.nodeAt? p := by
  rw [nodeAt?_eq, nodeAt?_eq, ← same.placeAt? p]
  unfold Tree.placeAt?
  cases located : t.locate p with
  | error e => cases e <;> rfl
  | ok at_ => simp [Except.map, node at_ located]

/-- What can be listed in one tree can be listed in another with the same directories. -/
theorem SameDirectories.under? {found : List (Path × Node)} (same : SameDirectories t u)
    (listed : t.under? p = .ok found) : ∃ found', u.under? p = .ok found' := by
  unfold Tree.under? at listed ⊢
  split
  · exact ⟨_, rfl⟩
  · rename_i long
    simp [same.symm.locate_tooLong long] at listed
  · exact ⟨[], rfl⟩

/-- Nothing but files is new, and everything else is as before. -/
structure Filled (t u : Tree) : Prop where
  home : u.home = t.home
  node : ∀ at_, u.node? at_ = t.node? at_ ∨ t.node? at_ = none ∧ ∃ bytes, u.node? at_ = some (.file bytes)

namespace Filled

theorem refl (t : Tree) : Filled t t := ⟨rfl, fun _ => .inl rfl⟩

theorem kept (h : Filled t u) (there : t.node? at_ ≠ none) : u.node? at_ = t.node? at_ := by
  rcases h.node at_ with same | ⟨new, _⟩
  · exact same
  · exact absurd new there

theorem sameDirectories (h : Filled t u) : SameDirectories t u where
  home := h.home
  directory := by
    intro at_
    rcases h.node at_ with same | ⟨new, bytes, made⟩
    · rw [same]
    · simp [new, made]

end Filled

end Tree

end Scaffold
