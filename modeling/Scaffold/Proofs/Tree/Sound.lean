import Mathlib.Data.List.Nodup
import Mathlib.Data.List.Sort
import Scaffold.Proofs.Tree.Changes

/-!
Trees as a file system has them: one node a place, no steps up in a place, and every node in a directory.
Every change leaves them so. In such a tree the last name of a path is the name of what it leads to, and a
directory lists what is below it once.
-/

namespace Scaffold

namespace Tree

structure Sound (t : Tree) : Prop where
  distinct : (t.nodes.map (·.1)).Nodup
  straight : ∀ at_ node, t.node? at_ = some node → ".." ∉ at_
  folders : ∀ at_ node, t.node? at_ = some node → t.node? at_.dropLast = some .directory

variable {t u : Tree} {p root : Path} {at_ above rest : Location} {node : Node} {bytes : ByteArray}

/-- It is enough to look at the nodes that are kept. -/
theorem sound_iff : t.Sound ↔ (t.nodes.map (·.1)).Nodup ∧
    ∀ at_ ∈ t.nodes.map (·.1), at_ ≠ [] → ".." ∉ at_ ∧ t.node? at_.dropLast = some .directory := by
  have kept {at_ : Location} (inside : at_ ≠ []) :
      at_ ∈ t.nodes.map (·.1) ↔ ∃ node, t.node? at_ = some node := by
    rw [node?_of_ne_nil t inside, ← Option.isSome_iff_exists, List.lookup_isSome_iff]
    simp only [List.mem_map, beq_iff_eq]
    exact exists_congr fun pair => and_congr_right fun _ => eq_comm
  constructor
  · intro h
    refine ⟨h.distinct, fun at_ mem inside => ?_⟩
    obtain ⟨node, there⟩ := (kept inside).mp mem
    exact ⟨h.straight at_ node there, h.folders at_ node there⟩
  · rintro ⟨distinct, each⟩
    refine ⟨distinct, fun at_ node there => ?_, fun at_ node there => ?_⟩ <;> by_cases inside : at_ = []
    · simp [inside]
    · exact (each at_ ((kept inside).mpr ⟨node, there⟩) inside).1
    · simp [inside]
    · exact (each at_ ((kept inside).mpr ⟨node, there⟩) inside).2

instance (t : Tree) : Decidable t.Sound := decidable_of_iff _ sound_iff.symm

theorem sound_empty : empty.Sound := by decide

theorem keys_put (t : Tree) (at_ : Location) (node : Node) :
    (t.put at_ node).nodes.map (·.1) =
      t.nodes.map (·.1) ++ (if (t.nodes.lookup at_).isSome then [] else [at_]) := by
  unfold put
  split
  · simp only [List.map_map, List.append_nil]
    apply List.map_congr_left
    rintro ⟨place, old⟩ _
    by_cases same : place = at_ <;> simp [same]
  · simp

namespace Sound

theorem put (h : t.Sound) (straight : ".." ∉ at_) (folder : t.node? at_.dropLast = some .directory)
    (free : t.node? at_ ≠ some .directory) (node : Node) : (t.put at_ node).Sound where
  distinct := by
    rw [keys_put]
    split
    · simpa using h.distinct
    · rename_i new
      simp only [Bool.not_eq_true, Option.isSome_eq_false_iff, Option.isNone_iff_eq_none,
        List.lookup_eq_none_iff] at new
      refine List.nodup_append.mpr ⟨h.distinct, by simp, ?_⟩
      rintro place mem other mem' rfl
      obtain rfl := List.mem_singleton.mp mem'
      obtain ⟨pair, mem, eq⟩ := List.mem_map.mp mem
      have apart := new pair mem
      rw [eq, bne_self_eq_false] at apart
      simp at apart
  straight := by
    intro other found there
    rw [node?_put t (ne_nil_of_node? rfl free)] at there
    split at there
    · rename_i same
      rwa [same]
    · exact h.straight other found there
  folders := by
    intro other found there
    have keeps := keepsDirectories_put free node
    rw [node?_put t (ne_nil_of_node? rfl free)] at there
    split at there
    · rename_i same
      rw [same]
      exact keeps.directory _ folder
    · exact keeps.directory _ (h.folders other found there)

theorem erase (h : t.Sound) (file : t.node? at_ = some (.file bytes)) : (t.erase at_).Sound where
  distinct := by
    refine List.Nodup.sublist ?_ h.distinct
    exact List.Sublist.map _ List.filter_sublist
  straight := by
    intro other found there
    rw [node?_erase t (ne_nil_of_node? file (by simp))] at there
    split at there
    · simp at there
    · exact h.straight other found there
  folders := by
    intro other found there
    rw [node?_erase t (ne_nil_of_node? file (by simp))] at there ⊢
    split at there
    · simp at there
    · have dir := h.folders other found there
      rw [if_neg, dir]
      rintro same
      rw [same, file] at dir
      simp at dir

/-- There are no steps up in the place of a path that leads anywhere. -/
theorem straight_of_located (h : t.Sound) (located : t.locate p = .ok at_) : ".." ∉ at_ := by
  rw [locate_eq_ok located]
  exact straight_placeFrom (h.straight _ _ (locate_eq_ok_iff.mp located).2.1) p.parts

theorem write (h : t.Sound) (written : t.write p bytes = .ok u) : u.Sound := by
  obtain ⟨at_, located, free, folder, rfl⟩ := write_eq_ok.mp written
  exact h.put (h.straight_of_located located) folder free _

theorem remove (h : t.Sound) (removed : t.remove p = .ok u) : u.Sound := by
  obtain ⟨at_, old, _, file, rfl⟩ := remove_eq_ok.mp removed
  exact h.erase file

/-- What is no directory has the last name of a path that leads there, in the folder that the path leads
through. -/
theorem lastName (h : t.Sound) (located : t.locate p = .ok at_) (node : t.node? at_ ≠ some .directory) :
    t.node? (t.placeOf p.parent) = some .directory ∧ p.parts = p.parent.parts ++ [p.name] ∧ p.name ≠ ".." ∧
      at_ = t.placeOf p.parent ++ [p.name] := by
  obtain ⟨-, start, walked⟩ := locate_eq_ok_iff.mp located
  rcases List.eq_nil_or_concat p.parts with none_ | ⟨names, name, parts⟩
  · rw [none_, walk, Except.ok.injEq] at walked
    exact absurd (walked ▸ start) node
  · rw [List.concat_eq_append] at parts
    rw [parts] at walked
    have name_ : p.name = name := by simp [Path.name, parts]
    have above : p.parent = ⟨p.anchor, names⟩ := by simp [Path.parent, parts]
    obtain ⟨dir, last⟩ := walk_concat_eq_ok walked
    have notUp : name ≠ ".." := by
      rintro rfl
      rw [placeFrom, if_pos rfl, placeFrom] at last
      exact node (last ▸ h.folders _ _ dir)
    rw [name_, above]
    refine ⟨dir, parts, notUp, ?_⟩
    rw [← last, placeFrom, if_neg notUp, placeFrom, placeOf]

theorem makeDirectory (h : t.Sound) (made : t.makeDirectory p = .ok u) : u.Sound := by
  unfold Tree.makeDirectory at made
  cases located : t.locate p with
  | error e => simp [located] at made
  | ok at_ =>
    cases node : t.node? at_ with
    | none =>
      simp only [located, node, Except.ok.injEq] at made
      obtain ⟨dir, _, notUp, rfl⟩ := h.lastName located (by simp [node])
      have straight := h.straight _ _ dir
      rw [← made]
      refine h.put ?_ (by simpa using dir) (by simp [node]) _
      simp [straight, Ne.symm notUp]
    | some found =>
      cases found with
      | file bytes => simp [located, node] at made
      | directory =>
        simp only [located, node, Except.ok.injEq] at made
        rwa [← made]

theorem make (h : t.Sound) (p : Path) : (makeDirectoriesTo.make t p).1.Sound := by
  unfold makeDirectoriesTo.make
  split
  · rename_i made
    exact h.makeDirectory made
  · exact h

theorem makeDirectoriesTo {anchor : Anchor} {names : List String} (h : t.Sound) :
    (t.makeDirectoriesTo anchor names).1.Sound := by
  induction names generalizing t with
  | nil => exact h.make _
  | cons name above ih =>
    have before := ih h
    simp only [Tree.makeDirectoriesTo]
    split
    · split
      · rename_i eq
        rw [eq] at before
        exact before.make _
      · exact before
    · exact h.make _

theorem makeDirectories (h : t.Sound) (p : Path) : (t.makeDirectories p).1.Sound :=
  h.makeDirectoriesTo

end Sound

theorem lookup_of_mem {nodes : List (Location × Node)} (distinct : (nodes.map (·.1)).Nodup)
    (mem : (at_, node) ∈ nodes) : nodes.lookup at_ = some node := by
  induction nodes with
  | nil => simp at mem
  | cons first rest ih =>
    obtain ⟨place, old⟩ := first
    rw [List.map_cons, List.nodup_cons] at distinct
    rw [lookup_cons_ite]
    rcases List.mem_cons.mp mem with eq | later
    · simp only [Prod.mk.injEq] at eq
      simp [eq]
    · rw [if_neg, ih distinct.2 later]
      rintro rfl
      exact distinct.1 (List.mem_map.mpr ⟨_, later, rfl⟩)

theorem below?_eq_some : below? above at_ = some rest ↔ at_ = above ++ rest := by
  induction above generalizing at_ with
  | nil => simp [below?, eq_comm]
  | cons name above ih =>
    cases at_ with
    | nil => simp [below?]
    | cons first at_ =>
      by_cases same : name = first
      · simp [below?, same, ih]
      · simp [below?, same, Ne.symm same]

theorem mem_descendants : (rest, node) ∈ t.descendants above ↔
    rest ≠ [] ∧ (above ++ rest, node) ∈ t.nodes := by
  simp only [descendants, List.mem_filterMap, Prod.exists]
  constructor
  · rintro ⟨place, found, mem, eq⟩
    split at eq
    · simp at eq
    · simp at eq
    · rename_i names some_ isBelow
      simp only [Option.some.injEq, Prod.mk.injEq] at eq
      obtain ⟨rfl, rfl⟩ := eq
      obtain rfl := below?_eq_some.mp isBelow
      exact ⟨some_, mem⟩
  · rintro ⟨some_, mem⟩
    refine ⟨_, node, mem, ?_⟩
    rw [below?_eq_some.mpr rfl]
    cases rest with
    | nil => exact absurd rfl some_
    | cons name rest => rfl

theorem eq_of_listed {place above : Location} {node : Node} {entry : Location × Node}
    (h : (match below? above place with
      | none | some [] => none
      | some rest => some (rest, node) : Option (Location × Node)) = some entry) :
    place = above ++ entry.1 := by
  split at h
  · simp at h
  · simp at h
  · rename_i isBelow
    rw [← Option.some.inj h]
    exact below?_eq_some.mp isBelow

theorem nodup_descendants (distinct : (t.nodes.map (·.1)).Nodup) (above : Location) :
    ((t.descendants above).map (·.1)).Nodup := by
  unfold List.Nodup
  rw [descendants, List.pairwise_map, List.pairwise_filterMap]
  refine List.Pairwise.imp ?_ (List.pairwise_map.mp distinct)
  rintro ⟨place, node⟩ ⟨place', node'⟩ apart first here second there same
  apply apart
  rw [eq_of_listed here, eq_of_listed there, same]

/-- Below a place are the nodes whose places go on from it. -/
theorem Sound.mem_map_descendants (h : t.Sound) :
    rest ∈ (t.descendants above).map (·.1) ↔
      rest ≠ [] ∧ (t.node? (above ++ rest)).isSome = true := by
  simp only [List.mem_map, Prod.exists, exists_and_right, exists_eq_right]
  constructor
  · rintro ⟨node, mem⟩
    obtain ⟨some_, mem⟩ := mem_descendants.mp mem
    refine ⟨some_, ?_⟩
    rw [node?_of_ne_nil _ (by simp [some_]), lookup_of_mem h.distinct mem]
    rfl
  · rintro ⟨some_, there⟩
    obtain ⟨node, there⟩ := Option.isSome_iff_exists.mp there
    rw [node?_of_ne_nil _ (by simp [some_])] at there
    obtain ⟨before, after, eq, _⟩ := List.lookup_eq_some_iff.mp there
    exact ⟨node, mem_descendants.mpr ⟨some_, by simp [eq]⟩⟩

/-- A path that leads to a directory lists what is below it; any other one lists nothing. -/
theorem names_of_under? {found : List (Path × Node)} (listed : t.under? root = .ok found) :
    (∃ above, t.locate root = .ok above ∧ t.node? above = some .directory ∧
      found.map (·.1) = (((t.descendants above).mergeSort precedes).map (·.1)).map fun rest =>
        ⟨root.anchor, root.parts ++ rest⟩) ∨
    found = [] ∧ ∀ above, t.locate root = .ok above → t.node? above ≠ some .directory := by
  unfold under? at listed
  split at listed
  · rename_i above located
    obtain rfl := Except.ok.inj listed
    split
    · rename_i dir
      exact .inl ⟨above, located, dir, by simp [Function.comp_def]⟩
    · rename_i notDir
      refine .inr ⟨rfl, fun above' located' => ?_⟩
      obtain rfl : above = above' := by simpa [located] using located'
      exact notDir
  · simp at listed
  · rename_i elsewhere _
    exact .inr ⟨(Except.ok.inj listed).symm, fun above located => absurd located (elsewhere above)⟩

/-- What a directory lists are the nodes below it, each once. -/
theorem Sound.under?_eq_ok (h : t.Sound) {found : List (Path × Node)} (listed : t.under? root = .ok found) :
    (found.map (·.1)).Nodup ∧ ∀ p, p ∈ found.map (·.1) ↔
      ∃ above rest, t.locate root = .ok above ∧ t.node? above = some .directory ∧
        rest ≠ [] ∧ (t.node? (above ++ rest)).isSome = true ∧ p = ⟨root.anchor, root.parts ++ rest⟩ := by
  rcases names_of_under? listed with ⟨above, located, dir, names⟩ | ⟨rfl, noDir⟩
  · have perm := (List.mergeSort_perm (t.descendants above) precedes).map (·.1)
    rw [names]
    constructor
    · have nodup := perm.nodup_iff.mpr (nodup_descendants h.distinct above)
      refine List.pairwise_map.mpr (nodup.imp fun apart same => apart ?_)
      simpa using same
    · intro p
      rw [List.mem_map]
      constructor
      · rintro ⟨rest, mem, rfl⟩
        obtain ⟨some_, there⟩ := h.mem_map_descendants.mp (perm.mem_iff.mp mem)
        exact ⟨above, rest, located, dir, some_, there, rfl⟩
      · rintro ⟨above', rest, located', _, some_, there, rfl⟩
        obtain rfl : above = above' := by simpa [located] using located'
        exact ⟨rest, perm.mem_iff.mpr (h.mem_map_descendants.mpr ⟨some_, there⟩), rfl⟩
  · refine ⟨List.nodup_nil, fun p => ?_⟩
    simp only [List.map_nil, List.not_mem_nil, false_iff]
    rintro ⟨above, rest, located, dir, _⟩
    exact noDir above located dir

/-- One location comes before another if its first name does, or is the same and what follows comes before. -/
theorem inOrder_cons {name other : String} {a b : Location} :
    inOrder (name :: a) (other :: b) = true ↔ name < other ∨ name = other ∧ inOrder a b = true := by
  rw [inOrder]
  by_cases same : name = other
  · subst same
    simp only [String.lt_irrefl, if_true, true_and, false_or]
  · simp [same]

theorem inOrder_trans {a b c : Location} (ab : inOrder a b = true) (bc : inOrder b c = true) : inOrder a c = true := by
  induction a generalizing b c with
  | nil => rfl
  | cons first a ih =>
    cases b with
    | nil => cases ab
    | cons second b =>
      cases c with
      | nil => cases bc
      | cons third c =>
        rw [inOrder_cons] at ab bc ⊢
        rcases ab with lt | ⟨rfl, rest⟩
        · rcases bc with lt' | ⟨rfl, -⟩
          · exact .inl (String.lt_trans lt lt')
          · exact .inl lt
        · exact bc.imp_right fun ⟨same, rest'⟩ => ⟨same, ih rest rest'⟩

theorem inOrder_total (a b : Location) : inOrder a b = true ∨ inOrder b a = true := by
  induction a generalizing b with
  | nil => exact .inl rfl
  | cons name a ih =>
    cases b with
    | nil => exact .inr rfl
    | cons other b =>
      rw [inOrder_cons, inOrder_cons]
      by_cases same : name = other
      · exact (ih b).imp (fun rest => .inr ⟨same, rest⟩) fun rest => .inr ⟨same.symm, rest⟩
      · by_cases lt : name < other
        · exact .inl (.inl lt)
        · exact .inr (.inl (Decidable.not_not.mp fun ge => same (String.le_antisymm ge lt)))

theorem inOrder_antisymm {a b : Location} (ab : inOrder a b = true) (ba : inOrder b a = true) : a = b := by
  induction a generalizing b with
  | nil =>
    cases b with
    | nil => rfl
    | cons => cases ba
  | cons name a ih =>
    cases b with
    | nil => cases ab
    | cons other b =>
      rw [inOrder_cons] at ab ba
      rcases ab with lt | ⟨rfl, rest⟩
      · rcases ba with lt' | ⟨rfl, -⟩
        · exact absurd lt' (String.lt_asymm lt)
        · exact absurd lt (String.lt_irrefl _)
      · rw [ih rest (ba.resolve_left (String.lt_irrefl _)).2]

theorem precedes_trans (a b c : Location × Node) : precedes a b = true → precedes b c = true → precedes a c = true :=
  inOrder_trans

theorem precedes_total (a b : Location × Node) : (precedes a b || precedes b a) = true := by
  simpa only [precedes, Bool.or_eq_true] using inOrder_total a.1 b.1

instance : IsTrans (Location × Node) fun a b => precedes a b = true := ⟨precedes_trans⟩

instance : Std.Total fun a b => precedes a b = true := ⟨fun a b => by simpa using precedes_total a b⟩

/-- What is below a directory is listed in the order of its names, however it is kept. -/
theorem Sound.under?_eq (h : t.Sound) (located : t.locate root = .ok above)
    (dir : t.node? above = some .directory) :
    t.under? root = .ok (((t.descendants above).insertionSort fun a b => precedes a b = true).map
      fun (rest, node) => (⟨root.anchor, root.parts ++ rest⟩, node)) := by
  have perm := (t.descendants above).perm_insertionSort fun a b => precedes a b = true
  have perm' := (List.mergeSort_perm (t.descendants above) precedes).trans perm.symm
  have sorted := List.pairwise_mergeSort precedes_trans precedes_total (t.descendants above)
  have same : (t.descendants above).mergeSort precedes =
      (t.descendants above).insertionSort fun a b => precedes a b = true := by
    refine perm'.eq_of_pairwise (fun a b memA memB ab ba => ?_) sorted (List.pairwise_insertionSort ..)
    -- two nodes that come before each other have one name, which stands there once
    have names : a.1 = b.1 := inOrder_antisymm ab ba
    have nodup := (perm.map (·.1)).nodup_iff.mpr (nodup_descendants h.distinct above)
    exact List.inj_on_of_nodup_map nodup (perm'.mem_iff.mp memA) memB names
  rw [under?, located]
  simp only [if_pos dir, same]

/-- What is below a place and listed leads there without steps up. -/
theorem Sound.placeOf_listed (h : t.Sound) (located : t.locate root = .ok above)
    (there : (t.node? (above ++ rest)).isSome = true) :
    t.placeOf ⟨root.anchor, root.parts ++ rest⟩ = above ++ rest := by
  obtain ⟨node, there⟩ := Option.isSome_iff_exists.mp there
  have straight : ".." ∉ rest := fun mem => h.straight _ node there (List.mem_append_right _ mem)
  rw [placeOf_append, ← locate_eq_ok located]
  exact placeFrom_of_straight above straight

end Tree

end Scaffold
