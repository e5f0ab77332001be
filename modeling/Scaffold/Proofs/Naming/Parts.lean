import Mathlib.Data.List.Induction
import Scaffold.Path
import Scaffold.Proofs.Naming.FileItem

/-!
The names on a joined path. Joining adds and drops slashes only, so that the path passes through the names
of its parts, one part after the other; and it starts where it is looked from.
-/

namespace Scaffold

namespace Path

/-- A name that a path passes through: not empty and no step to the same place. -/
def isStep (part : String) : Bool := part != "" && part != "."

variable {s : String} {cs cs' : List Char}

/-- The names between the slashes of some characters. -/
def partsOfChars (cs : List Char) : List String :=
  ((cs.splitOnP (· == '/')).map String.ofList).filter isStep

theorem partsOf_eq (s : String) : partsOf s = partsOfChars s.toList := by
  rw [partsOf, Text.splitOn_eq, partsOfChars]
  rfl

theorem partsOfChars_slash (cs cs' : List Char) :
    partsOfChars (cs ++ '/' :: cs') = partsOfChars cs ++ partsOfChars cs' := by
  simp [partsOfChars, List.splitOnP_append_cons]

theorem partsOfChars_nil : partsOfChars [] = [] := rfl

theorem partsOfChars_dropSlashes (cs : List Char) :
    partsOfChars (cs.dropWhile (· == '/')) = partsOfChars cs := by
  induction cs with
  | nil => rfl
  | cons c rest ih =>
    by_cases slash : c = '/'
    · subst slash
      rw [List.dropWhile_cons_of_pos (by simp), ih]
      exact (partsOfChars_slash [] rest).symm
    · rw [List.dropWhile_cons_of_neg (by simpa using slash)]

theorem partsOfChars_dropLastSlashes (cs : List Char) :
    partsOfChars (cs.reverse.dropWhile (· == '/')).reverse = partsOfChars cs := by
  induction cs using List.reverseRecOn with
  | nil => rfl
  | append_singleton front c ih =>
    rw [List.reverse_append, List.reverse_singleton, List.singleton_append]
    by_cases slash : c = '/'
    · subst slash
      rw [List.dropWhile_cons_of_pos (by simp), ih, partsOfChars_slash, partsOfChars_nil,
        List.append_nil]
    · rw [List.dropWhile_cons_of_neg (by simpa using slash)]
      simp

/-- Slashes at the ends of a text do not count. -/
theorem partsOf_stripChar (s : String) : partsOf (Text.stripChar '/' s) = partsOf s := by
  rw [partsOf_eq, partsOf_eq, Text.stripChar, String.toList_ofList, Text.trimChars,
    partsOfChars_dropLastSlashes, partsOfChars_dropSlashes]

theorem partsOf_empty : partsOf "" = [] := rfl

theorem partsOf_intercalate (texts : List String) :
    partsOf ("/".intercalate texts) = texts.flatMap partsOf := by
  induction texts with
  | nil => rfl
  | cons text rest ih =>
    by_cases alone : rest = []
    · simp [alone]
    · have split : ("/".intercalate (text :: rest)).toList =
          text.toList ++ '/' :: ("/".intercalate rest).toList := by
        rw [String.intercalate_cons_of_ne_nil alone]
        simp
      rw [partsOf_eq, split, partsOfChars_slash, ← partsOf_eq, ← partsOf_eq, ih, List.flatMap_cons]

/-- A joined path passes through the names of its parts. -/
theorem partsOf_joinPath (parts : List String) :
    partsOf (Naming.joinPath parts) = parts.flatMap partsOf := by
  have one (part : String) : (Naming.keptParts [part]).flatMap partsOf = partsOf part := by
    rw [← partsOf_stripChar part]
    by_cases none_ : Text.stripChar '/' part = ""
    · simp [Naming.keptParts, none_, partsOf_empty]
    · simp [Naming.keptParts, none_]
  have kept : (Naming.keptParts parts).flatMap partsOf = parts.flatMap partsOf := by
    induction parts with
    | nil => rfl
    | cons part rest ih =>
      rw [← List.singleton_append, Naming.keptParts_append, List.flatMap_append, ih, one,
        List.singleton_append, List.flatMap_cons]
  exact (partsOf_intercalate _).trans kept

/-- A text without slashes is a name of its own. -/
theorem partsOf_of_plain (plain : '/' ∉ s.toList) (step : isStep s = true) : partsOf s = [s] := by
  have whole : s.toList.splitOnP (· == '/') = [s.toList] :=
    List.splitOnP_eq_singleton fun c mem => by
      simpa using ne_of_mem_of_not_mem mem plain
  simp [partsOf_eq, partsOfChars, whole, step]

theorem head?_stripChar (s : String) : (Text.stripChar '/' s).toList.head? ≠ some '/' := by
  rw [Text.stripChar, String.toList_ofList, Text.trimChars]
  have first : (s.toList.dropWhile (· == '/')).head? ≠ some '/' := by
    intro head
    have := List.head?_dropWhile_not (· == '/') s.toList
    rw [head] at this
    simp at this
  generalize s.toList.dropWhile (· == '/') = cs at first
  have front : (cs.reverse.dropWhile (· == '/')).reverse <+: cs := by
    have suffix := List.dropWhile_suffix (· == '/') (l := cs.reverse)
    simpa using List.reverse_prefix.mpr suffix
  cases kept : (cs.reverse.dropWhile (· == '/')).reverse with
  | nil => simp
  | cons c rest =>
    rw [kept] at front
    obtain ⟨tail, eq⟩ := front
    rw [← eq] at first
    simpa using first

/-- A joined path starts where it is looked from, and passes through the names of its parts. -/
theorem ofText_joinPath (parts : List String) :
    ofText (Naming.joinPath parts) = ⟨.relative, parts.flatMap partsOf⟩ := by
  have first : (Naming.joinPath parts).toList.head? ≠ some '/' := by
    change ("/".intercalate (Naming.keptParts parts)).toList.head? ≠ some '/'
    cases kept : Naming.keptParts parts with
    | nil => simp
    | cons part rest =>
      have mem : part ∈ Naming.keptParts parts := by simp [kept]
      obtain ⟨memMap, some_⟩ := List.mem_filter.mp mem
      obtain ⟨whole, _, rfl⟩ := List.mem_map.mp memMap
      have head := head?_stripChar whole
      have ne : (Text.stripChar '/' whole).toList ≠ [] := by
        simpa [String.isEmpty_iff] using some_
      by_cases alone : rest = []
      · simpa [alone] using head
      · obtain ⟨c, cs, eq⟩ := List.exists_cons_of_ne_nil ne
        rw [eq] at head
        simpa [String.intercalate_cons_of_ne_nil alone, eq] using head
  have none_ : (Naming.joinPath parts).toList.takeWhile (· == '/') = [] := by
    cases chars : (Naming.joinPath parts).toList with
    | nil => rfl
    | cons c rest =>
      rw [chars] at first
      exact List.takeWhile_cons_of_neg (by simpa using first)
  simp only [ofText, none_, List.length_nil, partsOf_joinPath]

end Path

namespace Naming

open Text (forall_ascii lowerForm_of_ascii)

variable {namespace_ name : String} {c : Char} {cs last : List Char}

/-- What a conversion writes are slashes, hyphens and the small forms of what it reads. -/
theorem mem_fileItemAfter (ascii : ∀ c ∈ cs, c.toNat < 128) {b : Char}
    (mem : b ∈ fileItemAfter last cs) : b = '/' ∨ b = '-' ∨ ∃ c ∈ cs, b = c.toLower := by
  induction cs generalizing last with
  | nil => simp [fileItemAfter] at mem
  | cons c cs ih =>
    obtain ⟨asciiC, asciiCs⟩ := List.forall_mem_cons.mp ascii
    have later {last : List Char} (mem : b ∈ fileItemAfter last cs) :
        b = '/' ∨ b = '-' ∨ ∃ d ∈ c :: cs, b = d.toLower := by
      rcases ih asciiCs mem with slash | hyphen | ⟨d, memD, eq⟩
      · exact .inl slash
      · exact .inr (.inl hyphen)
      · exact .inr (.inr ⟨d, List.mem_cons_of_mem _ memD, eq⟩)
    rw [fileItemAfter_cons asciiC] at mem
    split at mem
    · exact (List.mem_cons.mp mem).elim .inl later
    · have here {b : Char} (eq : b = c.toLower) : b = '/' ∨ b = '-' ∨ ∃ d ∈ c :: cs, b = d.toLower :=
        .inr (.inr ⟨c, List.mem_cons_self, eq⟩)
      split at mem
      · rcases List.mem_cons.mp mem with eq | mem
        · exact .inr (.inl eq)
        · exact (List.mem_cons.mp mem).elim here later
      · exact (List.mem_cons.mp mem).elim here later

theorem mem_fileItem (ascii : ∀ c ∈ name.toList, c.toNat < 128) {b : Char}
    (mem : b ∈ (fileItem name).toList) : b = '/' ∨ b = '-' ∨ ∃ c ∈ name.toList, b = c.toLower := by
  rw [fileItem, String.toList_ofList] at mem
  cases chars : name.toList with
  | nil => simp [chars, fileItemChars] at mem
  | cons c cs =>
    rw [chars] at ascii mem
    obtain ⟨asciiC, asciiCs⟩ := List.forall_mem_cons.mp ascii
    rw [fileItemChars, lowerForm_of_ascii asciiC, List.singleton_append] at mem
    rcases List.mem_cons.mp mem with eq | mem
    · exact .inr (.inr ⟨c, List.mem_cons_self, eq⟩)
    · rcases mem_fileItemAfter asciiCs mem with slash | hyphen | ⟨d, memD, eq⟩
      · exact .inl slash
      · exact .inr (.inl hyphen)
      · exact .inr (.inr ⟨d, List.mem_cons_of_mem _ memD, eq⟩)

theorem toLower_eq_dot (ascii : c.toNat < 128) (h : c.toLower = '.') : c = '.' :=
  forall_ascii (P := fun c => c.toLower = '.' → c = '.') (by decide) ascii h

namespace IsIdentifier

theorem no_dot (h : IsIdentifier name) : '.' ∉ name.toList := by
  intro mem
  rcases h.letters '.' mem with letter | eq
  · exact absurd letter (by decide)
  · exact absurd eq (by decide)

theorem slash_notMem (h : IsIdentifier name) : '/' ∉ name.toList :=
  fun mem => (h.no_slash '/' mem).2 rfl

/-- There is no dot in the file item of an identifier. -/
theorem dot_notMem_fileItem (h : IsIdentifier name) : '.' ∉ (fileItem name).toList := by
  intro mem
  rcases mem_fileItem h.ascii mem with eq | eq | ⟨c, memC, eq⟩
  · exact absurd eq (by decide)
  · exact absurd eq (by decide)
  · have dot := toLower_eq_dot (h.ascii c memC) eq.symm
    exact h.no_dot (dot ▸ memC)

end IsIdentifier

/-- A text without dots that is not empty is a name on a path. -/
theorem isStep_of_dot_notMem {s : String} (nonempty : s ≠ "") (dot : '.' ∉ s.toList) :
    Path.isStep s = true := by
  have ne : s ≠ "." := by
    rintro rfl
    exact dot (by decide)
  simp [Path.isStep, nonempty, ne]

/-- The file item of an identifier is a name on a path. -/
theorem IsIdentifier.partsOf_fileItem (h : IsIdentifier name) :
    Path.partsOf (fileItem name) = [fileItem name] :=
  Path.partsOf_of_plain (slash_notMem_fileItem h.ascii h.no_slash)
    (isStep_of_dot_notMem h.isPart.nonempty h.dot_notMem_fileItem)

/-- After a slash a conversion starts anew. -/
theorem fileItemAfter_slash (ascii : ∀ c ∈ cs, c.toNat < 128) (more : List Char) :
    fileItemAfter last (cs ++ '/' :: more) = fileItemAfter last cs ++ '/' :: fileItemAfter ['/'] more := by
  induction cs generalizing last with
  | nil => rw [List.nil_append, fileItemAfter_cons (by decide)]; simp [fileItemAfter]
  | cons c cs ih =>
    obtain ⟨asciiC, asciiCs⟩ := List.forall_mem_cons.mp ascii
    rw [List.cons_append, fileItemAfter_cons asciiC, fileItemAfter_cons asciiC]
    split
    · rw [ih asciiCs, List.cons_append]
    · split <;> simp only [ih asciiCs, List.cons_append]

/-- The folders of a namespace are the file items of its segments. -/
theorem fileItem_intercalate {names : List String} (h : ∀ name ∈ names, IsIdentifier name) :
    fileItem ("/".intercalate names) = "/".intercalate (names.map fileItem) := by
  have start {name : String} (h : IsIdentifier name) (more : List Char) :
      fileItemChars (name.toList ++ more) = fileItemAfter ['/'] (name.toList ++ more) := by
    obtain ⟨c, cs, eq⟩ := List.exists_cons_of_ne_nil
      (fun none_ => h.nonempty (String.toList_eq_nil_iff.mp none_))
    have mem : c ∈ name.toList := by simp [eq]
    have ascii := h.ascii c mem
    rw [eq, List.cons_append, fileItemChars, lowerForm_of_ascii ascii, fileItemAfter_cons ascii,
      if_neg (by simp [h.no_slash c mem]), if_neg (by simp)]
    rfl
  have after (names : List String) (h : ∀ name ∈ names, IsIdentifier name) :
      fileItemAfter ['/'] ("/".intercalate names).toList = ("/".intercalate (names.map fileItem)).toList := by
    induction names with
    | nil => rfl
    | cons name rest ih =>
      obtain ⟨first, others⟩ := List.forall_mem_cons.mp h
      have alone : fileItemAfter ['/'] name.toList = (fileItem name).toList := by
        rw [fileItem, String.toList_ofList, ← List.append_nil name.toList, start first, List.append_nil]
      by_cases none_ : rest = []
      · simpa [none_] using alone
      · rw [String.intercalate_cons_of_ne_nil none_, List.map_cons,
          String.intercalate_cons_of_ne_nil (by simpa using none_)]
        have slash : "/".toList = ['/'] := by decide
        simp only [String.toList_append, slash, ← ih others, ← alone, List.append_assoc,
          List.singleton_append, fileItemAfter_slash first.ascii]
  cases names with
  | nil => rfl
  | cons name rest =>
    have front : ∃ more, ("/".intercalate (name :: rest)).toList = name.toList ++ more := by
      by_cases none_ : rest = []
      · exact ⟨[], by simp [none_]⟩
      · exact ⟨_, by
          rw [String.intercalate_cons_of_ne_nil none_, String.append_assoc, String.toList_append]⟩
    obtain ⟨more, eq⟩ := front
    rw [← String.toList_inj, ← after _ h, fileItem, String.toList_ofList, eq]
    exact start (h name List.mem_cons_self) more

/-- A namespace of identifiers leads through the file items of its segments. -/
theorem partsOf_subPath (h : ∀ segment ∈ segments namespace_, IsIdentifier segment) :
    Path.partsOf (subPath namespace_) = (segments namespace_).map fileItem := by
  rw [subPath, fileItem_intercalate h, Path.partsOf_intercalate]
  generalize segments namespace_ = names at h
  induction names with
  | nil => rfl
  | cons name rest ih =>
    obtain ⟨first, others⟩ := List.forall_mem_cons.mp h
    rw [List.map_cons, List.flatMap_cons, first.partsOf_fileItem, ih others, List.singleton_append]

/-- What is not in any piece, and divides none, is not in the whole. -/
theorem notMem_of_pieces {p : Char → Bool} (off : p c = false)
    (h : ∀ piece ∈ cs.splitOnP p, c ∉ piece) : c ∉ cs := by
  induction cs with
  | nil => simp
  | cons d rest ih =>
    rw [List.splitOnP_cons_eq_if_modifyHead] at h
    by_cases divides : p d = true
    · rw [if_pos divides] at h
      have other : c ≠ d := by
        rintro rfl
        simp [off] at divides
      rw [List.mem_cons, not_or]
      exact ⟨other, ih fun piece mem => h piece (List.mem_cons_of_mem _ mem)⟩
    · rw [if_neg divides] at h
      obtain ⟨first, others, eq⟩ := List.exists_cons_of_ne_nil (List.splitOnP_ne_nil p rest)
      rw [eq, List.modifyHead_cons, List.forall_mem_cons] at h
      obtain ⟨here, there⟩ := h
      rw [List.mem_cons, not_or] at here ⊢
      refine ⟨here.1, ih fun piece mem => ?_⟩
      rw [eq] at mem
      rcases List.mem_cons.mp mem with rfl | mem
      · exact here.2
      · exact there piece mem

/-- Texts without slashes are divided at the dots as they are at slashes in place of the dots. -/
theorem splitOnP_slashes (plain : '/' ∉ cs) :
    (cs.map fun ch => if ch == '.' then '/' else ch).splitOnP (· == '/') = cs.splitOnP (· == '.') := by
  induction cs with
  | nil => rfl
  | cons c rest ih =>
    rw [List.mem_cons, not_or] at plain
    obtain ⟨other, plainRest⟩ := plain
    rw [List.map_cons, List.splitOnP_cons_eq_if_modifyHead, List.splitOnP_cons_eq_if_modifyHead,
      ih plainRest]
    by_cases dot : c = '.'
    · simp [dot]
    · simp [dot, Ne.symm other]

/-- With a slash for each dot a namespace of identifiers leads through its segments. -/
theorem partsOf_folders (h : ∀ segment ∈ segments namespace_, IsIdentifier segment) :
    Path.partsOf (.ofList (namespace_.toList.map fun ch => if ch == '.' then '/' else ch)) =
      segments namespace_ := by
  have identifier (piece : String) (mem : piece ∈ Text.splitOn '.' namespace_) (some_ : piece ≠ "") :
      IsIdentifier piece :=
    h piece (List.mem_filter.mpr ⟨mem, by simpa [String.isEmpty_iff] using some_⟩)
  have plain : '/' ∉ namespace_.toList := by
    refine notMem_of_pieces (p := (· == '.')) (by decide) fun piece mem slash => ?_
    have inPieces : String.ofList piece ∈ Text.splitOn '.' namespace_ := by
      rw [Text.splitOn_eq]
      exact List.mem_map.mpr ⟨piece, mem, rfl⟩
    refine (identifier (.ofList piece) inPieces ?_).slash_notMem ?_
    · rintro none_
      have : piece = [] := by simpa using congrArg String.toList none_
      simp [this] at slash
    · simpa using slash
  rw [segments, Text.splitOn_eq]
  rw [Path.partsOf_eq, String.toList_ofList, Path.partsOfChars, splitOnP_slashes plain]
  refine List.filter_congr fun piece mem => ?_
  by_cases none_ : piece = ""
  · simp [none_, Path.isStep]
  · rw [isStep_of_dot_notMem none_ (identifier piece (by rwa [Text.splitOn_eq]) none_).no_dot]
    simp [none_]

end Naming

end Scaffold
