import Scaffold.Proofs.Naming.Parts

/-!
Paths as they are written. A text is divided at a character into just the pieces that it is joined from. Paths
with one start are told apart by their texts. The text of a path is read as that path again, unless the path
starts at the working directory: that has a mark of its own, and the mark is read as a name.
-/

namespace Scaffold

namespace Text

variable {c : Char} {s separator : String} {pieces : List String}

/-- There is no divider in a piece. -/
theorem eq_false_of_mem_splitOnP {q : Char → Bool} {cs piece : List Char} (mem : piece ∈ cs.splitOnP q) :
    ∀ c ∈ piece, q c = false := by
  induction cs generalizing piece with
  | nil =>
    obtain rfl := List.mem_singleton.mp mem
    exact List.forall_mem_nil _
  | cons d rest ih =>
    rw [List.splitOnP_cons_eq_if_modifyHead] at mem
    split at mem
    · rcases List.mem_cons.mp mem with rfl | mem
      · exact List.forall_mem_nil _
      · exact ih mem
    · rename_i other
      obtain ⟨first, others, eq⟩ := List.exists_cons_of_ne_nil (List.splitOnP_ne_nil q rest)
      rw [eq] at ih mem
      rcases List.mem_cons.mp mem with rfl | mem
      · exact List.forall_mem_cons.mpr ⟨by simpa using other, ih List.mem_cons_self⟩
      · exact ih (List.mem_cons_of_mem _ mem)

theorem notMem_of_mem_splitOn {piece : String} (mem : piece ∈ splitOn c s) : c ∉ piece.toList := by
  obtain ⟨cs, memPieces, rfl⟩ := List.mem_map.mp mem
  rw [String.toList_ofList]
  exact fun inside => by simpa using eq_false_of_mem_splitOnP memPieces c inside

/-- A text is divided into the pieces that it is joined from, one at least, and none with the divider in it. -/
theorem splitOn_eq_iff (single : separator.toList = [c]) : splitOn c s = pieces ↔
    pieces ≠ [] ∧ s = separator.intercalate pieces ∧ ∀ piece ∈ pieces, c ∉ piece.toList := by
  constructor
  · rintro rfl
    refine ⟨by simp [splitOn, splitWhere, List.splitOnP_ne_nil], ?_, fun piece => notMem_of_mem_splitOn⟩
    have whole : [c].intercalate (s.toList.splitOn c) = s.toList := List.intercalate_splitOn c
    have texts : (splitOn c s).map String.toList = s.toList.splitOn c := by
      simp [splitOn, splitWhere, List.splitOn, Function.comp_def]
    rw [← String.toList_inj, String.toList_intercalate, single, texts, whole]
  · rintro ⟨some_, rfl, apart⟩
    have divided : (separator.intercalate pieces).toList.splitOn c = pieces.map String.toList := by
      rw [String.toList_intercalate, single]
      refine List.splitOn_intercalate c (fun cs mem => ?_) (by simpa using some_)
      obtain ⟨piece, memPiece, rfl⟩ := List.mem_map.mp mem
      exact apart piece memPiece
    have again : splitOn c (separator.intercalate pieces) =
        ((separator.intercalate pieces).toList.splitOn c).map String.ofList := splitOn_eq c _
    rw [again, divided, List.map_map]
    simp [Function.comp_def]

end Text

namespace Path

variable {p q : Path} {part : String}

/-- A name is its stem followed by its suffix. -/
theorem stem_append_suffix (name : String) : (splitName name).1 ++ (splitName name).2 = name := by
  unfold splitName
  simp only
  split
  · rename_i divided
    rw [← String.toList_inj, String.toList_append, String.toList_ofList, String.toList_ofList]
    exact List.prefix_iff_eq_append.mp (List.take_prefix _ _)
  · simp

theorem parts_eq (some_ : p.name ≠ "") : p.parts = p.parent.parts ++ [p.name] := by
  have parts : p.parts ≠ [] := fun none_ => some_ (by simp [name, none_])
  simp [parent, name, List.getLast?_eq_some_getLast parts, List.dropLast_append_getLast parts]

/-- What is appended to the last name is appended to the text. -/
theorem text_append (anchor : Anchor) (names : List String) (name more : String) :
    text ⟨anchor, names ++ [name ++ more]⟩ = text ⟨anchor, names ++ [name]⟩ ++ more := by
  have inner : "/".intercalate (names ++ [name ++ more]) = "/".intercalate (names ++ [name]) ++ more := by
    by_cases alone : names = []
    · simp [alone]
    · simp [String.intercalate_append_of_ne_nil alone, String.append_assoc]
  cases anchor <;> simp [text, inner, String.append_assoc]

/-- Paths of one start that are written alike are one path, if no name holds a slash. -/
theorem text_inj (anchor : p.anchor = q.anchor) (some_ : p.parts ≠ []) (some' : q.parts ≠ [])
    (slashes : ∀ name ∈ p.parts, '/' ∉ name.toList) (slashes' : ∀ name ∈ q.parts, '/' ∉ name.toList)
    (same : p.text = q.text) : p = q := by
  have names : "/".intercalate p.parts = "/".intercalate q.parts := by
    unfold text at same
    rw [anchor] at same
    cases start : q.anchor <;> simpa [start, some_, some'] using same
  have split {r : Path} (some_ : r.parts ≠ []) (slashes : ∀ name ∈ r.parts, '/' ∉ name.toList) :
      Text.splitOn '/' ("/".intercalate r.parts) = r.parts :=
    (Text.splitOn_eq_iff (by decide)).mpr ⟨some_, rfl, slashes⟩
  have parts : p.parts = q.parts := by rw [← split some_ slashes, names, split some' slashes']
  obtain ⟨_, _⟩ := p
  obtain ⟨_, _⟩ := q
  simp_all

/-- A path that can be read: its names are names between slashes. -/
def IsPlain (p : Path) : Prop := ∀ part ∈ p.parts, '/' ∉ part.toList ∧ isStep part = true

theorem parts_ofText (s : String) : (ofText s).parts = partsOf s := by
  simp only [ofText]
  split <;> rfl

theorem anchor_ofText (s : String) :
    (ofText s).anchor = .relative ∨ (ofText s).anchor = .root ∨ (ofText s).anchor = .doubleRoot := by
  simp only [ofText]
  split <;> simp

theorem isPlain_ofText (s : String) : (ofText s).IsPlain := by
  intro part mem
  rw [parts_ofText] at mem
  obtain ⟨piece, step⟩ := List.mem_filter.mp mem
  exact ⟨Text.notMem_of_mem_splitOn piece, step⟩

/-- The names of a plain path are read from the names with slashes between them. -/
theorem IsPlain.partsOf_names (plain : p.IsPlain) : partsOf ("/".intercalate p.parts) = p.parts := by
  rw [partsOf_intercalate, List.flatMap_congr fun part mem => partsOf_of_plain (plain part mem).1 (plain part mem).2]
  exact List.flatMap_singleton' p.parts

/-- The names begin with no slash. -/
theorem IsPlain.takeWhile_names (plain : p.IsPlain) :
    ("/".intercalate p.parts).toList.takeWhile (· == '/') = [] := by
  cases parts : p.parts with
  | nil => rfl
  | cons part rest =>
    have ⟨noSlash, step⟩ := plain part (by simp [parts])
    obtain ⟨c, cs, eq⟩ := List.exists_cons_of_ne_nil (l := part.toList) fun none_ => by
      simp [isStep, String.toList_eq_nil_iff.mp none_] at step
    have other : c ≠ '/' := fun same => noSlash (by simp [eq, same])
    have head : ∃ tail, ("/".intercalate (part :: rest)).toList = c :: tail := by
      by_cases alone : rest = []
      · exact ⟨cs, by simp [alone, eq]⟩
      · exact ⟨_, by rw [String.intercalate_cons_of_ne_nil alone]; simp [eq]; rfl⟩
    obtain ⟨tail, eq⟩ := head
    rw [eq]
    exact List.takeWhile_cons_of_neg (by simpa using other)

theorem takeWhile_slash (cs : List Char) :
    ('/' :: cs).takeWhile (· == '/') = '/' :: cs.takeWhile (· == '/') := List.takeWhile_cons_of_pos rfl

theorem partsOfChars_cons_slash (cs : List Char) : partsOfChars ('/' :: cs) = partsOfChars cs :=
  (partsOfChars_slash [] cs).trans (List.nil_append _)

/-- A plain path is read from its text. -/
theorem IsPlain.ofText_text (plain : p.IsPlain) (start : p.anchor ≠ .workingDirectory) : ofText p.text = p := by
  have names := plain.partsOf_names
  have noSlash := plain.takeWhile_names
  obtain ⟨anchor, parts⟩ := p
  simp only [partsOf_eq] at names noSlash
  cases anchor with
  | workingDirectory => exact absurd rfl start
  | relative =>
    by_cases empty : parts = []
    · rw [empty]
      decide
    · have text : (⟨.relative, parts⟩ : Path).text = "/".intercalate parts := by simp [Path.text, empty]
      simp only [ofText, text, partsOf_eq, noSlash, names, List.length_nil]
  | root =>
    have text : (⟨.root, parts⟩ : Path).text.toList = '/' :: ("/".intercalate parts).toList := String.toList_append
    simp only [ofText, partsOf_eq, text, takeWhile_slash, partsOfChars_cons_slash, noSlash, names]
    rfl
  | doubleRoot =>
    have text : (⟨.doubleRoot, parts⟩ : Path).text.toList = '/' :: '/' :: ("/".intercalate parts).toList :=
      String.toList_append
    simp only [ofText, partsOf_eq, text, takeWhile_slash, partsOfChars_cons_slash, noSlash, names]
    rfl

/-- Reading a path, writing it and reading it again gives the same path. -/
theorem ofText_text_ofText (s : String) : ofText (ofText s).text = ofText s :=
  (isPlain_ofText s).ofText_text (by rcases anchor_ofText s with start | start | start <;> simp [start])

end Path

end Scaffold
