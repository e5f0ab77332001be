import Scaffold.Config.Validation
import Scaffold.Proofs.Path

/-!
The grammar of namespaces. A namespace is divided at its dots, and each part is read on its own, up to a line end
behind it. So every namespace of the grammar passes, and besides these just the texts with line ends behind some of
their words; a reserved word is not known as one when a line end is behind it.
-/

namespace Scaffold

namespace Config

variable {s part word : String}

/-- A word: a letter of ASCII or a low line, and after it letters, digits and low lines. -/
def IsWord (s : String) : Prop :=
  ∃ first rest, s.toList = first :: rest ∧ (first.isAlpha = true ∨ first = '_') ∧
    ∀ c ∈ rest, c.isAlphanum = true ∨ c = '_'

/-- A name of the grammar is a word that is not reserved. -/
def IsName (s : String) : Prop := IsWord s ∧ s ∉ reservedWords

/-- A part that passes for a name. -/
inductive IsRead : String → Prop
  | name {word : String} : IsName word → IsRead word
  /-- A line end hides that a word is reserved. -/
  | ended {word : String} : IsWord word → IsRead (word ++ "\n")

/-- One or more parts with dots between them. -/
def IsDotted (isPart : String → Prop) (s : String) : Prop :=
  ∃ parts, parts ≠ [] ∧ s = ".".intercalate parts ∧ ∀ part ∈ parts, isPart part

theorem IsWord.notMem (h : IsWord word) {c : Char} (other : c.isAlphanum = false) (noLine : c ≠ '_') :
    c ∉ word.toList := by
  obtain ⟨first, rest, eq, begins, goesOn⟩ := h
  rw [eq, List.mem_cons, not_or]
  constructor
  · rintro rfl
    rcases begins with letter | rfl
    · simp [Char.isAlphanum, letter] at other
    · exact noLine rfl
  · intro mem
    rcases goesOn c mem with letter | rfl
    · exact absurd (letter.symm.trans other) (by decide)
    · exact noLine rfl

theorem IsWord.dot_notMem (h : IsWord word) : '.' ∉ word.toList := h.notMem (by decide) (by decide)

theorem IsWord.newline_notMem (h : IsWord word) : '\n' ∉ word.toList := h.notMem (by decide) (by decide)

theorem newline_notMem_of_reserved (mem : word ∈ reservedWords) : '\n' ∉ word.toList := by
  have all : ∀ word ∈ reservedWords, '\n' ∉ word.toList := by decide +kernel
  exact all word mem

/-- An identifier is read up to a line end at its end. -/
theorem isIdentifier_eq_true : isIdentifier s = true ↔
    IsWord (.ofList ((Text.dropSuffix? ['\n'] s.toList).getD s.toList)) := by
  unfold isIdentifier IsWord
  rw [String.toList_ofList]
  generalize (Text.dropSuffix? ['\n'] s.toList).getD s.toList = cs
  cases cs <;> simp

/-- A line end behind a word is not seen. -/
theorem isIdentifier_iff : isIdentifier s = true ↔ IsWord s ∨ ∃ word, IsWord word ∧ s = word ++ "\n" := by
  rw [isIdentifier_eq_true]
  cases found : Text.dropSuffix? ['\n'] s.toList with
  | none =>
    rw [Option.getD_none, String.ofList_toList]
    refine ⟨.inl, fun h => h.resolve_right ?_⟩
    rintro ⟨word, -, rfl⟩
    have ends : Text.dropSuffix? ['\n'] (word ++ "\n").toList = some word.toList :=
      Text.dropSuffix?_eq_some.mpr (by simp)
    rw [ends] at found
    cases found
  | some front =>
    have ended := Text.dropSuffix?_eq_some.mp found
    rw [Option.getD_some]
    constructor
    · intro isWord
      exact .inr ⟨.ofList front, isWord, by rw [← String.toList_inj]; simpa using ended⟩
    · rintro (isWord | ⟨word, isWord, rfl⟩)
      · exact absurd (by simp [ended]) isWord.newline_notMem
      · obtain rfl : word.toList = front := by simpa using ended
        simpa using isWord

theorem passes_iff : (isIdentifier part && !reservedWords.contains part) = true ↔ IsRead part := by
  rw [Bool.and_eq_true, isIdentifier_iff, Bool.not_eq_true', List.contains_eq_mem, decide_eq_false_iff_not]
  constructor
  · rintro ⟨isWord | ⟨word, isWord, rfl⟩, free⟩
    · exact .name ⟨isWord, free⟩
    · exact .ended isWord
  · rintro (⟨isWord, free⟩ | @⟨word, isWord⟩)
    · exact ⟨.inl isWord, free⟩
    · exact ⟨.inr ⟨word, isWord, rfl⟩, fun reserved => newline_notMem_of_reserved reserved (by simp)⟩

theorem IsRead.dot_notMem (h : IsRead part) : '.' ∉ part.toList := by
  cases h with
  | name isName => exact isName.1.dot_notMem
  | ended isWord => simpa using isWord.dot_notMem

theorem isNamespace_iff : isNamespace s = true ↔ IsDotted IsRead s := by
  have dot : ".".toList = ['.'] := by decide
  rw [isNamespace, List.all_eq_true]
  constructor
  · intro pass
    obtain ⟨some_, joined, -⟩ := (Text.splitOn_eq_iff dot).mp rfl
    exact ⟨_, some_, joined, fun part mem => passes_iff.mp (pass part mem)⟩
  · rintro ⟨parts, some_, joined, pass⟩ part mem
    have divided : Text.splitOn '.' s = parts :=
      (Text.splitOn_eq_iff dot).mpr ⟨some_, joined, fun part mem => (pass part mem).dot_notMem⟩
    exact passes_iff.mpr (pass part (divided ▸ mem))

/-- A text passes as a namespace just if it has one or more parts with dots between them, each of them a word that is
not reserved or any word with one line end behind it. So without line ends just the namespaces of the grammar
pass. -/
theorem namespace_passes_iff (s : String) :
    (isNamespace s = true ↔ IsDotted IsRead s) ∧
      (IsDotted IsName s ↔ isNamespace s = true ∧ '\n' ∉ s.toList) := by
  refine ⟨isNamespace_iff, ?_, ?_⟩
  · rintro ⟨words, some_, joined, all⟩
    refine ⟨isNamespace_iff.mpr ⟨words, some_, joined, fun word mem => .name (all word mem)⟩, fun newline => ?_⟩
    rw [joined] at newline
    rcases Naming.mem_intercalate newline with isDot | ⟨word, mem, inside⟩
    · exact absurd isDot (by decide)
    · exact (all word mem).1.newline_notMem inside
  · rintro ⟨pass, noNewline⟩
    obtain ⟨parts, some_, joined, all⟩ := isNamespace_iff.mp pass
    refine ⟨parts, some_, joined, fun part mem => ?_⟩
    cases all part mem with
    | name isName => exact isName
    | ended isWord =>
      refine absurd ?_ noNewline
      rw [joined, String.toList_intercalate]
      exact Text.mem_intercalate_of_mem (List.mem_map_of_mem mem) (by simp)

/-- A reserved word passes with a line end behind it, and does not without. -/
theorem namespace_passes_iff_reserved :
    isNamespace "App.class\n" = true ∧ ¬ IsDotted IsName "App.class\n" ∧ isNamespace "App.class" = false := by
  obtain ⟨passes, grammatical⟩ := namespace_passes_iff "App.class\n"
  have app : IsName "App" := ⟨⟨'A', ['p', 'p'], by decide, by decide, by simp⟩, by decide⟩
  have word : IsWord "class" := ⟨'c', ['l', 'a', 's', 's'], by decide, by decide, by simp⟩
  refine ⟨passes.mpr ⟨["App", "class" ++ "\n"], by decide, by decide, ?_⟩, fun isName => ?_, by decide +kernel⟩
  · exact List.forall_mem_cons.mpr ⟨.name app, List.forall_mem_singleton.mpr (.ended word)⟩
  · exact (grammatical.mp isName).2 (by decide)

end Config

end Scaffold
