import Scaffold.Proofs.Generation.Emission
import Scaffold.Proofs.Path

/-!
The last names of generated files and of sidecars. A generated file has a name with the letter at its end
that all targets end their extensions with; a sidecar has the custom extension for its suffix, unless that
is a lone dot.
-/

namespace Scaffold

/-- The text has `c` for its last character. -/
def Text.EndsIn (c : Char) (s : String) : Prop := ∃ front, s.toList = front ++ [c]

open Text

variable {c : Char} {s : String}

theorem Text.EndsIn.append (h : EndsIn c s) (front : String) : EndsIn c (front ++ s) := by
  obtain ⟨cs, eq⟩ := h
  exact ⟨front.toList ++ cs, by simp [eq]⟩

theorem Text.EndsIn.unique {d : Char} (h : EndsIn c s) (h' : EndsIn d s) : c = d := by
  obtain ⟨front, eq⟩ := h
  obtain ⟨front', eq'⟩ := h'
  have same := congrArg List.getLast? (eq.symm.trans eq')
  simpa using same

theorem Text.EndsIn.stripped (h : EndsIn c s) {d : Char} (ne : c ≠ d) : EndsIn c (stripChar d s) := by
  obtain ⟨front, eq⟩ := h
  have off : (c == d) = false := by simpa using ne
  refine ⟨front.dropWhile (· == d), ?_⟩
  rw [stripChar, trimChars, eq, String.toList_ofList, List.dropWhile_append]
  split
  · rename_i none_
    rw [List.isEmpty_iff.mp none_]
    simp [off]
  · simp [off]

theorem Text.EndsIn.joinPath (h : EndsIn c s) (ne : c ≠ '/') (parts : List String) :
    EndsIn c (Naming.joinPath (parts ++ [s])) := by
  have last := h.stripped ne
  have some_ : (!(stripChar '/' s).isEmpty) = true := by
    obtain ⟨front, eq⟩ := last
    rw [Bool.not_eq_true', ← Bool.not_eq_true, String.isEmpty_iff]
    intro none_
    simp [none_] at eq
  simp only [Naming.joinPath, List.map_append, List.map_cons, List.map_nil, List.filter_append,
    List.filter_cons, some_, if_true, List.filter_nil]
  by_cases none_ : (parts.map (stripChar '/')).filter (fun part => !part.isEmpty) = []
  · simpa [none_] using last
  · rw [String.intercalate_append_of_ne_nil none_ (by simp), String.intercalate_singleton]
    exact last.append _

/-- A path of parts that ends with a text ends as that text. -/
theorem Text.EndsIn.joinGiven (h : EndsIn c s) (ne : c ≠ '/') {parts : List Json} {joined : String}
    (ok : Naming.joinGiven (parts ++ [.str s]) = .ok joined) : EndsIn c joined := by
  rw [Naming.joinGiven, List.mapM_append] at ok
  cases first : parts.mapM Naming.pathPart with
  | error e => simp [first, bind, Except.bind, Except.map] at ok
  | ok texts =>
    simp only [first, List.mapM_cons, List.mapM_nil, Naming.pathPart_str, bind, Except.bind, pure,
      Except.pure, Except.map, Except.ok.injEq] at ok
    rw [← ok]
    exact h.joinPath ne texts

theorem splitOnP_concat {p : Char → Bool} (off : p c = false) (front : List Char) :
    ∃ before last, (front ++ [c]).splitOnP p = before ++ [last ++ [c]] := by
  induction front with
  | nil => exact ⟨[], [], by simp [List.splitOnP_cons_eq_if_modifyHead, off]⟩
  | cons x front ih =>
    obtain ⟨before, last, eq⟩ := ih
    rw [List.cons_append, List.splitOnP_cons_eq_if_modifyHead, eq]
    by_cases sep : p x = true
    · exact ⟨[] :: before, last, by simp [sep]⟩
    · cases before with
      | nil => exact ⟨[], x :: last, by simp [sep]⟩
      | cons first before => exact ⟨(x :: first) :: before, last, by simp [sep]⟩

/-- The last name of a path ends as its text, unless that is a slash or a dot. -/
theorem partsOf_of_endsIn (h : EndsIn c s) (slash : c ≠ '/') (dot : c ≠ '.') :
    ∃ names last, Path.partsOf s = names ++ [last] ∧ EndsIn c last := by
  obtain ⟨front, eq⟩ := h
  obtain ⟨before, last, split⟩ := splitOnP_concat (p := (· == '/')) (c := c) (by simpa using slash) front
  have ends : EndsIn c (String.ofList (last ++ [c])) := ⟨last, by simp⟩
  have ne : ∀ text : String, EndsIn c text → (text != "" && text != ".") = true := by
    rintro text ⟨cs, eq⟩
    simp only [Bool.and_eq_true, bne_iff_ne]
    constructor
    · rintro rfl
      simp at eq
    · rintro rfl
      have := congrArg List.getLast? eq
      simp [eq_comm, dot] at this
  refine ⟨(before.map String.ofList).filter fun part => part != "" && part != ".",
    String.ofList (last ++ [c]), ?_, ends⟩
  simp only [Path.partsOf, splitOn_eq, eq, split, List.map_append, List.map_cons, List.map_nil,
    List.filter_append, List.filter_cons, ne _ ends, if_true, List.filter_nil]

/-- The path of an artifact has the last name of its sub path. -/
theorem Artifact.path_concat {a : Artifact} {names : List String} {last : String}
    (eq : Path.partsOf a.subPath = names ++ [last]) (project : Path) :
    ∃ front, (a.path project).parts = front ++ [last] := by
  rw [← Path.parts_ofText] at eq
  unfold Artifact.path Path.join
  split
  · exact ⟨project.parts ++ names, by simp [eq]⟩
  · exact ⟨names, eq⟩

/-- The path of a generated file has a last name, which ends as the extensions of the targets do. -/
theorem Artifact.IsFor.name {target : Target} {a : Artifact} (h : a.IsFor target) (project : Path) :
    ∃ names last, (a.path project).parts = names ++ [last] ∧ EndsIn 's' last := by
  obtain ⟨parts, name, joined⟩ := h.subPath
  have extension : EndsIn 's' target.extension := by
    cases target
    · exact ⟨['.', 'c'], rfl⟩
    · exact ⟨['.', 't'], rfl⟩
  have ends := (extension.append name).joinGiven (by decide) joined
  obtain ⟨names, last, eq, endsLast⟩ := partsOf_of_endsIn ends (by decide) (by decide)
  obtain ⟨front, whole⟩ := Artifact.path_concat eq project
  exact ⟨front, last, whole, endsLast⟩

theorem Path.stem_ne_nil {name : String} (h : name ≠ "") : (splitName name).1.toList ≠ [] := by
  unfold splitName
  simp only
  split
  · rename_i divided
    simp only [Bool.and_eq_true, Bool.not_eq_true', List.isEmpty_eq_false_iff] at divided
    simpa using divided.2
  · simpa using h

/-- Below a stem the last dot of a name begins its suffix, unless it is its last character. -/
theorem Path.suffix_of_lastDot {name : String} {stem rest : List Char} (some_ : stem ≠ [])
    (last : '.' ∉ rest) (eq : name.toList = stem ++ '.' :: rest) :
    (splitName name).2 = if rest = [] then "" else String.ofList ('.' :: rest) := by
  have after : name.toList.reverse.takeWhile (· != '.') = rest.reverse := by
    rw [eq, List.reverse_append, List.reverse_cons, List.append_assoc, List.takeWhile_append_of_pos]
    · simp
    · intro ch mem
      have : ch ≠ '.' := by
        rintro rfl
        exact last (List.mem_reverse.mp mem)
      simpa using this
  have length : name.toList.length = stem.length + 1 + rest.length := by
    rw [eq]
    simp
    omega
  have front : name.toList.take (name.toList.length - rest.reverse.length - 1) = stem := by
    rw [List.length_reverse, show name.toList.length - rest.length - 1 = stem.length by omega, eq]
    simp
  simp only [splitName, after, front]
  by_cases none_ : rest = []
  · simp [none_]
  · have short : rest.length < stem.length + (rest.length + 1) := by omega
    simp [none_, some_, short, eq]

end Scaffold
