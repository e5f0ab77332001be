import Scaffold.Text.Search
import Scaffold.Text.Lines

/-!
Lines that are written and read again. A text in memory is divided at more characters than a file is; the
lines that survive both are those without any line boundary.
-/

namespace Scaffold.Text

/-- Holds no character that ends a line. -/
def isSingleLine (s : String) : Bool := (chars s).all fun c => !isLineBoundary c

theorem isSingleLine_eq (s : String) : isSingleLine s = s.toList.all fun c => !isLineBoundary c := by
  rw [isSingleLine, chars_eq]

theorem linesOf_cons {c : Char} (h : isLineBoundary c = false) (rest : List Char) :
    linesOf (c :: rest) = consFirst c (linesOf rest) := by
  have hr : c ≠ '\r' := by
    rintro rfl
    simp [isLineBoundary] at h
  rw [linesOf.eq_3 c rest (by intro _ e _; exact hr e)]
  simp [h]

theorem linesOf_line_append {line : List Char} (h : ∀ c ∈ line, isLineBoundary c = false)
    (rest : List Char) : linesOf (line ++ '\n' :: rest) = line :: linesOf rest := by
  induction line with
  | nil => simp [linesOf, isLineBoundary]
  | cons c line ih =>
    have hc := h c List.mem_cons_self
    have tail := ih fun d hd => h d (List.mem_cons_of_mem _ hd)
    rw [List.cons_append, linesOf_cons hc, tail]
    rfl

theorem newlines_line_append {line : List Char} (h : ∀ c ∈ line, isLineBoundary c = false)
    (rest : List Char) : newlines (line ++ '\n' :: rest) = line ++ '\n' :: newlines rest := by
  induction line with
  | nil => simp [newlines]
  | cons c line ih =>
    have hr : c ≠ '\r' := by
      rintro rfl
      simpa [isLineBoundary] using h '\r' List.mem_cons_self
    have tail := ih fun d hd => h d (List.mem_cons_of_mem _ hd)
    rw [List.cons_append, newlines.eq_3 c _ (by intro _ e _; exact hr e), tail]
    simp [hr]

theorem forall_not_boundary {line : String} (h : isSingleLine line = true) :
    ∀ c ∈ line.toList, isLineBoundary c = false := by
  intro c hc
  rw [isSingleLine_eq] at h
  simpa using List.all_eq_true.mp h c hc

theorem isSingleLine_append (s t : String) : isSingleLine (s ++ t) = (isSingleLine s && isSingleLine t) := by
  simp only [isSingleLine_eq, String.toList_append, List.all_append]

theorem trimChars_sublist (p : Char → Bool) (cs : List Char) : (trimChars p cs).Sublist cs := by
  have back : (trimChars p cs).Sublist (cs.dropWhile p).reverse.reverse :=
    (List.dropWhile_sublist p).reverse
  rw [List.reverse_reverse] at back
  exact back.trans (List.dropWhile_sublist p)

theorem isSingleLine_strip {line : String} (h : isSingleLine line = true) :
    isSingleLine (strip line) = true := by
  refine List.all_eq_true.mpr fun c hc => List.all_eq_true.mp h c ?_
  rw [chars_eq] at hc ⊢
  rw [strip_eq, String.toList_ofList] at hc
  exact (trimChars_sublist isBlank _).subset hc

/-- Lines as a text has them: each with its end. -/
def ended (lines : List String) : List Char := lines.flatMap fun line => line.toList ++ ['\n']

@[simp] theorem ended_nil : ended [] = [] := rfl

@[simp] theorem ended_cons (line : String) (rest : List String) :
    ended (line :: rest) = line.toList ++ '\n' :: ended rest := by
  simp [ended]

@[simp] theorem ended_append (lines more : List String) :
    ended (lines ++ more) = ended lines ++ ended more := by
  simp [ended]

theorem toList_joinLines {lines : List String} (some_ : lines ≠ []) :
    (joinLines lines).toList = ended lines := by
  induction lines with
  | nil => exact absurd rfl some_
  | cons line rest ih =>
    by_cases h : rest = []
    · simp [joinLines_eq, h]
    · have tail := ih h
      simp only [joinLines_eq, String.toList_append] at tail ⊢
      rw [String.intercalate_cons_of_ne_nil h]
      simp [← tail]

/-- The end of a line is its end when it is read, whatever comes after. -/
theorem newlines_line (line : List Char) : ∃ body : List Char,
    ∀ rest, newlines (line ++ '\n' :: rest) = body ++ '\n' :: newlines rest := by
  fun_induction newlines line with
  | case1 => exact ⟨[], fun rest => by simp [newlines]⟩
  | case2 line ih =>
    obtain ⟨body, eq⟩ := ih
    exact ⟨'\n' :: body, fun rest => by simp [newlines, eq]⟩
  | case3 c line other ih =>
    by_cases last : c = '\r' ∧ line = []
    · obtain ⟨rfl, rfl⟩ := last
      exact ⟨[], fun rest => by simp [newlines]⟩
    · obtain ⟨body, eq⟩ := ih
      have step : ∀ rest, newlines (c :: (line ++ '\n' :: rest)) =
          (if c == '\r' then '\n' else c) :: newlines (line ++ '\n' :: rest) := by
        intro rest
        rw [newlines.eq_3]
        intro tail hc ht
        cases line with
        | nil => exact last ⟨hc, rfl⟩
        | cons d line => exact other line hc (by simp_all)
      refine ⟨(if c == '\r' then '\n' else c) :: body, fun rest => ?_⟩
      rw [List.cons_append, step, eq, List.cons_append]

theorem linesOf_ne_nil {cs : List Char} (h : cs ≠ []) : linesOf cs ≠ [] := by
  fun_cases linesOf cs with
  | case1 => exact absurd rfl h
  | case2 => simp
  | case3 => simp
  | case4 c rest =>
    cases linesOf rest <;> simp [consFirst]

/-- A character that is not the first of two that end a line together counts for itself. -/
theorem linesOf_cons_of_apart {c : Char} {rest : List Char} (apart : ¬ (c = '\r' ∧ rest.head? = some '\n')) :
    linesOf (c :: rest) = if isLineBoundary c then [] :: linesOf rest else consFirst c (linesOf rest) := by
  rw [linesOf.eq_3]
  intro tail isReturn isEnd
  exact apart ⟨isReturn, by rw [isEnd]; rfl⟩

/-- The lines before a line end are the same whatever comes after. -/
theorem linesOf_append (line rest : List Char) :
    linesOf (line ++ '\n' :: rest) = linesOf (line ++ ['\n']) ++ linesOf rest := by
  fun_induction linesOf line with
  | case1 => simp [linesOf, isLineBoundary]
  | case2 line ih => simpa [linesOf] using ih
  | case3 c line other boundary ih =>
    by_cases last : c = '\r' ∧ line = []
    · obtain ⟨rfl, rfl⟩ := last
      simp [linesOf]
    · have apart (more : List Char) : ¬ (c = '\r' ∧ (line ++ '\n' :: more).head? = some '\n') := by
        rintro ⟨isReturn, isEnd⟩
        cases line with
        | nil => exact last ⟨isReturn, rfl⟩
        | cons d line => exact other line isReturn (by simp_all)
      rw [List.cons_append, List.cons_append, linesOf_cons_of_apart (apart rest),
        linesOf_cons_of_apart (apart []), ih]
      simp [boundary]
  | case4 c line other inside ih =>
    have plain : isLineBoundary c = false := by simpa using inside
    have some_ : linesOf (line ++ ['\n']) ≠ [] := linesOf_ne_nil (by simp)
    obtain ⟨first, more, parts⟩ := List.exists_cons_of_ne_nil some_
    rw [List.cons_append, List.cons_append, linesOf_cons plain, linesOf_cons plain, ih, parts]
    rfl

/-- A line end after a character that is none opens no line. -/
theorem linesOf_concat {line : List Char} {c : Char} (last : line.getLast? = some c)
    (inside : isLineBoundary c = false) : linesOf (line ++ ['\n']) = linesOf line := by
  fun_induction linesOf line with
  | case1 => cases last
  | case2 line ih =>
    cases line with
    | nil =>
      obtain rfl : '\n' = c := by simpa using last
      exact absurd inside (by decide)
    | cons d line => simpa [linesOf] using ih (by simpa [List.getLast?_cons_cons] using last)
  | case3 d line other boundary ih =>
    cases line with
    | nil =>
      obtain rfl : d = c := by simpa using last
      exact absurd inside (by simp [boundary])
    | cons e line =>
      have apart : ¬ (d = '\r' ∧ (e :: line ++ ['\n']).head? = some '\n') := by
        rintro ⟨isReturn, isEnd⟩
        exact other line isReturn (by simp_all)
      rw [List.cons_append, linesOf_cons_of_apart apart, ih (by simpa [List.getLast?_cons_cons] using last)]
      simp [boundary]
  | case4 d line other plain ih =>
    have plain : isLineBoundary d = false := by simpa using plain
    rw [List.cons_append, linesOf_cons plain]
    cases line with
    | nil => simp [linesOf, isLineBoundary, consFirst]
    | cons e line => rw [ih (by simpa [List.getLast?_cons_cons] using last)]

theorem flatten_linesOf (cs : List Char) : (linesOf cs).flatten = cs.filter fun c => !isLineBoundary c := by
  fun_induction linesOf cs with
  | case1 => rfl
  | case2 rest ih => simpa [isLineBoundary] using ih
  | case3 c rest other boundary ih => simpa [boundary] using ih
  | case4 c rest other inside ih =>
    rw [List.filter_cons_of_pos (by simpa using inside), ← ih]
    cases linesOf rest <;> rfl

theorem subset_of_mem_linesOf {line : List Char} (mem : line ∈ linesOf cs) : line ⊆ cs := fun _ memC =>
  (List.mem_filter.mp (flatten_linesOf cs ▸ List.mem_flatten_of_mem mem memC)).1

/-- The first line of a text goes on from the single line that it starts with. -/
theorem linesOf_append_of_single {cs ds : List Char} (single : ∀ c ∈ cs, isLineBoundary c = false)
    (some_ : cs ++ ds ≠ []) : ∃ first rest, linesOf (cs ++ ds) = (cs ++ first) :: rest ∧ first ⊆ ds ∧
      ∀ line ∈ rest, line ⊆ ds := by
  induction cs with
  | nil =>
    obtain ⟨first, rest, lines⟩ := List.exists_cons_of_ne_nil (linesOf_ne_nil some_)
    have sub : ∀ line ∈ first :: rest, line ⊆ ds := fun line mem => subset_of_mem_linesOf (lines ▸ mem)
    exact ⟨first, rest, lines, sub first List.mem_cons_self, fun line mem => sub line (List.mem_cons_of_mem _ mem)⟩
  | cons c cs ih =>
    obtain ⟨here, later⟩ := List.forall_mem_cons.mp single
    rw [List.cons_append, linesOf_cons here]
    by_cases alone : cs ++ ds = []
    · obtain ⟨rfl, rfl⟩ := List.append_eq_nil_iff.mp alone
      exact ⟨[], [], rfl, List.Subset.refl _, nofun⟩
    · obtain ⟨first, rest, lines, inFirst, inRest⟩ := ih later alone
      exact ⟨first, rest, by rw [lines]; rfl, inFirst, inRest⟩

/-- The line does not end like a line. -/
def IsOpen (line : String) : Prop := ∃ c, line.toList.getLast? = some c ∧ isLineBoundary c = false

theorem isOpen_of_single {line : String} (single : isSingleLine line = true) (some_ : line ≠ "") : IsOpen line := by
  have chars : line.toList ≠ [] := fun empty => some_ (by rw [← String.ofList_toList (s := line), empty])
  exact ⟨_, List.getLast?_eq_some_getLast chars, forall_not_boundary single _ (List.getLast_mem chars)⟩

theorem isOpen_append (s : String) {t : String} (h : IsOpen t) : IsOpen (s ++ t) := by
  obtain ⟨c, last, inside⟩ := h
  exact ⟨c, by rw [String.toList_append, List.getLast?_append, last]; rfl, inside⟩

/-- Lines with line ends between them are divided there, and wherever they are divided themselves. -/
theorem splitLines_intercalate {lines : List String} (open_ : ∀ line ∈ lines, IsOpen line) :
    splitLines ("\n".intercalate lines) = lines.flatMap splitLines := by
  induction lines with
  | nil => rfl
  | cons line rest ih =>
    obtain ⟨⟨c, last, inside⟩, later⟩ := List.forall_mem_cons.mp open_
    by_cases alone : rest = []
    · simp [alone]
    · have chars : ("\n".intercalate (line :: rest)).toList =
          line.toList ++ '\n' :: ("\n".intercalate rest).toList := by
        rw [String.intercalate_cons_of_ne_nil alone]
        simp
      rw [splitLines_eq, chars, linesOf_append, linesOf_concat last inside, List.map_append, List.flatMap_cons,
        ← ih later, splitLines_eq, splitLines_eq]

theorem splitLines_of_single {line : String} (single : isSingleLine line = true) (some_ : line ≠ "") :
    splitLines line = [line] := by
  obtain ⟨c, last, inside⟩ := isOpen_of_single single some_
  rw [splitLines_eq, ← linesOf_concat last inside, linesOf_line_append (forall_not_boundary single)]
  simp [linesOf]

/-- Single lines with line ends between them are divided into them. -/
theorem splitLines_intercalate_of_single {lines : List String}
    (each : ∀ line ∈ lines, isSingleLine line = true ∧ line ≠ "") : splitLines ("\n".intercalate lines) = lines := by
  rw [splitLines_intercalate fun line mem => isOpen_of_single (each line mem).1 (each line mem).2]
  induction lines with
  | nil => rfl
  | cons line rest ih =>
    obtain ⟨⟨single, some_⟩, later⟩ := List.forall_mem_cons.mp each
    rw [List.flatMap_cons, splitLines_of_single single some_, ih later]
    rfl

/-- The lines as which a line of a file is read. -/
def reread (line : String) : List String := splitLines (readNewlines (line ++ "\n"))

theorem reread_of_single {line : String} (h : isSingleLine line = true) : reread line = [line] := by
  have hl := forall_not_boundary h
  simp only [reread, readNewlines_eq, splitLines_eq, String.toList_append, String.toList_ofList]
  rw [show "\n".toList = ['\n'] from rfl, newlines_line_append hl, newlines,
    linesOf_line_append hl]
  simp [linesOf]

theorem linesOf_ended (lines : List String) :
    (linesOf (newlines (ended lines))).map String.ofList = lines.flatMap reread := by
  induction lines with
  | nil => rfl
  | cons line rest ih =>
    obtain ⟨body, eq⟩ := newlines_line line.toList
    have alone : newlines (line.toList ++ ['\n']) = body ++ ['\n'] := eq []
    rw [ended_cons, eq, linesOf_append, List.map_append, ih, List.flatMap_cons, reread,
      splitLines_eq, readNewlines_eq, String.toList_ofList, String.toList_append, ← alone]
    rfl

/-- Lines that are written as a file are read again one by one. -/
theorem splitLines_joinLines {lines : List String} (some_ : lines ≠ []) :
    splitLines (readNewlines (joinLines lines)) = lines.flatMap reread := by
  rw [readNewlines_eq, splitLines_eq, String.toList_ofList, toList_joinLines some_, linesOf_ended]

/-- A file without lines is read as one empty line. -/
theorem splitLines_joinLines_nil : splitLines (readNewlines (joinLines [])) = [""] := by
  simp [joinLines_eq, splitLines_eq, readNewlines_eq, newlines, linesOf, isLineBoundary]

theorem flatMap_reread_of_single {lines : List String}
    (single : ∀ line ∈ lines, isSingleLine line = true) : lines.flatMap reread = lines := by
  induction lines with
  | nil => rfl
  | cons line rest ih =>
    rw [List.flatMap_cons, reread_of_single (single line List.mem_cons_self),
      ih fun l h => single l (List.mem_cons_of_mem _ h)]
    rfl

/-- Lines without line boundaries are told apart by their text. -/
theorem ended_inj {a b : List String} (single : ∀ line ∈ a, isSingleLine line = true)
    (single' : ∀ line ∈ b, isSingleLine line = true) (h : ended a = ended b) : a = b := by
  rw [← flatMap_reread_of_single single, ← linesOf_ended, h, linesOf_ended,
    flatMap_reread_of_single single']

theorem consFirst_single {c : Char} (h : isLineBoundary c = false) {lines : List (List Char)}
    (single : ∀ line ∈ lines, ∀ d ∈ line, isLineBoundary d = false) :
    ∀ line ∈ consFirst c lines, ∀ d ∈ line, isLineBoundary d = false := by
  cases lines with
  | nil => simp [consFirst, h]
  | cons first rest =>
    intro line hline
    rcases List.mem_cons.mp hline with rfl | hline
    · intro d hd
      rcases List.mem_cons.mp hd with rfl | hd
      · exact h
      · exact single first List.mem_cons_self d hd
    · exact single line (List.mem_cons_of_mem _ hline)

theorem linesOf_single (cs : List Char) :
    ∀ line ∈ linesOf cs, ∀ c ∈ line, isLineBoundary c = false := by
  fun_induction linesOf cs with
  | case1 => simp
  | case2 rest ih => simpa using ih
  | case3 c rest _ hc ih => simpa using ih
  | case4 c rest _ hc ih => exact consFirst_single (by simpa using hc) ih

/-- No line of a text in memory holds a line boundary. -/
theorem isSingleLine_of_mem {s line : String} (h : line ∈ splitLines s) :
    isSingleLine line = true := by
  obtain ⟨cs, hcs, rfl⟩ := List.mem_map.mp h
  simpa [isSingleLine_eq] using linesOf_single (chars s) cs hcs

/-- The first line of a file that was written from lines. -/
theorem firstFileLine_joinLines {line : String} (single : isSingleLine line = true)
    (rest : List String) : firstFileLine (joinLines (line :: rest)) = line := by
  have hl := forall_not_boundary single
  have before : ∀ c ∈ line.toList, (c != '\n') = true := by
    intro c hc
    have := hl c hc
    rw [bne_iff_ne]
    rintro rfl
    simp [isLineBoundary] at this
  rw [firstFileLine, ofChars_eq, chars_eq, toList_joinLines (List.cons_ne_nil _ _), ended_cons, newlines_line_append hl,
    List.takeWhile_append_of_pos before]
  simp

end Scaffold.Text
