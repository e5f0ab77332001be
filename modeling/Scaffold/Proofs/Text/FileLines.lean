import Scaffold.Proofs.Text.Lines
import Scaffold.Text.Search

/-!
The lines of a file and the lines that it is read as. Each line of the file is read on its own, as one line
or, where it holds a boundary that a file does not know, as several. A blank line gives blank lines only,
and of a line that says one thing, with white space round it, one of its lines says the same.
-/

namespace Scaffold.Text

section Lines

variable {cs line : List Char} {text : String} {front rest : List String}

theorem newlines_of_notMem (h : '\r' ∉ cs) : newlines cs = cs := by
  induction cs with
  | nil => rfl
  | cons c cs ih =>
    have hc : c ≠ '\r' := fun e => h (by simp [e])
    rw [newlines.eq_3 c cs fun _ e _ => hc e, ih (List.not_mem_of_not_mem_cons h)]
    simp [hc]

theorem notMem_newlines (cs : List Char) : '\r' ∉ newlines cs := by
  fun_induction newlines cs with
  | case1 => simp
  | case2 rest ih => simpa using ih
  | case3 c rest _ ih =>
    by_cases hc : c = '\r'
    · simpa [hc] using ih
    · simpa [hc, Ne.symm hc] using ih

theorem intercalate_append {α : Type} (separator : List α) {pieces more : List (List α)}
    (some_ : more ≠ []) : separator.intercalate (pieces ++ more) =
      (pieces.flatMap fun piece => piece ++ separator) ++ separator.intercalate more := by
  induction pieces with
  | nil => rfl
  | cons piece pieces ih =>
    have tail : pieces ++ more ≠ [] := by simp [some_]
    rw [List.cons_append, List.intercalate_cons_of_ne_nil tail, ih]
    simp

theorem mem_intercalate_of_mem {α : Type} {separator piece : List α} {pieces : List (List α)} {a : α}
    (mem : piece ∈ pieces) (inside : a ∈ piece) : a ∈ separator.intercalate pieces := by
  induction pieces with
  | nil => cases mem
  | cons first pieces ih =>
    by_cases last : pieces = []
    · obtain rfl : piece = first := by simpa [last] using mem
      simpa [last] using inside
    · rw [List.intercalate_cons_of_ne_nil last]
      rcases List.mem_cons.mp mem with rfl | mem
      · simp [inside]
      · simp [ih mem]

theorem notMem_of_mem_fileLines {line : String} (mem : line ∈ fileLines text) : '\r' ∉ line.toList := by
  rw [fileLines_eq] at mem
  obtain ⟨piece, memPiece, rfl⟩ := List.mem_map.mp mem
  intro inside
  have whole : ['\n'].intercalate ((newlines text.toList).splitOn '\n') = newlines text.toList :=
    List.intercalate_splitOn '\n'
  refine notMem_newlines text.toList ?_
  rw [← whole]
  exact mem_intercalate_of_mem memPiece (by simpa using inside)

theorem reread_of_notMem {line : String} (h : '\r' ∉ line.toList) :
    reread line = (linesOf (line.toList ++ ['\n'])).map String.ofList := by
  have free : '\r' ∉ line.toList ++ ['\n'] := by simp [h]
  rw [reread, splitLines_eq, readNewlines_eq, String.toList_ofList, String.toList_append]
  exact congrArg (fun cs => (linesOf cs).map String.ofList) (newlines_of_notMem free)

theorem linesOf_ended_append {tail : List Char} (free : ∀ line ∈ front, '\r' ∉ line.toList) :
    (linesOf (ended front ++ tail)).map String.ofList =
      front.flatMap reread ++ (linesOf tail).map String.ofList := by
  induction front with
  | nil => rfl
  | cons line front ih =>
    obtain ⟨here, there⟩ := List.forall_mem_cons.mp free
    rw [ended_cons, List.append_assoc, List.cons_append, linesOf_append, List.map_append, ih there,
      List.flatMap_cons, reread_of_notMem here, List.append_assoc]

/-- The lines of a file before some of its last ones are read one by one. -/
theorem splitLines_of_fileLines (h : fileLines text = front ++ rest) (some_ : rest ≠ []) :
    splitLines (readNewlines text) = front.flatMap reread ++
      (linesOf (['\n'].intercalate (rest.map String.toList))).map String.ofList := by
  have pieces : (newlines text.toList).splitOn '\n' =
      front.map String.toList ++ rest.map String.toList := by
    have chars := congrArg (List.map String.toList) h
    simpa [fileLines_eq, Function.comp_def] using chars
  have whole : newlines text.toList =
      ended front ++ ['\n'].intercalate (rest.map String.toList) := by
    have joined : ['\n'].intercalate ((newlines text.toList).splitOn '\n') = newlines text.toList :=
      List.intercalate_splitOn '\n'
    rw [pieces, intercalate_append _ (by simpa using some_)] at joined
    simpa [ended, List.flatMap_map] using joined.symm
  have free : ∀ line ∈ front, '\r' ∉ line.toList := by
    intro line mem
    have inFile : line ∈ fileLines text := by
      rw [h]
      exact List.mem_append_left _ mem
    exact notMem_of_mem_fileLines inFile
  rw [splitLines_eq, readNewlines_eq, String.toList_ofList, whole, linesOf_ended_append free]

end Lines

section Blanks

variable {p : Char → Bool} {cs pre post : List Char} {line label : String}

theorem trimChars_append (before : ∀ c ∈ pre, p c = true) (after : ∀ c ∈ post, p c = true) :
    trimChars p (pre ++ (cs ++ post)) = trimChars p cs := by
  have nothing : post.dropWhile p = [] := by
    have dropped : (post ++ []).dropWhile p = [] := List.dropWhile_append_of_pos after
    rwa [List.append_nil] at dropped
  unfold trimChars
  rw [List.dropWhile_append_of_pos before, List.dropWhile_append]
  split
  · rename_i none_
    rw [List.isEmpty_iff.mp none_, nothing]
  · rw [List.reverse_append, List.dropWhile_append_of_pos fun c mem => after c (List.mem_reverse.mp mem)]

/-- What is trimmed off stands at both ends. -/
theorem exists_trimmed (p : Char → Bool) (cs : List Char) : ∃ pre post,
    cs = pre ++ (trimChars p cs ++ post) ∧ (∀ c ∈ pre, p c = true) ∧ ∀ c ∈ post, p c = true := by
  have off : ∀ l : List Char, ∀ c ∈ l.takeWhile p, p c = true := fun l =>
    List.all_eq_true.mp List.all_takeWhile
  refine ⟨cs.takeWhile p, ((cs.dropWhile p).reverse.takeWhile p).reverse, ?_, off cs, ?_⟩
  · have back := congrArg List.reverse
      (List.takeWhile_append_dropWhile (p := p) (l := (cs.dropWhile p).reverse))
    rw [List.reverse_append, List.reverse_reverse] at back
    rw [trimChars, back, List.takeWhile_append_dropWhile]
  · intro c mem
    exact off _ c (List.mem_reverse.mp mem)

/-- A text that has nothing to trim off at either end is left as it is. -/
theorem trimChars_eq_self (first : ∀ c, cs.head? = some c → p c = false)
    (last : ∀ c, cs.getLast? = some c → p c = false) : trimChars p cs = cs := by
  have keep : ∀ l : List Char, (∀ c, l.head? = some c → p c = false) → l.dropWhile p = l := by
    intro l first
    cases l with
    | nil => rfl
    | cons c l => exact List.dropWhile_cons_of_neg (by simp [first c rfl])
  have back : cs.reverse.dropWhile p = cs.reverse := keep _ fun c found => last c (by simpa using found)
  rw [trimChars, keep cs first, back, List.reverse_reverse]

/-- A text that is trimmed has nothing to trim off at either end. -/
theorem ends_of_trimmed (trimmed : trimChars p cs = cs) :
    (∀ c, cs.head? = some c → p c = false) ∧ ∀ c, cs.getLast? = some c → p c = false := by
  have start : ∀ l : List Char, ∀ c, (l.dropWhile p).head? = some c → p c = false := by
    intro l c found
    simpa [found] using List.head?_dropWhile_not p l
  have whole : cs.dropWhile p = cs := by
    have short := (List.dropWhile_sublist p (l := (cs.dropWhile p).reverse)).length_le
    have lengths := congrArg List.length trimmed
    rw [trimChars, List.length_reverse] at lengths
    rw [List.length_reverse] at short
    exact (List.dropWhile_sublist p).eq_of_length_le (by omega)
  rw [trimChars, whole] at trimmed
  refine ⟨fun c found => start cs c (by rwa [whole]), fun c found => start cs.reverse c ?_⟩
  rw [← List.getLast?_reverse, trimmed]
  exact found

/-- The characters of the lines are those of the text. -/
theorem mem_of_mem_linesOf {l : List Char} {c : Char} (mem : l ∈ linesOf cs) (inside : c ∈ l) :
    c ∈ cs := by
  fun_induction linesOf cs generalizing l with
  | case1 => cases mem
  | case2 rest ih =>
    rcases List.mem_cons.mp mem with rfl | mem
    · cases inside
    · simp [ih mem inside]
  | case3 d rest _ _ ih =>
    rcases List.mem_cons.mp mem with rfl | mem
    · cases inside
    · exact List.mem_cons_of_mem _ (ih mem inside)
  | case4 d rest _ _ ih =>
    cases lines : linesOf rest with
    | nil =>
      simp only [lines, consFirst, List.mem_singleton] at mem
      simp_all
    | cons first more =>
      simp only [lines, consFirst, List.mem_cons] at mem ih
      rcases mem with rfl | mem
      · rcases List.mem_cons.mp inside with rfl | inside
        · exact List.mem_cons_self
        · exact List.mem_cons_of_mem _ (ih (.inl rfl) inside)
      · exact List.mem_cons_of_mem _ (ih (.inr mem) inside)

theorem blank_newline : ∀ c ∈ ['\n'], isBlank c = true := List.forall_mem_singleton.mpr rfl

theorem isBlankLine_of_mem_linesOf (blank : ∀ c ∈ cs, isBlank c = true)
    (mem : line ∈ (linesOf cs).map String.ofList) : isBlankLine line = true := by
  obtain ⟨l, memL, rfl⟩ := List.mem_map.mp mem
  rw [isBlankLine, chars_eq, String.toList_ofList, List.all_eq_true]
  exact fun c inside => blank c (mem_of_mem_linesOf memL inside)

/-- Text in front of a first line makes lines of its own and goes on in that line. -/
theorem linesOf_front {first : List Char} {others : List (List Char)} (free : '\r' ∉ pre)
    (h : linesOf cs = first :: others) :
    ∃ above lead, linesOf (pre ++ cs) = above ++ (lead ++ first) :: others ∧
      ∀ c ∈ above.flatten ++ lead, c ∈ pre := by
  induction pre with
  | nil => exact ⟨[], [], h, by simp⟩
  | cons d pre ih =>
    have hd : d ≠ '\r' := fun e => free (by simp [e])
    obtain ⟨above, lead, eq, inPre⟩ := ih (List.not_mem_of_not_mem_cons free)
    have later : ∀ c ∈ above.flatten ++ lead, c ∈ d :: pre := fun c mem =>
      List.mem_cons_of_mem _ (inPre c mem)
    have step := linesOf.eq_3 d (pre ++ cs) fun _ e _ => hd e
    rw [List.cons_append, step, eq]
    split
    · exact ⟨[] :: above, lead, rfl, by simpa using later⟩
    · cases above with
      | nil => exact ⟨[], d :: lead, rfl, by simpa using later⟩
      | cons top above => exact ⟨(d :: top) :: above, lead, rfl, by simpa using later⟩

/-- Characters of one line stay in one line, whatever follows. -/
theorem linesOf_single_append (some_ : cs ≠ []) (single : ∀ c ∈ cs, isLineBoundary c = false)
    (tail : List Char) :
    linesOf (cs ++ tail) = (cs ++ (linesOf tail).headD []) :: (linesOf tail).tail := by
  induction cs with
  | nil => exact absurd rfl some_
  | cons c cs ih =>
    obtain ⟨here, there⟩ := List.forall_mem_cons.mp single
    rw [List.cons_append, linesOf_cons here]
    by_cases last : cs = []
    · rw [last, List.nil_append]
      cases linesOf tail <;> rfl
    · rw [ih last there]
      rfl

/-- White space around a text changes nothing of what it says. -/
theorem strip_padded (before : ∀ c ∈ pre, isBlank c = true) (after : ∀ c ∈ post, isBlank c = true) :
    strip (.ofList (pre ++ (label.toList ++ post))) = strip label := by
  rw [strip_eq, String.toList_ofList, trimChars_append before after, strip_eq]

/-- A line that says one thing has white space alone around it. -/
theorem exists_padding (isSaid : strip line = label) : ∃ pre post,
    line.toList = pre ++ (label.toList ++ post) ∧ (∀ c ∈ pre, isBlank c = true) ∧
      (∀ c ∈ post, isBlank c = true) ∧ strip label = label := by
  obtain ⟨pre, post, eq, before, after⟩ := exists_trimmed isBlank line.toList
  have core : trimChars isBlank line.toList = label.toList := by
    rw [← isSaid, strip_eq, String.toList_ofList]
  rw [core] at eq
  refine ⟨pre, post, eq, before, after, ?_⟩
  rw [← strip_padded before after, ← eq, String.ofList_toList, isSaid]

/-- Of the lines that a line is read as one says what the line says, and the others are blank. -/
theorem linesOf_label (some_ : label ≠ "") (single : isSingleLine label = true)
    (free : '\r' ∉ line.toList) (isSaid : strip line = label) {tail : List Char}
    (blank : ∀ c ∈ tail, isBlank c = true) : ∃ above said below,
      (linesOf (line.toList ++ tail)).map String.ofList = above ++ said :: below ∧
      strip said = label ∧ ∀ x ∈ above ++ below, isBlankLine x = true := by
  obtain ⟨pre, post, eq, blankPre, blankPost, trimmed⟩ := exists_padding isSaid
  have blankRest : ∀ c ∈ post ++ tail, isBlank c = true := by
    intro c mem
    exact (List.mem_append.mp mem).elim (blankPost c) (blank c)
  have chars : label.toList ≠ [] := fun none_ => some_ (String.toList_eq_nil_iff.mp none_)
  have freePre : '\r' ∉ pre := fun mem => free (by
    rw [eq]
    exact List.mem_append_left _ mem)
  -- what the line says stays in one line: its last characters end there with the first of the rest, and the
  -- white space in front makes lines of its own
  have inLine := linesOf_single_append chars (forall_not_boundary single) (post ++ tail)
  obtain ⟨above, lead, lines, inPre⟩ := linesOf_front freePre inLine
  refine ⟨above.map String.ofList,
    .ofList (lead ++ (label.toList ++ (linesOf (post ++ tail)).headD [])),
    (linesOf (post ++ tail)).tail.map String.ofList, ?_, ?_, ?_⟩
  · rw [eq]
    simp only [List.append_assoc] at lines ⊢
    rw [lines]
    simp
  · have last : ∀ c ∈ (linesOf (post ++ tail)).headD [], isBlank c = true := by
      cases lines : linesOf (post ++ tail) with
      | nil => simp
      | cons first more =>
        exact fun c mem => blankRest c (mem_of_mem_linesOf (by rw [lines]; exact List.mem_cons_self) mem)
    rw [strip_padded (fun c mem => blankPre c (inPre c (List.mem_append_right _ mem))) last, trimmed]
  · intro x mem
    rcases List.mem_append.mp mem with mem | mem
    · obtain ⟨l, memL, rfl⟩ := List.mem_map.mp mem
      rw [isBlankLine, chars_eq, String.toList_ofList, List.all_eq_true]
      exact fun c inside => blankPre c
        (inPre c (List.mem_append_left _ (List.mem_flatten.mpr ⟨l, memL, inside⟩)))
    · obtain ⟨l, memL, rfl⟩ := List.mem_map.mp mem
      exact isBlankLine_of_mem_linesOf blankRest (List.mem_map_of_mem (List.mem_of_mem_tail memL))

end Blanks

end Scaffold.Text
