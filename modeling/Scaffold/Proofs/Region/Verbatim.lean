import Scaffold.Proofs.Output.File
import Scaffold.Proofs.Region.Merge
import Scaffold.Proofs.Text.FileLines

/-!
What is left of the lines between the labels of a file. A file has its lines between line ends, a text in
memory has them between more boundaries; so a line by hand that holds one of those is taken apart, and its
parts are kept as lines. The others are kept as they are.
-/

namespace Scaffold.Region

variable {l : RegionLabels} {text open_ close : String} {before region after : List String}

/-- What is kept of the lines of a region: the lines that they are read as, up to the first with the end
label, without the blank ones. -/
def keptOf (l : RegionLabels) (region : List String) : List String :=
  ((region.flatMap Text.reread).takeWhile fun line => !holdsLabel l.codeEnd line).filter
    fun line => !Text.isBlankLine line

theorem filter_blank {lines : List String} (blank : ∀ x ∈ lines, Text.isBlankLine x = true) :
    (lines.filter fun line => !Text.isBlankLine line) = [] := by
  rw [List.filter_eq_nil_iff]
  intro x mem
  simp [blank x mem]

/-- No label stands on a blank line. -/
theorem not_holds_of_blank (proper : l.Proper) {label : Json} (mem : label ∈ l.all) {line : String}
    (blank : Text.isBlankLine line = true) : holdsLabel label line = false := by
  cases holds : holdsLabel label line with
  | false => rfl
  | true => simp [proper.not_blank_of_holds mem holds] at blank

/-- The line of a label in a file is read as a line with the label among blank ones. -/
theorem reread_label (proper : l.Proper) {label : Json} (mem : label ∈ l.all)
    (single : Text.isSingleLine label.text = true) {line : String} (free : '\r' ∉ line.toList)
    (holds : holdsLabel label line = true) {tail : List Char} (blank : ∀ c ∈ tail, Text.isBlank c = true) :
    ∃ above said below, (Text.linesOf (line.toList ++ tail)).map String.ofList = above ++ said :: below ∧
      holdsLabel label said = true ∧ ∀ x ∈ above ++ below, Text.isBlankLine x = true := by
  obtain ⟨s, rfl, _, some_⟩ := proper.texts label mem
  have isSaid : Text.strip line = s := by simpa [holdsLabel] using holds
  obtain ⟨above, said, below, lines, same, blankLines⟩ := Text.linesOf_label some_ single free isSaid blank
  exact ⟨above, said, below, lines, by simpa [holdsLabel] using same, blankLines⟩

/-- Whatever follows a line with a label, its lines begin with blank ones and the label. -/
theorem lines_from_label (proper : l.Proper) {label : Json} (mem : label ∈ l.all)
    (single : Text.isSingleLine label.text = true) {line : String} (free : '\r' ∉ line.toList)
    (holds : holdsLabel label line = true) (after : List String) : ∃ above said rest,
      (Text.linesOf (['\n'].intercalate ((line :: after).map String.toList))).map String.ofList =
        above ++ said :: rest ∧
      holdsLabel label said = true ∧ ∀ x ∈ above, Text.isBlankLine x = true := by
  have none_ : ∀ c ∈ ([] : List Char), Text.isBlank c = true := by simp
  cases after with
  | nil =>
    obtain ⟨above, said, below, lines, isSaid, blank⟩ := reread_label proper mem single free holds none_
    refine ⟨above, said, below, ?_, isSaid, fun x inAbove => blank x (List.mem_append_left _ inAbove)⟩
    simpa using lines
  | cons next after =>
    obtain ⟨above, said, below, lines, isSaid, blank⟩ :=
      reread_label proper mem single free holds Text.blank_newline
    refine ⟨above, said, below ++ (Text.linesOf
      (['\n'].intercalate ((next :: after).map String.toList))).map String.ofList, ?_, isSaid,
      fun x inAbove => blank x (List.mem_append_left _ inAbove)⟩
    rw [List.map_cons, List.intercalate_cons_of_ne_nil (by simp), List.append_assoc,
      List.singleton_append, Text.linesOf_append, List.map_append, lines]
    simp

/-- Between the labels, with blank lines on the inside of either, just what stands before an inner end label is
found, and blank lines. -/
theorem search_between_blank (proper : l.Proper) {above below inner above' rest : List String}
    {opened closed : String} (free : ∀ x ∈ above, holdsLabel l.codeBegin x = false)
    (opens : holdsLabel l.codeBegin opened = true) (closes : holdsLabel l.codeEnd closed = true)
    (blank : ∀ x ∈ below ++ above', Text.isBlankLine x = true) :
    ∃ found, search l.codeBegin l.codeEnd
        (above ++ opened :: (below ++ (inner ++ (above' ++ closed :: rest)))) = .found found ∧
      (found.filter fun line => !Text.isBlankLine line) =
        (inner.takeWhile fun line => !holdsLabel l.codeEnd line).filter fun line => !Text.isBlankLine line := by
  have freeBlank : ∀ x ∈ below ++ above', holdsLabel l.codeEnd x = false := fun x mem =>
    not_holds_of_blank proper (l.endOf_mem_all .code) (blank x mem)
  obtain ⟨freeBelow, freeAbove⟩ := List.forall_mem_append.mp freeBlank
  obtain ⟨blankBelow, blankAbove⟩ := List.forall_mem_append.mp blank
  rw [search_append_of_free free, search_cons opens]
  cases inside : splitAtLabel l.codeEnd inner with
  | none =>
    -- the end label is met on its own line only
    have freeInner := splitAtLabel_eq_none.mp inside
    have freeAll : ∀ x ∈ below ++ (inner ++ above'), holdsLabel l.codeEnd x = false :=
      List.forall_mem_append.mpr ⟨freeBelow, List.forall_mem_append.mpr ⟨freeInner, freeAbove⟩⟩
    have split := splitAtLabel_append freeAll closes rest
    simp only [List.append_assoc] at split
    rw [split]
    refine ⟨_, rfl, ?_⟩
    rw [List.filter_append, List.filter_append, filter_blank blankBelow, filter_blank blankAbove,
      takeWhile_free freeInner]
    simp
  | some parts =>
    -- an inner line is the end label, so that the search stops there
    obtain ⟨kept, others⟩ := parts
    obtain ⟨line, rfl, holds, freeKept⟩ := splitAtLabel_eq_some.mp inside
    have freeAll : ∀ x ∈ below ++ kept, holdsLabel l.codeEnd x = false :=
      List.forall_mem_append.mpr ⟨freeBelow, freeKept⟩
    have split := splitAtLabel_append freeAll holds (others ++ (above' ++ closed :: rest))
    simp only [List.append_assoc] at split
    rw [List.append_assoc, List.cons_append, split]
    refine ⟨_, rfl, ?_⟩
    rw [List.filter_append, filter_blank blankBelow, takeWhile_label freeKept holds]
    simp

/-- Of a region between its labels in a file just the kept lines are found, and blank ones. -/
theorem search_of_fileLines (proper : l.Proper)
    (singleBegin : Text.isSingleLine l.codeBegin.text = true)
    (singleEnd : Text.isSingleLine l.codeEnd.text = true)
    (divided : Text.fileLines text = before ++ open_ :: (region ++ close :: after))
    (opens : holdsLabel l.codeBegin open_ = true) (closes : holdsLabel l.codeEnd close = true)
    (alone : ∀ x ∈ before.flatMap Text.reread, holdsLabel l.codeBegin x = false) :
    ∃ inner, search l.codeBegin l.codeEnd (Text.splitLines (Text.readNewlines text)) = .found inner ∧
      (inner.filter fun line => !Text.isBlankLine line) = keptOf l region := by
  have beginMem : l.codeBegin ∈ l.all := l.beginOf_mem_all .code
  have free : ∀ line ∈ Text.fileLines text, '\r' ∉ line.toList := fun _ => Text.notMem_of_mem_fileLines
  have freeOpen : '\r' ∉ open_.toList := free open_ (by simp [divided])
  have freeClose : '\r' ∉ close.toList := free close (by simp [divided])
  -- The label lines, as the lines that they are read as.
  obtain ⟨above, opened, below, openLines, holdsBegin, blankOpen⟩ :=
    reread_label proper beginMem singleBegin freeOpen opens Text.blank_newline
  obtain ⟨above', closed, rest, closeLines, holdsEnd, blankClose⟩ :=
    lines_from_label proper (l.endOf_mem_all .code) singleEnd freeClose closes after
  rw [← Text.reread_of_notMem freeOpen] at openLines
  have all : Text.splitLines (Text.readNewlines text) = (before.flatMap Text.reread ++ above) ++
      opened :: (below ++ (region.flatMap Text.reread ++ (above' ++ closed :: rest))) := by
    have front : Text.fileLines text = (before ++ open_ :: region) ++ close :: after := by
      simp [divided]
    rw [Text.splitLines_of_fileLines front (by simp), closeLines]
    simp [openLines]
  obtain ⟨blankAbove, blankBelow⟩ := List.forall_mem_append.mp blankOpen
  have freeAbove : ∀ x ∈ above, holdsLabel l.codeBegin x = false := fun x mem =>
    not_holds_of_blank proper beginMem (blankAbove x mem)
  rw [all]
  exact search_between_blank proper (List.forall_mem_append.mpr ⟨alone, freeAbove⟩) holdsBegin holdsEnd
    (List.forall_mem_append.mpr ⟨blankBelow, blankClose⟩)

/-- Lines without inner boundaries are kept as they are. -/
theorem keptOf_of_single (proper : l.Proper) (free : ∀ line ∈ region, '\r' ∉ line.toList)
    (inside : ∀ line ∈ region, holdsLabel l.codeEnd line = false)
    (single : ∀ line ∈ region, Text.isBlankLine line = false → Text.isSingleLine line = true) :
    keptOf l region = region.filter fun line => !Text.isBlankLine line := by
  have parts : ∀ line ∈ region, (∀ x ∈ Text.reread line, holdsLabel l.codeEnd x = false) ∧
      (Text.reread line).filter (fun x => !Text.isBlankLine x) =
        [line].filter fun x => !Text.isBlankLine x := by
    intro line mem
    cases blank : Text.isBlankLine line with
    | false =>
      rw [Text.reread_of_single (single line mem blank)]
      exact ⟨by simpa using inside line mem, rfl⟩
    | true =>
      have blankChars : ∀ c ∈ line.toList ++ ['\n'], Text.isBlank c = true :=
        List.forall_mem_append.mpr
          ⟨List.all_eq_true.mp (by rwa [Text.isBlankLine, Text.chars_eq] at blank), Text.blank_newline⟩
      have blankParts : ∀ x ∈ Text.reread line, Text.isBlankLine x = true := by
        rw [Text.reread_of_notMem (free line mem)]
        exact fun x => Text.isBlankLine_of_mem_linesOf blankChars
      refine ⟨fun x memX => ?_, ?_⟩
      · exact not_holds_of_blank proper (l.endOf_mem_all .code) (blankParts x memX)
      · rw [filter_blank blankParts]
        simp [blank]
  have freeParts : ∀ x ∈ region.flatMap Text.reread, holdsLabel l.codeEnd x = false := by
    intro x mem
    obtain ⟨line, memLine, memX⟩ := List.mem_flatMap.mp mem
    exact (parts line memLine).1 x memX
  rw [keptOf, takeWhile_free freeParts]
  clear freeParts free inside single
  induction region with
  | nil => rfl
  | cons line region ih =>
    obtain ⟨here, there⟩ := List.forall_mem_cons.mp parts
    rw [List.flatMap_cons, List.filter_append, here.2, ih there, ← List.filter_append]
    rfl

/-- Every line of a region is kept just when none but the blank ones holds a boundary. -/
theorem sublist_keptOf_iff (proper : l.Proper) (free : ∀ line ∈ region, '\r' ∉ line.toList)
    (inside : ∀ line ∈ region, holdsLabel l.codeEnd line = false) :
    (region.filter fun line => !Text.isBlankLine line).Sublist (keptOf l region) ↔
      ∀ line ∈ region, Text.isBlankLine line = false → Text.isSingleLine line = true := by
  constructor
  · intro kept line mem text
    have memKept := kept.subset (List.mem_filter.mpr ⟨mem, by simp [text]⟩)
    have memParts := (List.takeWhile_sublist _).subset (List.mem_filter.mp memKept).1
    obtain ⟨whole, _, part⟩ := List.mem_flatMap.mp memParts
    exact Text.isSingleLine_of_mem part
  · intro single
    simp [keptOf_of_single proper free inside single]

/-- The region of code stands before the last line of an artifact. -/
theorem exists_spliced (l : RegionLabels) (a : Artifact) {prior : Regions} {code : Region}
    (h : prior.code = some code) : ∃ above, spliced l a prior =
      above ++ (code.render ++ a.source.getLast?.toList) := by
  have last : ∃ above, spliced l a prior = above ++ beforeLast code.render a.source := by
    unfold spliced
    rw [h]
    exact ⟨_, rfl⟩
  obtain ⟨above, eq⟩ := last
  rw [eq, beforeLast_eq]
  exact ⟨above ++ a.source.dropLast, by simp⟩

/-- A merge over a file with a region of code puts the kept lines of the region between the labels. They are
all its lines but the blank ones, each as it was, just if no line holds a boundary that a file does not
know. -/
theorem merge_keeps_region {c : Config} {t : Tree} {a : Artifact} {project p : Path}
    (proper : c.labels.Proper) (singleBegin : Text.isSingleLine c.labels.codeBegin.text = true)
    (singleEnd : Text.isSingleLine c.labels.codeEnd.text = true) (regions : a.hasRegions = true)
    (prior : priorPath? c t (a.path project) = .ok (some p))
    (content : t.read p = .ok (Text.encode text))
    (divided : Text.fileLines text = before ++ open_ :: (region ++ close :: after))
    (opens : holdsLabel c.labels.codeBegin open_ = true)
    (closes : holdsLabel c.labels.codeEnd close = true)
    (alone : ∀ x ∈ before.flatMap Text.reread, holdsLabel c.labels.codeBegin x = false)
    (inside : ∀ x ∈ region, holdsLabel c.labels.codeEnd x = false) :
    (∃ above m, (merge c t a project).result = .ok m ∧
      m.source = above ++ c.labels.codeBegin ::
        ((keptOf c.labels region).map .str ++ c.labels.codeEnd :: a.source.getLast?.toList)) ∧
    ((region.filter fun line => !Text.isBlankLine line).Sublist (keptOf c.labels region) ↔
      ∀ line ∈ region, Text.isBlankLine line = false → Text.isSingleLine line = true) ∧
    ((∀ line ∈ region, Text.isBlankLine line = false → Text.isSingleLine line = true) →
      keptOf c.labels region = region.filter fun line => !Text.isBlankLine line) := by
  have free : ∀ line ∈ region, '\r' ∉ line.toList := by
    intro line mem
    have inFile : line ∈ Text.fileLines text := by
      rw [divided]
      exact List.mem_append_right before (by simp [mem])
    exact Text.notMem_of_mem_fileLines inFile
  obtain ⟨inner, found, kept⟩ :=
    search_of_fileLines proper singleBegin singleEnd divided opens closes alone
  refine ⟨?_, sublist_keptOf_iff proper free inside, keptOf_of_single proper free inside⟩
  have merged := merge_of_prior regions prior (readLines_of_text content)
  have code : (parse c.labels (Text.splitLines (Text.readNewlines text))).code =
      some ⟨c.labels.codeBegin, c.labels.codeEnd, .code, keptOf c.labels region⟩ := by
    rw [← kept]
    have region := ofKind?_found (l := c.labels) .code found
    rw [← of_parse] at region
    exact region
  obtain ⟨above, source⟩ := exists_spliced c.labels a code
  refine ⟨above, _, merged, source.trans ?_⟩
  simp [render]

/-- A form feed divides a line of a region in two. -/
theorem merge_divides_form_feed :
    let a : Artifact :=
      { unit := .angularApp, item := .typeScriptModel, fullName := "A", subPath := "a.ts",
        extension := ".ts", source := ["class A (", ")"].map .str }
    let text := "class A (\n//@CustomCodeBegin\n  a\x0cb();\n  c();\n//@CustomCodeEnd\n)\n"
    let t : Tree := ⟨[], [(["a.ts"], .file (Text.encode text))]⟩
    Text.fileLines text = ["class A (", "//@CustomCodeBegin", "  a\x0cb();", "  c();",
      "//@CustomCodeEnd", ")", ""] ∧
    ∃ above m, (merge .default t a (Path.ofText "")).result = .ok m ∧
      m.source = above ++ ["//@CustomCodeBegin", "  a", "b();", "  c();", "//@CustomCodeEnd", ")"].map .str ∧
      ¬ ["  a\x0cb();", "  c();"].Sublist ["  a", "b();", "  c();"] := by
  intro a text t
  have found : t.read (a.path (Path.ofText "")) = .ok (Text.encode text) :=
    eq_ok_of_toOption (by decide +kernel)
  have divided : Text.fileLines text = ["class A ("] ++ "//@CustomCodeBegin" ::
      (["  a\x0cb();", "  c();"] ++ "//@CustomCodeEnd" :: [")", ""]) := by decide +kernel
  have kept : keptOf Config.default.labels ["  a\x0cb();", "  c();"] = ["  a", "b();", "  c();"] := by
    decide +kernel
  obtain ⟨⟨above, m, merged, source⟩, whole, -⟩ := merge_keeps_region (c := .default) (a := a)
    Config.default_labels_proper (by decide +kernel) (by decide +kernel) rfl (priorPath?_of_read found)
    found divided (by decide +kernel) (by decide +kernel) (by decide +kernel) (by decide +kernel)
  have nonblank : (["  a\x0cb();", "  c();"].filter fun line => !Text.isBlankLine line) =
      ["  a\x0cb();", "  c();"] := by decide +kernel
  rw [kept] at source whole
  rw [nonblank] at whole
  refine ⟨divided, above, m, merged, source, fun sublist => ?_⟩
  have blank : Text.isBlankLine "  a\x0cb();" = false := by decide +kernel
  have divided : Text.isSingleLine "  a\x0cb();" = false := by decide +kernel
  have single := whole.mp sublist "  a\x0cb();" List.mem_cons_self blank
  rw [divided] at single
  exact Bool.false_ne_true single

end Scaffold.Region
