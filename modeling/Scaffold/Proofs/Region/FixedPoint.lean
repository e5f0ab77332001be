import Scaffold.Proofs.Output.File
import Scaffold.Proofs.Region.Merge

/-!
Merging twice. The second merge finds the regions that the first one wrote, and writes the same file,
unless a label of the custom code was among the custom imports.
-/

namespace Scaffold

namespace Region

variable {l : RegionLabels} {a : Artifact} {body custom code : List String}

/-- Below a block of custom imports without its begin label the custom code is found. -/
theorem search_code_of_absent (proper : l.Proper) {before kept between : List String}
    (freeBefore : ∀ x ∈ before, isLabelLine l x = false)
    (freeBetween : ∀ x ∈ between, isLabelLine l x = false)
    (absent : ∀ x ∈ kept, holdsLabel (l.beginOf .code) x = false)
    (inside : ∀ x ∈ code, holdsLabel (l.endOf .code) x = false) (after : List String) :
    search (l.beginOf .code) (l.endOf .code)
      (before ++ (block l .imports kept ++ (between ++ (block l .code code ++ after)))) = .found code := by
  have free : ∀ x ∈ before ++ (block l .imports kept ++ between),
      holdsLabel (l.beginOf .code) x = false := by
    intro x hx
    simp only [List.mem_append] at hx
    rcases hx with hx | hx | hx
    · exact not_holds_of_not_isLabelLine (freeBefore x hx) (l.beginOf_mem_all .code)
    · exact not_holds_block proper (l.beginOf_mem_all .code)
        (proper.begin_ne_begin (by decide)) (proper.begin_ne_end .code .imports) absent x hx
    · exact not_holds_of_not_isLabelLine (freeBetween x hx) (l.beginOf_mem_all .code)
  simpa only [List.append_assoc] using search_block proper _ free inside after

/-- From a begin label of the custom code among the custom imports on, no end label stands above that of the
custom code if there is none among the imports. -/
theorem not_end_before_code (proper : l.Proper) {rest between : List String}
    (freeBetween : ∀ x ∈ between, isLabelLine l x = false)
    (unclosed : ∀ x ∈ rest, holdsLabel (l.endOf .code) x = false)
    (inside : ∀ x ∈ code, holdsLabel (l.endOf .code) x = false) :
    ∀ x ∈ rest ++ (l.endOf .imports).text :: (between ++ (l.beginOf .code).text :: code),
      holdsLabel (l.endOf .code) x = false := by
  intro x hx
  simp only [List.mem_append, List.mem_cons] at hx
  rcases hx with hx | rfl | hx | rfl | hx
  · exact unclosed x hx
  · exact proper.not_endOf_endOf (by decide)
  · exact not_holds_of_not_isLabelLine (freeBetween x hx) (l.endOf_mem_all .code)
  · exact proper.not_endOf_beginOf .code .code
  · exact inside x hx

/-- Below a block of custom imports the custom code is found, unless its begin label is among these. Then
the lines from there on are found: if no end label is among them, down to that of the custom code. -/
theorem search_code_below_imports (proper : l.Proper) {before between : List String}
    (freeBefore : ∀ x ∈ before, isLabelLine l x = false)
    (freeBetween : ∀ x ∈ between, isLabelLine l x = false) (kept : List String)
    (inside : ∀ x ∈ code, holdsLabel (l.endOf .code) x = false) (after : List String) :
    search (l.beginOf .code) (l.endOf .code)
        (before ++ (block l .imports kept ++ (between ++ (block l .code code ++ after)))) =
      match splitAtLabel (l.beginOf .code) kept with
      | none => .found code
      | some (_, rest) =>
        match splitAtLabel (l.endOf .code) rest with
        | none => .found (rest ++ (l.endOf .imports).text :: (between ++ (l.beginOf .code).text :: code))
        | some (inner, _) => .found inner := by
  cases split : splitAtLabel (l.beginOf .code) kept with
  | none =>
    exact search_code_of_absent proper freeBefore freeBetween (splitAtLabel_eq_none.mp split) inside after
  | some parts =>
    obtain ⟨above, rest⟩ := parts
    obtain ⟨line, rfl, holds, free⟩ := splitAtLabel_eq_some.mp split
    -- the page, opened at the first line that holds the begin label
    have shape : before ++ (block l .imports (above ++ line :: rest) ++
        (between ++ (block l .code code ++ after))) =
        (before ++ (l.beginOf .imports).text :: above) ++ line :: (rest ++ ((l.endOf .imports).text ::
          (between ++ (l.beginOf .code).text :: code) ++ (l.endOf .code).text :: after)) := by
      simp [block]
    have freeAbove : ∀ x ∈ before ++ (l.beginOf .imports).text :: above,
        holdsLabel (l.beginOf .code) x = false := by
      intro x hx
      simp only [List.mem_append, List.mem_cons] at hx
      rcases hx with hx | rfl | hx
      · exact not_holds_of_not_isLabelLine (freeBefore x hx) (l.beginOf_mem_all .code)
      · exact proper.not_beginOf_beginOf (by decide)
      · exact free x hx
    rw [shape, search_append_of_free freeAbove]
    cases close : splitAtLabel (l.endOf .code) rest with
    | some parts =>
      obtain ⟨closing, rfl, closes, open_⟩ := splitAtLabel_eq_some.mp close
      rw [List.append_assoc, List.cons_append, search_closed holds open_ closes]
      simp only [close]
    | none =>
      have tail := not_end_before_code proper freeBetween (splitAtLabel_eq_none.mp close) inside
      rw [← List.append_assoc, search_closed holds tail (proper.holds_text (l.endOf_mem_all .code))]
      simp only [close]

/-- The custom code is read as it was written, unless its labels are among the custom imports with other
lines between them or without an end. -/
theorem linesOf_code_below_imports (proper : l.Proper) {before kept between : List String}
    (freeBefore : ∀ x ∈ before, isLabelLine l x = false)
    (freeBetween : ∀ x ∈ between, isLabelLine l x = false)
    (textKept : ∀ x ∈ kept, Text.isBlankLine x = false)
    (textCode : ∀ x ∈ code, Text.isBlankLine x = false)
    (inside : ∀ x ∈ code, holdsLabel (l.endOf .code) x = false) (after : List String) :
    (parse l (before ++ (block l .imports kept ++ (between ++ (block l .code code ++ after))))).linesOf
        .code = code ↔
      search (l.beginOf .code) (l.endOf .code) kept = .absent ∨
        search (l.beginOf .code) (l.endOf .code) kept = .found code := by
  have found := search_code_below_imports proper freeBefore freeBetween kept inside after
  cases split : splitAtLabel (l.beginOf .code) kept with
  | none =>
    have absent : search (l.beginOf .code) (l.endOf .code) kept = .absent :=
      search_absent_iff.mpr (splitAtLabel_eq_none.mp split)
    rw [split] at found
    rw [linesOf_parse_found found, filter_nonblank textCode]
    simp [absent]
  | some parts =>
    obtain ⟨above, rest⟩ := parts
    obtain ⟨line, rfl, _, _⟩ := splitAtLabel_eq_some.mp split
    rw [search_of_split split]
    rw [split] at found
    cases close : splitAtLabel (l.endOf .code) rest with
    | some parts =>
      obtain ⟨closing, rfl, _, _⟩ := splitAtLabel_eq_some.mp close
      simp only [close] at found
      have text : ∀ x ∈ parts.1, Text.isBlankLine x = false := fun x hx => textKept x (by simp [hx])
      rw [linesOf_parse_found found, filter_nonblank text]
      simp
    | none =>
      simp only [close] at found
      rw [linesOf_parse_found found]
      simp only [reduceCtorEq, or_self, iff_false]
      -- the begin label is read as a custom line, so there are more of them than before
      intro same
      have label := proper.not_blank_of_holds (l.beginOf_mem_all .code)
        (proper.holds_text (l.beginOf_mem_all .code))
      have length := congrArg List.length same
      simp only [List.filter_append, List.filter_cons, filter_nonblank textCode, label,
        List.length_append] at length
      split at length <;> simp at length <;> omega

theorem flatMap_reread_block {kind : RegionKind} {lines : List String}
    (labels : ∀ label ∈ l.all, Text.isSingleLine label.text = true)
    (single : ∀ x ∈ lines, Text.isSingleLine x = true) :
    (block l kind lines).flatMap Text.reread = block l kind lines := by
  apply Text.flatMap_reread_of_single
  intro x hx
  simp only [block, List.mem_cons, List.mem_append, List.not_mem_nil, or_false] at hx
  rcases hx with rfl | hx | rfl
  · exact labels _ (l.beginOf_mem_all kind)
  · exact single x hx
  · exact labels _ (l.endOf_mem_all kind)

/-- A page with a place for custom imports as it is read again. -/
theorem flatMap_reread_page (labels : ∀ label ∈ l.all, Text.isSingleLine label.text = true)
    (hasCustom : a.hasCustomImports = true) (singleCustom : ∀ x ∈ custom, Text.isSingleLine x = true)
    (singleCode : ∀ x ∈ code, Text.isSingleLine x = true) :
    (page l a body custom code).flatMap Text.reread =
      (distinctLines a.imports).flatMap Text.reread ++
        (block l .imports (notGenerated a.imports custom) ++ (body.dropLast.flatMap Text.reread ++
          (block l .code code ++ body.getLast?.toList.flatMap Text.reread))) := by
  have singleKept : ∀ x ∈ notGenerated a.imports custom, Text.isSingleLine x = true := fun x hx =>
    singleCustom x (List.mem_filter.mp hx).1
  simp only [page, hasCustom, if_true, List.flatMap_append, List.append_assoc,
    flatMap_reread_block labels singleKept, flatMap_reread_block labels singleCode]

theorem notGenerated_page : page l a body (notGenerated a.imports custom) code =
    page l a body custom code := by
  simp only [page, notGenerated_idem]

/-- Pages with different custom code are different texts. -/
theorem page_inj {mark code' : List String} (single : ∀ x ∈ code, Text.isSingleLine x = true)
    (single' : ∀ x ∈ code', Text.isSingleLine x = true)
    (same : Text.joinLines (mark ++ page l a body custom code) =
      Text.joinLines (mark ++ page l a body custom code')) : code = code' := by
  have some_ : ∀ code, mark ++ page l a body custom code ≠ [] := by
    intro code
    simp [page_eq, block]
  have ended := congrArg String.toList same
  rw [Text.toList_joinLines (some_ code), Text.toList_joinLines (some_ code')] at ended
  simp only [page_eq, block, Text.ended_append, Text.ended_cons, List.cons_append, List.append_assoc,
    List.append_cancel_left_eq, List.cons.injEq, true_and] at ended
  exact Text.ended_inj single single' (List.append_cancel_right ended)

/-- Above the custom imports of a page, and between these and its custom code, no label stands if there is
none in the body and the imports. -/
theorem not_isLabelLine_page {c : Config} (legible : c.Legible) {mark : List String}
    (marked : Output.markLines c = mark.map .str)
    (free : ∀ line ∈ body ++ a.imports, ∀ x ∈ Text.reread line, isLabelLine c.labels x = false) :
    (∀ x ∈ mark.flatMap Text.reread ++ (distinctLines a.imports).flatMap Text.reread,
      isLabelLine c.labels x = false) ∧
    ∀ x ∈ body.dropLast.flatMap Text.reread, isLabelLine c.labels x = false := by
  constructor <;> intro x hx
  · rcases List.mem_append.mp hx with hx | hx
    · exact Output.not_isLabelLine_mark legible marked x hx
    · obtain ⟨line, mem, hx⟩ := List.mem_flatMap.mp hx
      exact free line (List.mem_append_right _ (mem_distinctLines.mp mem)) x hx
  · obtain ⟨line, mem, hx⟩ := List.mem_flatMap.mp hx
    exact free line (List.mem_append_left _ ((List.dropLast_sublist body).subset mem)) x hx

/-- What is read of a page that was merged from lines and written below a mark. -/
theorem regions_of_page {c : Config} (legible : c.Legible) (hasCustom : a.hasCustomImports = true)
    (free : ∀ line ∈ body ++ a.imports, ∀ x ∈ Text.reread line, isLabelLine c.labels x = false)
    {lines mark : List String} (single : ∀ x ∈ lines, Text.isSingleLine x = true)
    (marked : Output.markLines c = mark.map .str) {u : Tree} {p : Path} {written : ByteArray}
    (encoded : Text.encode? (Text.joinLines (mark ++ page c.labels a body
      ((parse c.labels lines).linesOf .imports) ((parse c.labels lines).linesOf .code))) = .ok written)
    (found : u.read p = .ok written) :
    ∃ again, readLines u p = .ok again ∧
      (parse c.labels again).linesOf .imports =
        notGenerated a.imports ((parse c.labels lines).linesOf .imports) ∧
      ((parse c.labels again).linesOf .code = (parse c.labels lines).linesOf .code ↔
        let kept := notGenerated a.imports ((parse c.labels lines).linesOf .imports)
        search c.labels.codeBegin c.labels.codeEnd kept = .absent ∨
          search c.labels.codeBegin c.labels.codeEnd kept =
            .found ((parse c.labels lines).linesOf .code)) := by
  have singleOf : ∀ kind, ∀ x ∈ (parse c.labels lines).linesOf kind, Text.isSingleLine x = true :=
    fun kind x hx => single x (mem_linesOf_parse hx).1
  have textOf : ∀ kind, ∀ x ∈ (parse c.labels lines).linesOf kind, Text.isBlankLine x = false :=
    fun kind x hx => (mem_linesOf_parse hx).2.1
  have insideOf : ∀ kind, ∀ x ∈ (parse c.labels lines).linesOf kind,
      holdsLabel (c.labels.endOf kind) x = false := fun kind x hx => (mem_linesOf_parse hx).2.2
  have textKept : ∀ x ∈ notGenerated a.imports ((parse c.labels lines).linesOf .imports),
      Text.isBlankLine x = false := fun x hx => textOf .imports x (List.mem_filter.mp hx).1
  obtain ⟨freeBefore, freeBetween⟩ := not_isLabelLine_page legible marked free
  refine ⟨_, readLines_written (by simp [page, block]) encoded found, ?_, ?_⟩
  · have inside : ∀ x ∈ notGenerated a.imports ((parse c.labels lines).linesOf .imports),
        holdsLabel (c.labels.endOf .imports) x = false :=
      fun x hx => insideOf .imports x (List.mem_filter.mp hx).1
    have importsFound := search_block legible.proper .imports
      (fun x hx => not_holds_of_not_isLabelLine (freeBefore x hx) (c.labels.beginOf_mem_all .imports))
      inside
      (body.dropLast.flatMap Text.reread ++ (block c.labels .code
        ((parse c.labels lines).linesOf .code) ++ body.getLast?.toList.flatMap Text.reread))
    rw [List.flatMap_append, flatMap_reread_page legible.single hasCustom (singleOf .imports)
      (singleOf .code), ← List.append_assoc, linesOf_parse_found importsFound,
      filter_nonblank textKept]
  · rw [List.flatMap_append, flatMap_reread_page legible.single hasCustom (singleOf .imports)
      (singleOf .code), ← List.append_assoc]
    exact linesOf_code_below_imports legible.proper freeBefore freeBetween textKept
      (textOf .code) (insideOf .code) (body.getLast?.toList.flatMap Text.reread)

/-- What is merged and written is merged and written again as the same bytes, unless the begin label of the
custom code is among the custom imports that are kept and does not open the same custom code there. -/
theorem remerge_same_iff {c : Config} (legible : c.Legible) (plain : c.formatter = none)
    (regions : a.hasRegions = true) (hasCustom : a.hasCustomImports = true)
    (source : a.source = body.map .str)
    (free : ∀ line ∈ body ++ a.imports, ∀ x ∈ Text.reread line, isLabelLine c.labels x = false)
    {t u : Tree} {project : Path} {lines : List String} {first : Artifact} {written : ByteArray}
    (prior : readLines t (a.path project) = .ok lines)
    (merged : (merge c t a project).result = .ok first) (bytes : Output.bytes c first = .ok written)
    (found : u.read (a.path project) = .ok written) :
    ∃ second, (merge c u a project).result = .ok second ∧
      (Output.bytes c second = .ok written ↔
        let kept := notGenerated a.imports ((parse c.labels lines).linesOf .imports)
        search c.labels.codeBegin c.labels.codeEnd kept = .absent ∨
          search c.labels.codeBegin c.labels.codeEnd kept =
            .found ((parse c.labels lines).linesOf .code)) := by
  obtain ⟨priorBytes, priorRead⟩ := read_of_readLines prior
  have single := isSingleLine_of_readLines prior
  have firstEq := merge_of_prior (c := c) regions (priorPath?_of_read priorRead) prior
  rw [merged, Except.ok.injEq] at firstEq
  have firstSource : first.source = (page c.labels a body ((parse c.labels lines).linesOf .imports)
      ((parse c.labels lines).linesOf .code)).map .str := by
    rw [firstEq]
    exact spliced_eq legible.proper source (parse_labelled c.labels lines)
  obtain ⟨texts, textsEq, encoded⟩ := (Output.bytes_eq_ok plain).mp bytes
  rw [firstSource] at textsEq
  obtain ⟨mark, marked, rfl⟩ := Output.markLines_append textsEq
  obtain ⟨again, isRead, importsSame, codeSame⟩ :=
    regions_of_page legible hasCustom free single marked encoded found
  refine ⟨_, merge_of_prior regions (priorPath?_of_read found) isRead, ?_⟩
  rw [← codeSame, Output.bytes_eq_ok plain,
    spliced_eq legible.proper source (parse_labelled c.labels again), importsSame, notGenerated_page]
  constructor
  · rintro ⟨texts, textsEq', encoded'⟩
    obtain ⟨mark', marked', rfl⟩ := Output.markLines_append textsEq'
    obtain rfl : mark' = mark :=
      (List.map_inj_right fun _ _ e => Json.str.inj e).mp (marked'.symm.trans marked)
    have same := (Text.encode?_inj encoded).mp encoded'
    exact page_inj (fun x hx => isSingleLine_of_readLines isRead x (mem_linesOf_parse hx).1)
      (fun x hx => single x (mem_linesOf_parse hx).1) same
  · intro same
    rw [same]
    exact ⟨_, textsEq, encoded⟩

/-- The begin label of the custom code stands among the custom imports, without its end. -/
theorem remerge_of_nested_label :
    let a : Artifact :=
      { unit := .angularApp, item := .typeScriptModel, fullName := "A", subPath := "a.ts",
        extension := ".ts", source := ["class A (", ")"].map .str, imports := ["import B"] }
    let p := a.path (Path.ofText "")
    let text := "//@CustomImportBegin\n//@CustomCodeBegin\n//@CustomImportEnd\n"
    let t : Tree := ⟨[], [(["a.ts"], .file (Text.encode text))]⟩
    ∃ first written, (merge .default t a (Path.ofText "")).result = .ok first ∧
      Output.bytes .default first = .ok written ∧
      ∀ u : Tree, u.read p = .ok written →
        ∃ second, (merge .default u a (Path.ofText "")).result = .ok second ∧
          Output.bytes .default second ≠ .ok written := by
  intro a p text t
  have found : t.read p = .ok (Text.encode text) := eq_ok_of_toOption (by decide +kernel)
  have prior := readLines_of_text found
  have merged := merge_of_prior (c := .default) (a := a) rfl (priorPath?_of_read found) prior
  have plain : a.source = ["class A (", ")"].map .str := rfl
  have source := spliced_eq Config.default_labels_proper plain
    (parse_labelled Config.default.labels (Text.splitLines (Text.readNewlines text)))
  have bytes : Output.bytes .default { a with source := _, state := some .merged } = .ok _ :=
    (Output.bytes_eq_ok rfl).mpr ⟨["//@GeneratedCode"] ++ page _ a _ _ _,
      congrArg (Output.markLines .default ++ ·) source,
      Text.encode?_eq_ok.mpr ⟨by decide +kernel, rfl⟩⟩
  refine ⟨_, _, merged, bytes, ?_⟩
  intro u again
  obtain ⟨second, merged', same⟩ := remerge_same_iff
    Config.default_legible rfl rfl rfl plain (by decide +kernel) prior merged bytes again
  refine ⟨second, merged', ?_⟩
  rw [Ne, same]
  decide +kernel

end Region

end Scaffold
