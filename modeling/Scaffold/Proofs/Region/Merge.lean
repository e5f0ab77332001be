import Scaffold.Proofs.Region.Page
import Scaffold.Region.File

/-!
Merging keeps what is written by hand and adds nothing to what is generated: the regions of the merged
page are those of the file before, and without its blocks the page is the artifact.
-/

namespace Scaffold.Region

variable {l : RegionLabels} {lines : List String}

/-- The lines after the begin label of a kind. -/
def linesAfter (l : RegionLabels) (kind : RegionKind) (lines : List String) : List String :=
  (lines.dropWhile fun line => !holdsLabel (l.beginOf kind) line).drop 1

/-- The lines between the labels of a kind. -/
def linesInside (l : RegionLabels) (kind : RegionKind) (lines : List String) : List String :=
  (linesAfter l kind lines).takeWhile fun line => !holdsLabel (l.endOf kind) line

/-- The lines outside the labels of a kind; the labels go as well. -/
def withoutBlock (l : RegionLabels) (kind : RegionKind) (lines : List String) : List String :=
  (lines.takeWhile fun line => !holdsLabel (l.beginOf kind) line) ++
    ((lines.dropWhile fun line => !holdsLabel (l.beginOf kind) line).dropWhile fun line =>
      !holdsLabel (l.endOf kind) line).drop 1

/-- Lines whose regions are closed and do not overlap. A label may occur again; the first counts. -/
structure Orderly (l : RegionLabels) (lines : List String) : Prop where
  closed : ∀ kind, (∃ line ∈ lines, holdsLabel (l.beginOf kind) line = true) →
    ∃ line ∈ linesAfter l kind lines, holdsLabel (l.endOf kind) line = true
  apart : ∀ kind other, kind ≠ other → ∀ line ∈ linesInside l kind lines,
    holdsLabel (l.beginOf other) line = false

theorem takeWhile_free {label : Json} {lines : List String}
    (free : ∀ x ∈ lines, holdsLabel label x = false) :
    (lines.takeWhile fun line => !holdsLabel label line) = lines := by
  induction lines with
  | nil => rfl
  | cons line rest ih =>
    rw [List.takeWhile_cons_of_pos (by simp [free line List.mem_cons_self]),
      ih fun x hx => free x (List.mem_cons_of_mem _ hx)]

theorem dropWhile_free {label : Json} {lines : List String}
    (free : ∀ x ∈ lines, holdsLabel label x = false) :
    (lines.dropWhile fun line => !holdsLabel label line) = [] := by
  induction lines with
  | nil => rfl
  | cons line rest ih =>
    rw [List.dropWhile_cons_of_pos (by simp [free line List.mem_cons_self]),
      ih fun x hx => free x (List.mem_cons_of_mem _ hx)]

theorem takeWhile_label {label : Json} {before : List String} {line : String}
    (free : ∀ x ∈ before, holdsLabel label x = false) (holds : holdsLabel label line = true)
    (after : List String) :
    ((before ++ line :: after).takeWhile fun line => !holdsLabel label line) = before := by
  rw [List.takeWhile_append_of_pos fun x hx => by simp [free x hx]]
  simp [holds]

theorem dropWhile_label {label : Json} {before : List String} {line : String}
    (free : ∀ x ∈ before, holdsLabel label x = false) (holds : holdsLabel label line = true)
    (after : List String) :
    ((before ++ line :: after).dropWhile fun line => !holdsLabel label line) = line :: after := by
  rw [List.dropWhile_append_of_pos fun x hx => by simp [free x hx]]
  simp [holds]

theorem linesInside_of_free {kind : RegionKind} {lines : List String}
    (free : ∀ x ∈ lines, holdsLabel (l.beginOf kind) x = false) : linesInside l kind lines = [] := by
  simp [linesInside, linesAfter, dropWhile_free free]

theorem linesInside_of_found {kind : RegionKind} {lines inner : List String}
    (h : search (l.beginOf kind) (l.endOf kind) lines = .found inner) :
    linesInside l kind lines = inner := by
  obtain ⟨before, open_, close, after, rfl, free, holds, inside, closes⟩ := search_found_iff.mp h
  rw [linesInside, linesAfter, dropWhile_label free holds, List.drop_one, List.tail_cons,
    takeWhile_label inside closes]

/-- In orderly lines a region is found or its begin label is nowhere. -/
theorem Orderly.search (h : Orderly l lines) (kind : RegionKind) :
    search (l.beginOf kind) (l.endOf kind) lines = .absent ∨
      search (l.beginOf kind) (l.endOf kind) lines = .found (linesInside l kind lines) := by
  cases split : splitAtLabel (l.beginOf kind) lines with
  | none => exact .inl (search_absent_iff.mpr (splitAtLabel_eq_none.mp split))
  | some parts =>
    right
    obtain ⟨before, after⟩ := parts
    obtain ⟨line, rfl, holds, free⟩ := splitAtLabel_eq_some.mp split
    have rest : linesAfter l kind (before ++ line :: after) = after := by
      rw [linesAfter, dropWhile_label free holds, List.drop_one, List.tail_cons]
    obtain ⟨x, hx, closes⟩ := h.closed kind ⟨line, by simp, holds⟩
    rw [rest] at hx
    cases close : splitAtLabel (l.endOf kind) after with
    | none => simp [splitAtLabel_eq_none.mp close x hx] at closes
    | some parts =>
      have found : Region.search (l.beginOf kind) (l.endOf kind) (before ++ line :: after) =
          .found parts.1 := by
        simp [Region.search, split, close]
      rw [found, linesInside_of_found found]

theorem Orderly.linesOf_parse (h : Orderly l lines) (kind : RegionKind) :
    (parse l lines).linesOf kind =
      (linesInside l kind lines).filter fun line => !Text.isBlankLine line := by
  rcases h.search kind with absent | found
  · rw [linesOf_parse_absent absent, linesInside_of_free (search_absent_iff.mp absent)]
    rfl
  · exact linesOf_parse_found found

theorem withoutBlock_of_free {kind : RegionKind} {lines : List String}
    (free : ∀ x ∈ lines, holdsLabel (l.beginOf kind) x = false) :
    withoutBlock l kind lines = lines := by
  simp [withoutBlock, takeWhile_free free, dropWhile_free free]

/-- Taking a block out leaves what is before and after it. -/
theorem withoutBlock_block (proper : l.Proper) {kind : RegionKind} {before lines : List String}
    (free : ∀ x ∈ before, holdsLabel (l.beginOf kind) x = false)
    (inside : ∀ x ∈ lines, holdsLabel (l.endOf kind) x = false) (after : List String) :
    withoutBlock l kind (before ++ (block l kind lines ++ after)) = before ++ after := by
  have opens := proper.holds_text (l.beginOf_mem_all kind)
  have closes := proper.holds_text (l.endOf_mem_all kind)
  have other : holdsLabel (l.endOf kind) (l.beginOf kind).text = false :=
    proper.not_holds_text (l.endOf_mem_all kind) (l.beginOf_mem_all kind)
      (proper.begin_ne_end kind kind).symm
  have inside' : ∀ x ∈ (l.beginOf kind).text :: lines, holdsLabel (l.endOf kind) x = false := by
    intro x hx
    rcases List.mem_cons.mp hx with rfl | hx
    · exact other
    · exact inside x hx
  have shape : before ++ (block l kind lines ++ after) =
      before ++ (l.beginOf kind).text :: (lines ++ (l.endOf kind).text :: after) := by
    simp [block]
  have tail : ((l.beginOf kind).text :: (lines ++ (l.endOf kind).text :: after)).dropWhile
      (fun line => !holdsLabel (l.endOf kind) line) = (l.endOf kind).text :: after :=
    dropWhile_label inside' closes after
  rw [shape, withoutBlock, takeWhile_label free opens, dropWhile_label free opens, tail]
  rfl

/-- In a block the lines between its labels are found. -/
theorem search_block (proper : l.Proper) (kind : RegionKind) {before lines : List String}
    (free : ∀ x ∈ before, holdsLabel (l.beginOf kind) x = false)
    (inside : ∀ x ∈ lines, holdsLabel (l.endOf kind) x = false) (after : List String) :
    search (l.beginOf kind) (l.endOf kind) (before ++ (block l kind lines ++ after)) =
      .found lines := by
  have shape : block l kind lines ++ after =
      (l.beginOf kind).text :: (lines ++ (l.endOf kind).text :: after) := by
    simp [block]
  rw [search_append_of_free free, shape]
  exact search_closed (proper.holds_text (l.beginOf_mem_all kind)) inside
    (proper.holds_text (l.endOf_mem_all kind)) after

variable {a : Artifact} {body custom code : List String}

/-- The custom imports are found on the page of an artifact that has a place for them. -/
theorem search_imports_page (proper : l.Proper) (hasCustom : a.hasCustomImports = true)
    (free : ∀ x ∈ a.imports, isLabelLine l x = false)
    (inside : ∀ x ∈ custom, holdsLabel l.importEnd x = false) (body code : List String) :
    search l.importBegin l.importEnd (page l a body custom code) =
      .found (notGenerated a.imports custom) := by
  have before : ∀ x ∈ distinctLines a.imports, holdsLabel l.importBegin x = false := by
    intro x hx
    exact not_holds_of_not_isLabelLine (free x (mem_distinctLines.mp hx))
      (l.beginOf_mem_all .imports)
  have kept : ∀ x ∈ notGenerated a.imports custom, holdsLabel l.importEnd x = false := by
    intro x hx
    exact inside x (List.mem_filter.mp hx).1
  simp only [page, hasCustom, if_true, List.append_assoc]
  exact search_block proper .imports before kept _

/-- What stands on the page above the custom code. -/
def upperPage (l : RegionLabels) (a : Artifact) (body custom : List String) : List String :=
  distinctLines a.imports ++
    (if a.hasCustomImports then block l .imports (notGenerated a.imports custom) else []) ++
    body.dropLast

theorem page_eq : page l a body custom code =
    upperPage l a body custom ++ (block l .code code ++ body.getLast?.toList) := by
  simp [page, upperPage]

theorem not_holds_block (proper : l.Proper) {label : Json} (mem : label ∈ l.all) {kind : RegionKind}
    (neBegin : label ≠ l.beginOf kind) (neEnd : label ≠ l.endOf kind)
    (free : ∀ x ∈ lines, holdsLabel label x = false) :
    ∀ x ∈ block l kind lines, holdsLabel label x = false := by
  intro x hx
  simp only [block, List.mem_cons, List.mem_append, List.not_mem_nil, or_false] at hx
  rcases hx with rfl | hx | rfl
  · exact proper.not_holds_text mem (l.beginOf_mem_all kind) neBegin
  · exact free x hx
  · exact proper.not_holds_text mem (l.endOf_mem_all kind) neEnd

/-- No begin label of custom code stands above it, unless in the custom imports. -/
theorem not_codeBegin_upperPage (proper : l.Proper)
    (free : ∀ x ∈ body ++ a.imports, isLabelLine l x = false)
    (custom_ : ∀ x ∈ custom, holdsLabel l.codeBegin x = false) :
    ∀ x ∈ upperPage l a body custom, holdsLabel l.codeBegin x = false := by
  have plain : ∀ x ∈ body ++ a.imports, holdsLabel l.codeBegin x = false := fun x hx =>
    not_holds_of_not_isLabelLine (free x hx) (l.beginOf_mem_all .code)
  intro x hx
  simp only [upperPage, List.mem_append] at hx
  rcases hx with (hx | hx) | hx
  · exact plain x (List.mem_append_right _ (mem_distinctLines.mp hx))
  · split at hx
    · apply not_holds_block proper (l.beginOf_mem_all .code) _ _ _ x hx
      · exact proper.begin_ne_begin (by decide)
      · exact proper.begin_ne_end .code .imports
      · exact fun y hy => custom_ y (List.mem_filter.mp hy).1
    · simp at hx
  · exact plain x (List.mem_append_left _ ((List.dropLast_sublist body).subset hx))

theorem search_code_page (proper : l.Proper)
    (free : ∀ x ∈ body ++ a.imports, isLabelLine l x = false)
    (custom_ : ∀ x ∈ custom, holdsLabel l.codeBegin x = false)
    (inside : ∀ x ∈ code, holdsLabel l.codeEnd x = false) :
    search l.codeBegin l.codeEnd (page l a body custom code) = .found code := by
  rw [page_eq]
  exact search_block proper .code (not_codeBegin_upperPage proper free custom_) inside _

/-- Without its blocks a page is the artifact below its imports. -/
theorem withoutBlock_page (proper : l.Proper)
    (free : ∀ x ∈ body ++ a.imports, isLabelLine l x = false)
    (custom_ : ∀ x ∈ custom, holdsLabel l.codeBegin x = false)
    (customInside : ∀ x ∈ custom, holdsLabel l.importEnd x = false)
    (inside : ∀ x ∈ code, holdsLabel l.codeEnd x = false) :
    withoutBlock l .imports (withoutBlock l .code (page l a body custom code)) =
      distinctLines a.imports ++ body := by
  have plain : ∀ x ∈ distinctLines a.imports ++ body, holdsLabel l.importBegin x = false := by
    intro x hx
    apply not_holds_of_not_isLabelLine (free x _) (l.beginOf_mem_all .imports)
    simpa [mem_distinctLines, or_comm] using hx
  have whole : body.dropLast ++ body.getLast?.toList = body := by
    rcases List.eq_nil_or_concat body with rfl | ⟨init, last, rfl⟩ <;> simp
  rw [page_eq, withoutBlock_block proper (not_codeBegin_upperPage proper free custom_) inside]
  simp only [upperPage, List.append_assoc, whole]
  split
  · apply withoutBlock_block proper
    · exact fun x hx => plain x (List.mem_append_left _ hx)
    · exact fun x hx => customInside x (List.mem_filter.mp hx).1
  · rw [List.nil_append, withoutBlock_of_free plain]

/-- The regions of a file that can be read are those of its lines. -/
theorem extract_of_prior {c : Config} {t : Tree} {path p : Path}
    (prior : priorPath? c t path = .ok (some p)) (isRead : readLines t p = .ok lines) :
    (extract c t path).result =
      .ok (if (parse c.labels lines).count = 0 then .priorFileFound else .regionsExtracted,
        parse c.labels lines) := by
  simp [extract, prior, extractFrom, read, isRead]

theorem merge_of_prior {c : Config} {t : Tree} {project p : Path} (regions : a.hasRegions = true)
    (prior : priorPath? c t (a.path project) = .ok (some p)) (isRead : readLines t p = .ok lines) :
    (merge c t a project).result =
      .ok { a with source := spliced c.labels a (parse c.labels lines), state := some .merged } := by
  have found := extract_of_prior prior isRead
  simp only [merge, regions, if_true, Outcome.bind, found, mergeWith]
  split <;> simp_all

/-- A merged file holds the custom lines of the file before, but for imports that are generated by now;
without its blocks it is the artifact. -/
theorem merge_round_trip {c : Config} (proper : c.labels.Proper) (regions : a.hasRegions = true)
    (source : a.source = body.map .str)
    (free : ∀ x ∈ body ++ a.imports, isLabelLine c.labels x = false)
    (orderly : Orderly c.labels lines) :
    ∃ merged : List String,
      (∀ state, (mergeWith c.labels a state (parse c.labels lines)).source = merged.map .str) ∧
      (∀ t project p, priorPath? c t (a.path project) = .ok (some p) → readLines t p = .ok lines →
        (merge c t a project).result =
          .ok { a with source := merged.map .str, state := some .merged }) ∧
      (parse c.labels merged).code = some ⟨c.labels.codeBegin, c.labels.codeEnd, .code,
        (linesInside c.labels .code lines).filter fun line => !Text.isBlankLine line⟩ ∧
      (a.hasCustomImports = true →
        (parse c.labels merged).imports = some ⟨c.labels.importBegin, c.labels.importEnd, .imports,
          (linesInside c.labels .imports lines).filter fun line =>
            !Text.isBlankLine line && !(a.imports.map Text.strip).contains (Text.strip line)⟩) ∧
      withoutBlock c.labels .imports (withoutBlock c.labels .code merged) =
        distinctLines a.imports ++ body := by
  have custom_ : ∀ kind other, kind ≠ other →
      ∀ x ∈ (parse c.labels lines).linesOf kind, holdsLabel (c.labels.beginOf other) x = false := by
    intro kind other ne x hx
    rw [orderly.linesOf_parse] at hx
    exact orderly.apart kind other ne x (List.mem_filter.mp hx).1
  have inside : ∀ kind, ∀ x ∈ (parse c.labels lines).linesOf kind,
      holdsLabel (c.labels.endOf kind) x = false := fun kind x hx => (mem_linesOf_parse hx).2.2
  have freeImports : ∀ x ∈ a.imports, isLabelLine c.labels x = false := fun x hx =>
    free x (List.mem_append_right _ hx)
  have nonblank : ∀ kind, ((parse c.labels lines).linesOf kind).filter
      (fun line => !Text.isBlankLine line) = (parse c.labels lines).linesOf kind := by
    intro kind
    rw [orderly.linesOf_parse, List.filter_filter]
    simp
  have merged := spliced_eq proper source (parse_labelled c.labels lines)
  refine ⟨page c.labels a body ((parse c.labels lines).linesOf .imports)
    ((parse c.labels lines).linesOf .code), ?_, ?_, ?_, ?_, ?_⟩
  · intro state
    rw [mergeWith, if_pos regions]
    exact merged
  · intro t project p prior isRead
    rw [merge_of_prior regions prior isRead, merged]
  · have found := search_code_page proper free (custom_ .imports .code (by decide)) (inside .code)
    have region := ofKind?_found .code found
    rw [nonblank .code] at region
    rw [← orderly.linesOf_parse .code]
    exact region
  · intro hasCustom
    have found := search_imports_page proper hasCustom freeImports (inside .imports) body
      ((parse c.labels lines).linesOf .code)
    have region := ofKind?_found .imports found
    have kept : (notGenerated a.imports ((parse c.labels lines).linesOf .imports)).filter
        (fun line => !Text.isBlankLine line) =
        (linesInside c.labels .imports lines).filter fun line =>
          !Text.isBlankLine line && !(a.imports.map Text.strip).contains (Text.strip line) := by
      rw [orderly.linesOf_parse .imports, notGenerated, List.filter_filter, List.filter_filter]
      apply List.filter_congr
      intro x _
      cases Text.isBlankLine x <;> simp
    rw [kept] at region
    exact region
  · exact withoutBlock_page proper free (custom_ .imports .code (by decide)) (inside .imports)
      (inside .code)

/-- A class is generated again over a file with an import and a method of its own. -/
theorem merge_round_trip_class :
    let a : Artifact :=
      { unit := .angularApp, item := .typeScriptModel, fullName := "A", subPath := "a.ts",
        extension := ".ts", source := ["class A (", ")"].map .str, imports := ["import B"] }
    let lines := ["//@CustomImportBegin", "import B ", "import C", "//@CustomImportEnd", "class A (",
      "  //@CustomCodeBegin", "", "  keep", "//@CustomCodeEnd", ")"]
    Orderly Config.default.labels lines ∧
      ∃ merged : List String,
        (mergeWith Config.default.labels a .priorFileFound
          (parse Config.default.labels lines)).source = merged.map .str ∧
        (parse Config.default.labels merged).linesOf .code = ["  keep"] ∧
        (parse Config.default.labels merged).linesOf .imports = ["import C"] ∧
        withoutBlock Config.default.labels .imports
          (withoutBlock Config.default.labels .code merged) = ["import B", "class A (", ")"] := by
  intro a lines
  have orderly : Orderly Config.default.labels lines :=
    ⟨by intro kind; cases kind <;> decide +kernel,
      by intro kind other; cases kind <;> cases other <;> decide +kernel⟩
  obtain ⟨merged, source, _, code, imports, rest⟩ := merge_round_trip (c := Config.default) (a := a)
    Config.default_labels_proper rfl (rfl : a.source = ["class A (", ")"].map .str) (by decide +kernel)
    orderly
  refine ⟨orderly, merged, source _, ?_, ?_, rest⟩
  · rw [Regions.linesOf, Regions.of, code]
    decide +kernel
  · rw [Regions.linesOf, Regions.of, imports rfl]
    decide +kernel

end Scaffold.Region
