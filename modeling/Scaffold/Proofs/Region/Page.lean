import Scaffold.Proofs.Region.Search

/-!
The page of a merged artifact: its imports, the custom imports between their labels, and the body with the
custom code before its last line. What a merge puts in depends on the regions through their lines alone.
-/

namespace Scaffold.Region

variable {l : RegionLabels}

/-- The lines of the region of a kind; none if it is not there. -/
def Regions.linesOf (r : Regions) (kind : RegionKind) : List String :=
  ((r.of kind).map Region.lines).getD []

/-- Regions whose labels are those that are looked for. -/
def Regions.Labelled (l : RegionLabels) (r : Regions) : Prop :=
  ∀ kind region, r.of kind = some region →
    region = ⟨l.beginOf kind, l.endOf kind, kind, region.lines⟩

@[simp] theorem linesOf_none (kind : RegionKind) : Regions.none.linesOf kind = [] := by
  cases kind <;> rfl

theorem none_labelled (l : RegionLabels) : Regions.none.Labelled l := by
  intro kind region h
  cases kind <;> simp [Regions.of, Regions.none] at h

theorem of_parse (l : RegionLabels) (kind : RegionKind) (lines : List String) :
    (parse l lines).of kind = ofKind? l kind lines := by
  cases kind <;> rfl

theorem ofKind?_eq_some {kind : RegionKind} {lines : List String} {region : Region} :
    ofKind? l kind lines = some region ↔
      ∃ inner, search (l.beginOf kind) (l.endOf kind) lines = .found inner ∧
        region = ⟨l.beginOf kind, l.endOf kind, kind,
          inner.filter fun line => !Text.isBlankLine line⟩ := by
  unfold ofKind?
  split
  · rename_i inner h
    simp [h, eq_comm]
  · rename_i h
    constructor
    · simp
    · rintro ⟨inner, found, _⟩
      exact absurd found (h inner)

theorem ofKind?_found (kind : RegionKind) {lines inner : List String}
    (h : search (l.beginOf kind) (l.endOf kind) lines = .found inner) :
    ofKind? l kind lines = some ⟨l.beginOf kind, l.endOf kind, kind,
      inner.filter fun line => !Text.isBlankLine line⟩ :=
  ofKind?_eq_some.mpr ⟨inner, h, rfl⟩

theorem ofKind?_absent {kind : RegionKind} {lines : List String}
    (h : search (l.beginOf kind) (l.endOf kind) lines = .absent) : ofKind? l kind lines = none := by
  simp [ofKind?, h]

theorem parse_labelled (l : RegionLabels) (lines : List String) : (parse l lines).Labelled l := by
  intro kind region h
  rw [of_parse] at h
  obtain ⟨inner, _, rfl⟩ := ofKind?_eq_some.mp h
  rfl

theorem linesOf_parse_found {kind : RegionKind} {lines inner : List String}
    (h : search (l.beginOf kind) (l.endOf kind) lines = .found inner) :
    (parse l lines).linesOf kind = inner.filter fun line => !Text.isBlankLine line := by
  simp [Regions.linesOf, of_parse, ofKind?_found kind h]

theorem linesOf_parse_absent {kind : RegionKind} {lines : List String}
    (h : search (l.beginOf kind) (l.endOf kind) lines = .absent) :
    (parse l lines).linesOf kind = [] := by
  simp [Regions.linesOf, of_parse, ofKind?_absent h]

theorem filter_nonblank {lines : List String} (h : ∀ x ∈ lines, Text.isBlankLine x = false) :
    (lines.filter fun line => !Text.isBlankLine line) = lines := by
  rw [List.filter_eq_self]
  intro x hx
  simp [h x hx]

/-- Lines of a region come from the file, hold text and no end label. -/
theorem mem_linesOf_parse {kind : RegionKind} {lines : List String} {line : String}
    (h : line ∈ (parse l lines).linesOf kind) :
    line ∈ lines ∧ Text.isBlankLine line = false ∧ holdsLabel (l.endOf kind) line = false := by
  cases found : ofKind? l kind lines with
  | none => simp [Regions.linesOf, of_parse, found] at h
  | some region =>
    obtain ⟨inner, hs, rfl⟩ := ofKind?_eq_some.mp found
    rw [linesOf_parse_found hs] at h
    obtain ⟨mem, text⟩ := List.mem_filter.mp h
    obtain ⟨before, open_, close, after, rfl, _, _, inside, _⟩ := search_found_iff.mp hs
    exact ⟨by simp [mem], by simpa using text, inside line mem⟩

/-- A region that is not there is merged as one without lines. -/
theorem getD_emptyRegion {r : Regions} (h : r.Labelled l) (kind : RegionKind) :
    (r.of kind).getD (l.emptyRegion kind) =
      ⟨l.beginOf kind, l.endOf kind, kind, r.linesOf kind⟩ := by
  unfold Regions.linesOf
  cases found : r.of kind with
  | none => rfl
  | some region =>
    rw [Option.getD_some, h kind region found]
    rfl

/-- Lines with the labels of a kind round them. -/
def block (l : RegionLabels) (kind : RegionKind) (lines : List String) : List String :=
  (l.beginOf kind).text :: (lines ++ [(l.endOf kind).text])

/-- The lines that say nothing else than a generated line are left out. -/
def notGenerated (generated lines : List String) : List String :=
  lines.filter fun line => !(generated.map Text.strip).contains (Text.strip line)

theorem notGenerated_idem (generated lines : List String) :
    notGenerated generated (notGenerated generated lines) = notGenerated generated lines := by
  simp [notGenerated]

theorem mem_distinctLines {line : String} {lines : List String} :
    line ∈ distinctLines lines ↔ line ∈ lines := by
  induction lines with
  | nil => simp [distinctLines]
  | cons first rest ih =>
    by_cases h : line = first
    · simp [distinctLines, h]
    · simp [distinctLines, h, ih]

theorem nodup_distinctLines (lines : List String) : (distinctLines lines).Nodup := by
  induction lines with
  | nil => exact .nil
  | cons first rest ih => exact List.nodup_cons.mpr ⟨by simp, ih.filter _⟩

theorem count_distinctLines {line : String} {lines : List String} (mem : line ∈ lines) :
    (distinctLines lines).count line = 1 :=
  (nodup_distinctLines lines).count.trans (if_pos (mem_distinctLines.mpr mem))

theorem notGenerated_distinctLines (generated lines : List String) :
    notGenerated (distinctLines generated) lines = notGenerated generated lines := by
  apply List.filter_congr
  intro line _
  have same : ((distinctLines generated).map Text.strip).contains (Text.strip line) =
      (generated.map Text.strip).contains (Text.strip line) := by
    rw [Bool.eq_iff_iff]
    simp [mem_distinctLines]
  rw [same]

/-- The lines of an artifact with these custom imports and this custom code put in. -/
def page (l : RegionLabels) (a : Artifact) (body custom code : List String) : List String :=
  distinctLines a.imports ++
    (if a.hasCustomImports then block l .imports (notGenerated a.imports custom) else []) ++
    (body.dropLast ++ (block l .code code ++ body.getLast?.toList))

theorem beforeLast_eq (lines body : List Json) :
    beforeLast lines body = body.dropLast ++ (lines ++ body.getLast?.toList) := by
  induction body with
  | nil => simp [beforeLast]
  | cons line rest ih =>
    cases rest with
    | nil => simp [beforeLast]
    | cons next rest => rw [beforeLast, ih] <;> simp

theorem render_eq (proper : l.Proper) (kind : RegionKind) (lines : List String) :
    (⟨l.beginOf kind, l.endOf kind, kind, lines⟩ : Region).render = (block l kind lines).map .str := by
  simp [render, block, proper.str_text (l.beginOf_mem_all kind),
    proper.str_text (l.endOf_mem_all kind)]

/-- Of the regions only the lines count. -/
theorem spliced_congr {a : Artifact} {r s : Regions} (hr : r.Labelled l) (hs : s.Labelled l)
    (same : ∀ kind, r.linesOf kind = s.linesOf kind) : spliced l a r = spliced l a s := by
  have code := getD_emptyRegion hr .code
  have custom := getD_emptyRegion hr .imports
  rw [same, ← getD_emptyRegion hs] at code custom
  simp only [Regions.of] at code custom
  simp only [spliced, code, custom]

theorem spliced_eq (proper : l.Proper) {a : Artifact} {body : List String}
    (source : a.source = body.map .str) {r : Regions} (labelled : r.Labelled l) :
    spliced l a r = (page l a body (r.linesOf .imports) (r.linesOf .code)).map .str := by
  have code := getD_emptyRegion labelled .code
  have custom := getD_emptyRegion labelled .imports
  simp only [Regions.of] at code custom
  have kept : ∀ lines, withoutGenerated (distinctLines a.imports)
      ⟨l.beginOf .imports, l.endOf .imports, .imports, lines⟩ =
      ⟨l.beginOf .imports, l.endOf .imports, .imports, notGenerated a.imports lines⟩ := by
    intro lines
    rw [← notGenerated_distinctLines]
    rfl
  simp only [spliced, code, custom, kept, render_eq proper, beforeLast_eq, source, page]
  cases a.hasCustomImports <;>
    simp [List.map_dropLast, List.getLast?_map, Option.toList_map]

end Scaffold.Region
