import Scaffold.Proofs.Output.File
import Scaffold.Proofs.Region.Extraction

/-!
Artifacts on whose lines no label stands but those that were inserted with the regions. An artifact whose
regions were empty is read again without custom lines.
-/

namespace Scaffold.Region

variable {l : RegionLabels} {c : Config} {t : Tree} {a e : Artifact} {r : Regions} {p : Path}

/-- The labels that a merge inserts into an artifact. -/
def insertedLabels (l : RegionLabels) (a : Artifact) : List String :=
  if a.hasRegions then
    (if a.hasCustomImports then [l.importBegin.text, l.importEnd.text] else []) ++
      [l.codeBegin.text, l.codeEnd.text]
  else []

/-- The lines of an artifact are single lines, and of labels only the inserted ones are among them. -/
def Clean (l : RegionLabels) (a : Artifact) : Prop :=
  ∃ body : List String, a.source = body.map .str ∧ (∀ line ∈ body, Text.isSingleLine line = true) ∧
    body.filter (isLabelLine l) = insertedLabels l a

instance (l : RegionLabels) (a : Artifact) : Decidable (Clean l a) :=
  match h : Artifact.textsFrom 0 a.source with
  | .ok body =>
    decidable_of_iff ((∀ line ∈ body, Text.isSingleLine line = true) ∧
        body.filter (isLabelLine l) = insertedLabels l a) <| by
      have eq := Artifact.textsFrom_eq_ok.mp h
      constructor
      · exact fun clean => ⟨body, eq, clean⟩
      · rintro ⟨other, eq', clean⟩
        obtain rfl := (List.map_inj_right fun _ _ e => Json.str.inj e).mp (eq.symm.trans eq')
        exact clean
  | .error _ => .isFalse fun ⟨body, eq, _⟩ => by
    simp [Artifact.textsFrom_eq_ok.mpr eq] at h

theorem isLabelLine_text (proper : l.Proper) {label : Json} (mem : label ∈ l.all) :
    isLabelLine l label.text = true :=
  List.any_eq_true.mpr ⟨label, mem, proper.holds_text mem⟩

theorem filter_block (proper : l.Proper) (kind : RegionKind) :
    (block l kind []).filter (isLabelLine l) = block l kind [] := by
  simp [block, isLabelLine_text proper (l.beginOf_mem_all kind),
    isLabelLine_text proper (l.endOf_mem_all kind)]

/-- A body that is spliced from texts is made of texts. -/
theorem source_of_spliced {lines : List String} (h : spliced l a r = lines.map .str) :
    ∃ body : List String, a.source = body.map .str := by
  simp only [spliced, beforeLast_eq] at h
  obtain ⟨_, _, rfl, _, h⟩ := List.map_eq_append_iff.mp h.symm
  obtain ⟨first, _, rfl, hf, h⟩ := List.map_eq_append_iff.mp h
  obtain ⟨_, last, rfl, _, hl⟩ := List.map_eq_append_iff.mp h
  refine ⟨first ++ last, ?_⟩
  rw [List.map_append, hf, hl]
  rcases List.eq_nil_or_concat a.source with eq | ⟨init, line, eq⟩ <;> simp [eq]

/-- No line is a label, so no region is found. -/
theorem linesOf_of_free {lines : List String} (free : ∀ x ∈ lines, isLabelLine l x = false)
    (kind : RegionKind) : (parse l lines).linesOf kind = [] :=
  linesOf_parse_absent (search_absent_iff.mpr fun x hx =>
    not_holds_of_not_isLabelLine (free x hx) (l.beginOf_mem_all kind))

/-- In the empty block of one kind the begin label of the other does not stand. -/
theorem not_begin_in_other (proper : l.Proper) {kind other : RegionKind} (ne : kind ≠ other) :
    ∀ x ∈ block l other [], holdsLabel (l.beginOf kind) x = false :=
  not_holds_block proper (l.beginOf_mem_all kind) (proper.begin_ne_begin ne) (proper.begin_ne_end kind other)
    (by simp)

/-- Between the labels of empty blocks nothing is found. -/
theorem linesOf_between_blocks (proper : l.Proper) {hasCustom : Bool} {above between below : List String}
    (freeAbove : ∀ x ∈ above, isLabelLine l x = false)
    (freeBetween : ∀ x ∈ between, isLabelLine l x = false)
    (freeBelow : ∀ x ∈ below, isLabelLine l x = false) (kind : RegionKind) :
    (parse l (above ++ ((if hasCustom then block l .imports [] else []) ++ (between ++
      (block l .code [] ++ below))))).linesOf kind = [] := by
  have notBegin {lines : List String} (free : ∀ x ∈ lines, isLabelLine l x = false) :
      ∀ x ∈ lines, holdsLabel (l.beginOf kind) x = false := fun x hx =>
    not_holds_of_not_isLabelLine (free x hx) (l.beginOf_mem_all kind)
  cases kind with
  | imports =>
    cases hasCustom with
    | true =>
      rw [if_pos rfl, linesOf_parse_found (search_block proper _ (notBegin freeAbove) (by simp) _)]
      rfl
    | false =>
      -- without their block no line begins the custom imports
      refine linesOf_parse_absent (search_absent_iff.mpr fun x hx => ?_)
      simp only [Bool.false_eq_true, if_false, List.nil_append, List.mem_append] at hx
      rcases hx with hx | hx | hx | hx
      · exact notBegin freeAbove x hx
      · exact notBegin freeBetween x hx
      · exact not_begin_in_other proper (by decide) x hx
      · exact notBegin freeBelow x hx
  | code =>
    have before : ∀ x ∈ above ++ ((if hasCustom then block l .imports [] else []) ++ between),
        holdsLabel (l.beginOf .code) x = false := by
      intro x hx
      simp only [List.mem_append] at hx
      rcases hx with hx | hx | hx
      · exact notBegin freeAbove x hx
      · split at hx
        · exact not_begin_in_other proper (by decide) x hx
        · simp at hx
      · exact notBegin freeBetween x hx
    have inside : ∀ x ∈ ([] : List String), holdsLabel (l.endOf .code) x = false := by simp
    have found := search_block proper .code before inside below
    simp only [List.append_assoc] at found
    rw [linesOf_parse_found found]
    rfl

/-- If a filter leaves two blocks only, it leaves nothing of what stands around them. -/
theorem free_around {keep : String → Bool} {above first between second below : List String}
    (wholeFirst : first.filter keep = first) (wholeSecond : second.filter keep = second)
    (left : (above ++ (first ++ (between ++ (second ++ below)))).filter keep = first ++ second) :
    (∀ x ∈ above, keep x = false) ∧ (∀ x ∈ between, keep x = false) ∧ ∀ x ∈ below, keep x = false := by
  have length := congrArg List.length left
  simp only [List.filter_append, wholeFirst, wholeSecond, List.length_append] at length
  have free : ∀ lines : List String, (lines.filter keep).length = 0 → ∀ x ∈ lines, keep x = false := by
    intro lines none_ x hx
    simpa using List.filter_eq_nil_iff.mp (List.eq_nil_of_length_eq_zero none_) x hx
  exact ⟨free above (by omega), free between (by omega), free below (by omega)⟩

/-- The place for custom imports in a page that has none yet. -/
def importsPlace (l : RegionLabels) (a : Artifact) : List String :=
  if a.hasCustomImports then block l .imports [] else []

theorem filter_importsPlace (proper : l.Proper) :
    (importsPlace l a).filter (isLabelLine l) = importsPlace l a := by
  unfold importsPlace
  split
  · exact filter_block proper .imports
  · rfl

theorem insertedLabels_of_regions (regions : a.hasRegions = true) :
    insertedLabels l a = importsPlace l a ++ block l .code [] := by
  simp only [insertedLabels, regions, if_true, importsPlace]
  split <;> rfl

theorem page_without_regions {body : List String} :
    page l a body [] [] = distinctLines a.imports ++ (importsPlace l a ++ (body.dropLast ++
      (block l .code [] ++ body.getLast?.toList))) := by
  simp [page, notGenerated, importsPlace]

/-- What is read of an artifact whose regions were empty when it was merged. -/
theorem linesOf_of_clean (proper : l.Proper) {above below : List Json} {body mark : List String}
    (source : above ++ (mergedTo l e .none).source ++ below = body.map .str)
    (labels : body.filter (isLabelLine l) = insertedLabels l e)
    (free : ∀ x ∈ mark, isLabelLine l x = false) (kind : RegionKind) :
    (parse l (mark ++ body)).linesOf kind = [] := by
  by_cases regions : e.hasRegions = true
  · simp only [mergedTo, regions, if_true] at source
    obtain ⟨upper, below', rfl, hu, _⟩ := List.map_eq_append_iff.mp source.symm
    obtain ⟨above', middle, rfl, _, hm⟩ := List.map_eq_append_iff.mp hu
    obtain ⟨inner, sourceE⟩ := source_of_spliced hm.symm
    rw [spliced_eq proper sourceE (none_labelled l)] at hm
    obtain rfl := (List.map_inj_right fun _ _ e => Json.str.inj e).mp hm
    simp only [linesOf_none] at labels ⊢
    have shape : (above' ++ page l e inner [] [] ++ below') =
        (above' ++ distinctLines e.imports) ++ (importsPlace l e ++ (inner.dropLast ++
          (block l .code [] ++ (inner.getLast?.toList ++ below')))) := by
      simp [page_without_regions]
    rw [shape, insertedLabels_of_regions regions] at labels
    obtain ⟨freeAbove, freeBetween, freeBelow⟩ :=
      free_around (filter_importsPlace proper) (filter_block proper .code) labels
    rw [shape, ← List.append_assoc]
    refine linesOf_between_blocks proper (fun x hx => ?_) freeBetween freeBelow kind
    exact (List.mem_append.mp hx).elim (free x) (freeAbove x)
  · have none_ : insertedLabels l e = [] := by simp [insertedLabels, regions]
    rw [none_, List.filter_eq_nil_iff] at labels
    refine linesOf_of_free (fun x hx => ?_) kind
    rcases List.mem_append.mp hx with hx | hx
    · exact free x hx
    · simpa using labels x hx

end Scaffold.Region
