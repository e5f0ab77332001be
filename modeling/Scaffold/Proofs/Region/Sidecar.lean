import Scaffold.Proofs.Output.File
import Scaffold.Proofs.Region.Merge

/-!
What goes into a sidecar and what is read from it again: of a file in which no region begins within the
other just the regions that are not empty.
-/

namespace Scaffold.Region

variable {l : RegionLabels} {c : Config} {bytes saved : ByteArray} {imports code : List String}

/-- The lines of a region in the bytes of a file. What is no text has none. -/
def linesIn (c : Config) (bytes : ByteArray) (kind : RegionKind) : List String :=
  match Text.decode bytes with
  | .ok text => (parse c.labels (Text.splitLines (Text.readNewlines text))).linesOf kind
  | .error _ => []

/-- The regions in the bytes of a file. What is no text has none. -/
def regionsIn (c : Config) (bytes : ByteArray) : Regions :=
  match Text.decode bytes with
  | .ok text => parse c.labels (Text.splitLines (Text.readNewlines text))
  | .error _ => .none

/-- The regions that are not empty. -/
def Regions.filled (r : Regions) : Regions :=
  ⟨r.imports.filter fun region => !region.isEmpty, r.code.filter fun region => !region.isEmpty⟩

/-- No region begins within the other. -/
def Regions.Apart (l : RegionLabels) (r : Regions) : Prop :=
  ∀ kind other, other ≠ kind → ∀ x ∈ r.linesOf kind, holdsLabel (l.beginOf other) x = false

/-- The bytes that go into the sidecar of a file; none if there is nothing to keep. -/
def keptOf? (c : Config) (bytes : ByteArray) : Option ByteArray :=
  match Text.decode bytes with
  | .ok text => sidecarBytes? (parse c.labels (Text.splitLines (Text.readNewlines text)))
  | .error _ => none

/-- The regions hold no label, so that they can be told apart wherever they are put. -/
def Portable (c : Config) (bytes : ByteArray) : Prop :=
  ∀ kind, ∀ x ∈ linesIn c bytes kind, isLabelLine c.labels x = false

/-- The block of a region, unless there is nothing in it. -/
def keptBlock (l : RegionLabels) (kind : RegionKind) (lines : List String) : List String :=
  if lines = [] then [] else block l kind lines

/-- The lines of a sidecar as texts. -/
def keptLines (l : RegionLabels) (lines : RegionKind → List String) : List String :=
  keptBlock l .imports (lines .imports) ++ keptBlock l .code (lines .code)

theorem text_keptRegion {r : Regions} (labelled : r.Labelled l) (kind : RegionKind) :
    (match r.of kind with
      | some region => if region.isEmpty then [] else region.render
      | none => []).map Json.text = keptBlock l kind (r.linesOf kind) := by
  unfold Regions.linesOf
  cases found : r.of kind with
  | none => simp [keptBlock]
  | some region =>
    simp only [Option.map_some, Option.getD_some, keptBlock, Region.isEmpty, List.isEmpty_iff]
    split
    · rfl
    · rw [labelled kind region found]
      simp [Region.render, block, Json.text, Function.comp_def]

theorem text_sidecarLines {r : Regions} (labelled : r.Labelled l) :
    (sidecarLines r).map Json.text = keptLines l r.linesOf := by
  rw [keptLines, ← text_keptRegion labelled .imports, ← text_keptRegion labelled .code, ← List.map_append,
    ← List.append_nil (_ ++ _), List.append_assoc]
  rfl

theorem sidecarBytes?_eq {r : Regions} (labelled : r.Labelled l) :
    sidecarBytes? r = if keptLines l r.linesOf = [] then none
      else some (Text.encode (Text.joinLines (keptLines l r.linesOf))) := by
  rw [← text_sidecarLines labelled]
  simp [sidecarBytes?, List.isEmpty_iff]

theorem not_holds_keptBlock (proper : l.Proper) {label : Json} (mem : label ∈ l.all) {kind : RegionKind}
    (neBegin : label ≠ l.beginOf kind) (neEnd : label ≠ l.endOf kind) {lines : List String}
    (free : ∀ x ∈ lines, holdsLabel label x = false) :
    ∀ x ∈ keptBlock l kind lines, holdsLabel label x = false := by
  unfold keptBlock
  split
  · simp
  · exact not_holds_block proper mem neBegin neEnd free

/-- Below lines without its begin label a kept block is found. -/
theorem linesOf_keptBlock (proper : l.Proper) (kind : RegionKind) {before lines after : List String}
    (freeBefore : ∀ x ∈ before, holdsLabel (l.beginOf kind) x = false)
    (freeAfter : ∀ x ∈ after, holdsLabel (l.beginOf kind) x = false)
    (inside : ∀ x ∈ lines, holdsLabel (l.endOf kind) x = false)
    (text : ∀ x ∈ lines, Text.isBlankLine x = false) :
    (parse l (before ++ (keptBlock l kind lines ++ after))).linesOf kind = lines := by
  unfold keptBlock
  split
  · rename_i none_
    rw [none_]
    apply linesOf_parse_absent
    rw [search_absent_iff]
    intro x hx
    rcases List.mem_append.mp hx with hx | hx
    · exact freeBefore x hx
    · exact freeAfter x hx
  · rw [linesOf_parse_found (search_block proper kind freeBefore inside after), filter_nonblank text]

section Apart

variable {lines : RegionKind → List String}

theorem not_holds_keptBlock_other (proper : l.Proper)
    (apart : ∀ kind other, other ≠ kind → ∀ x ∈ lines kind, holdsLabel (l.beginOf other) x = false)
    {kind other : RegionKind} (ne : kind ≠ other) :
    ∀ x ∈ keptBlock l other (lines other), holdsLabel (l.beginOf kind) x = false :=
  not_holds_keptBlock proper (l.beginOf_mem_all kind) (proper.begin_ne_begin ne)
    (proper.begin_ne_end kind other) (apart other kind ne)

theorem linesOf_sidecar (proper : l.Proper)
    (apart : ∀ kind other, other ≠ kind → ∀ x ∈ lines kind, holdsLabel (l.beginOf other) x = false)
    (inside : ∀ kind, ∀ x ∈ lines kind, holdsLabel (l.endOf kind) x = false)
    (text : ∀ kind, ∀ x ∈ lines kind, Text.isBlankLine x = false) (kind : RegionKind) :
    (parse l (keptLines l lines)).linesOf kind = lines kind := by
  cases kind with
  | imports =>
    exact linesOf_keptBlock proper .imports (List.forall_mem_nil _)
      (not_holds_keptBlock_other proper apart (by decide)) (inside .imports) (text .imports)
  | code =>
    have found := linesOf_keptBlock proper .code
      (not_holds_keptBlock_other proper apart (show RegionKind.code ≠ .imports by decide))
      (List.forall_mem_nil _) (inside .code) (text .code)
    rwa [List.append_nil] at found

/-- A region without lines has no labels in a sidecar. -/
theorem of_sidecar_eq_none (proper : l.Proper)
    (apart : ∀ kind other, other ≠ kind → ∀ x ∈ lines kind, holdsLabel (l.beginOf other) x = false)
    {kind : RegionKind} (none_ : lines kind = []) : (parse l (keptLines l lines)).of kind = none := by
  rw [of_parse]
  refine ofKind?_absent (search_absent_iff.mpr fun x hx => ?_)
  cases kind with
  | imports =>
    rw [keptLines, none_, show keptBlock l .imports [] = [] from if_pos rfl, List.nil_append] at hx
    exact not_holds_keptBlock_other proper apart (by decide) x hx
  | code =>
    rw [keptLines, none_, show keptBlock l .code [] = [] from if_pos rfl, List.append_nil] at hx
    exact not_holds_keptBlock_other proper apart (by decide) x hx

end Apart

theorem keptLines_eq_nil {lines : RegionKind → List String} :
    keptLines l lines = [] ↔ ∀ kind, lines kind = [] := by
  have kept : ∀ kind, keptBlock l kind (lines kind) = [] ↔ lines kind = [] := by
    intro kind
    unfold keptBlock
    split <;> simp_all [block]
  rw [keptLines, List.append_eq_nil_iff, kept, kept]
  constructor
  · rintro ⟨imports, code⟩ kind
    cases kind <;> assumption
  · exact fun none_ => ⟨none_ .imports, none_ .code⟩

theorem text_of_holds {label : Json} {line : String} (holds : holdsLabel label line = true) :
    label.text = Text.strip line := by
  cases label <;> simp_all [holdsLabel, Json.text]

/-- Labels that were found on lines are lines themselves. -/
theorem single_labels {kind : RegionKind} {lines : List String}
    (single : ∀ x ∈ lines, Text.isSingleLine x = true) (some_ : (parse l lines).linesOf kind ≠ []) :
    Text.isSingleLine (l.beginOf kind).text = true ∧ Text.isSingleLine (l.endOf kind).text = true := by
  cases found : ofKind? l kind lines with
  | none => simp [Regions.linesOf, of_parse, found] at some_
  | some region =>
    obtain ⟨inner, hs, _⟩ := ofKind?_eq_some.mp found
    obtain ⟨before, open_, close, after, rfl, _, opens, _, closes⟩ := search_found_iff.mp hs
    rw [text_of_holds opens, text_of_holds closes]
    exact ⟨Text.isSingleLine_strip (single open_ (by simp)), Text.isSingleLine_strip (single close (by simp))⟩

theorem single_keptLines {lines : RegionKind → List String}
    (labels : ∀ kind, lines kind ≠ [] →
      Text.isSingleLine (l.beginOf kind).text = true ∧ Text.isSingleLine (l.endOf kind).text = true)
    (inside : ∀ kind, ∀ x ∈ lines kind, Text.isSingleLine x = true) :
    ∀ x ∈ keptLines l lines, Text.isSingleLine x = true := by
  have kept : ∀ kind, ∀ x ∈ keptBlock l kind (lines kind), Text.isSingleLine x = true := by
    intro kind x hx
    unfold keptBlock at hx
    split at hx
    · simp at hx
    · rename_i some_
      simp only [block, List.mem_cons, List.mem_append, List.not_mem_nil, or_false] at hx
      rcases hx with rfl | hx | rfl
      · exact (labels kind some_).1
      · exact inside kind x hx
      · exact (labels kind some_).2
  intro x hx
  rcases List.mem_append.mp hx with hx | hx
  · exact kept .imports x hx
  · exact kept .code x hx

theorem linesIn_of_decode {text : String} (decoded : Text.decode bytes = .ok text) (kind : RegionKind) :
    linesIn c bytes kind =
      (parse c.labels (Text.splitLines (Text.readNewlines text))).linesOf kind := by
  simp [linesIn, decoded]

theorem linesOf_regionsIn (c : Config) (bytes : ByteArray) (kind : RegionKind) :
    (regionsIn c bytes).linesOf kind = linesIn c bytes kind := by
  unfold regionsIn linesIn
  cases Text.decode bytes <;> simp

theorem regionsIn_joinLines {texts : List String} (some_ : texts ≠ []) :
    regionsIn c (Text.encode (Text.joinLines texts)) = parse c.labels (texts.flatMap Text.reread) := by
  simp [regionsIn, Text.decode_encode, Text.splitLines_joinLines some_]

theorem linesIn_joinLines {texts : List String} (some_ : texts ≠ []) (kind : RegionKind) :
    linesIn c (Text.encode (Text.joinLines texts)) kind =
      (parse c.labels (texts.flatMap Text.reread)).linesOf kind := by
  rw [← linesOf_regionsIn, regionsIn_joinLines some_]

/-- Labelled regions that have the lines of others and are not there without lines are those of the others
that are not empty. -/
theorem eq_filled {r kept : Regions} (labelled : r.Labelled l) (labelledKept : kept.Labelled l)
    (same : ∀ kind, kept.linesOf kind = r.linesOf kind)
    (absent : ∀ kind, r.linesOf kind = [] → kept.of kind = none) : kept = r.filled := by
  have each : ∀ kind, kept.of kind = (r.of kind).filter fun region => !region.isEmpty := by
    intro kind
    have lines := same kind
    have none_ := absent kind
    unfold Regions.linesOf at lines none_
    cases here : r.of kind with
    | none => simpa [here] using none_
    | some region =>
      by_cases empty : region.lines = []
      · simpa [here, empty, Region.isEmpty, Option.filter_some] using none_
      · cases there : kept.of kind with
        | none => simp [here, there, Ne.symm empty] at lines
        | some found =>
          have eq : found.lines = region.lines := by simpa [here, there] using lines
          rw [labelledKept kind found there, labelled kind region here, eq]
          simp [Region.isEmpty, Option.filter_some, empty]
  exact congr (congrArg Regions.mk (each .imports)) (each .code)

theorem regionsIn_labelled (c : Config) (bytes : ByteArray) : (regionsIn c bytes).Labelled c.labels := by
  unfold regionsIn
  split
  · exact parse_labelled c.labels _
  · exact none_labelled c.labels

/-- The lines of a sidecar hold the regions of a file that are not empty. -/
theorem parse_sidecar (proper : l.Proper) {lines : List String} (apart : (parse l lines).Apart l) :
    parse l (keptLines l (parse l lines).linesOf) = (parse l lines).filled :=
  eq_filled (parse_labelled l _) (parse_labelled l _)
    (linesOf_sidecar proper apart (fun _ _ hx => (mem_linesOf_parse hx).2.2)
      fun _ _ hx => (mem_linesOf_parse hx).2.1)
    fun _ => of_sidecar_eq_none proper apart

/-- From the sidecar of a file, if one is kept, the regions of the file are read that are not empty. -/
theorem regionsIn_keptOf? (proper : c.labels.Proper) (apart : (regionsIn c bytes).Apart c.labels) :
    (match keptOf? c bytes with
      | some saved => regionsIn c saved
      | none => .none) = (regionsIn c bytes).filled := by
  cases decoded : Text.decode bytes with
  | error e => simp [keptOf?, regionsIn, decoded, Regions.filled, Regions.none]
  | ok text =>
    have here : regionsIn c bytes = parse c.labels (Text.splitLines (Text.readNewlines text)) := by
      simp [regionsIn, decoded]
    have kept : keptOf? c bytes = sidecarBytes? (regionsIn c bytes) := by simp [keptOf?, decoded, here]
    rw [kept, sidecarBytes?_eq (regionsIn_labelled c bytes)]
    by_cases none_ : keptLines c.labels (regionsIn c bytes).linesOf = []
    · rw [if_pos none_]
      refine eq_filled (regionsIn_labelled c bytes) (none_labelled c.labels) (fun kind => ?_) fun kind _ => ?_
      · rw [linesOf_none, keptLines_eq_nil.mp none_ kind]
      · cases kind <;> rfl
    · rw [if_neg none_]
      simp only
      rw [regionsIn_joinLines none_, Text.flatMap_reread_of_single, here, parse_sidecar proper]
      · rwa [← here]
      · rw [here]
        exact single_keptLines (fun _ => single_labels fun _ => Text.isSingleLine_of_mem)
          fun _ _ hx => Text.isSingleLine_of_mem (mem_linesOf_parse hx).1

@[simp] theorem linesOf_filled (r : Regions) (kind : RegionKind) : r.filled.linesOf kind = r.linesOf kind := by
  have each : ∀ found : Option Region,
      ((found.filter fun region => !region.isEmpty).map Region.lines).getD [] =
        (found.map Region.lines).getD [] := by
    intro found
    cases found with
    | none => rfl
    | some region => cases lines : region.lines <;> simp [Region.isEmpty, Option.filter_some, lines]
  cases kind <;> exact each _

theorem Portable.apart (h : Portable c bytes) : (regionsIn c bytes).Apart c.labels := by
  intro kind other _ x hx
  rw [linesOf_regionsIn] at hx
  exact not_holds_of_not_isLabelLine (h kind x hx) (c.labels.beginOf_mem_all other)

/-- The regions of a file without labels in them are the regions of its sidecar, if one is kept, and else
empty. -/
theorem linesIn_keptOf? (proper : c.labels.Proper) (portable : Portable c bytes) (kind : RegionKind) :
    linesIn c bytes kind =
      match keptOf? c bytes with
      | some saved => linesIn c saved kind
      | none => [] := by
  rw [← linesOf_regionsIn, ← linesOf_filled, ← regionsIn_keptOf? proper portable.apart]
  cases keptOf? c bytes with
  | none => exact linesOf_none kind
  | some saved => exact linesOf_regionsIn c saved kind

end Scaffold.Region
