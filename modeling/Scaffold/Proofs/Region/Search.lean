import Scaffold.Config.Options
import Scaffold.Config.Validation
import Scaffold.Region.Basic

/-!
Where labels are found. Proper labels are texts that a line can hold and that no two lines share; the
search for a pair of them is described by the lines before, between and after.
-/

namespace Scaffold

/-- Labels that can be told apart on the lines of a file: texts that are not empty, without white space at
their ends, and all different. -/
structure RegionLabels.Proper (l : RegionLabels) : Prop where
  texts : ∀ label ∈ l.all, ∃ s, label = .str s ∧ Text.strip s = s ∧ s ≠ ""
  distinct : l.all.Nodup

theorem Config.default_labels_proper : Config.default.labels.Proper where
  texts := by
    simp only [RegionLabels.all, Config.default, List.mem_cons, List.not_mem_nil, or_false]
    rintro label (rfl | rfl | rfl | rfl)
    all_goals exact ⟨_, rfl, by decide +kernel, by decide +kernel⟩
  distinct := by simp [RegionLabels.all, Config.default]

namespace Config

theorem tidy_of_someUntidy {labels : List Json} (h : someUntidy labels = .ok false) :
    ∀ label ∈ labels, ∃ s, label = .str s ∧ Text.strip s = s ∧ s ≠ "" := by
  induction labels with
  | nil => simp
  | cons v rest ih =>
    cases v with
    | str s =>
      by_cases untidy : isUntidy s = true
      · simp [someUntidy, Json.asText?, untidy, bind, Except.bind, pure, Except.pure] at h
      · simp only [someUntidy, Json.asText?, bind, Except.bind, untidy] at h
        intro label mem
        rcases List.mem_cons.mp mem with rfl | mem
        · simp only [isUntidy, Bool.or_eq_true, decide_eq_true_eq, String.isEmpty_iff, not_or,
            Classical.not_not] at untidy
          exact ⟨s, rfl, untidy.1.symm, untidy.2⟩
        · exact ih h label mem
    | _ => simp [someUntidy, Json.asText?, bind, Except.bind] at h

theorem nodup_of_someEqual {labels : List Json} (texts : ∀ label ∈ labels, ∃ s, label = .str s)
    (h : Json.someEqual labels = false) : labels.Nodup := by
  induction labels with
  | nil => exact List.nodup_nil
  | cons v rest ih =>
    simp only [Json.someEqual, Bool.or_eq_false_iff, List.any_eq_false] at h
    refine List.nodup_cons.mpr ⟨fun mem => ?_, ih (fun label m => texts label (.tail _ m)) h.2⟩
    obtain ⟨s, rfl⟩ := texts v List.mem_cons_self
    exact h.1 _ mem (by simp [Json.equals, Json.key?])

/-- Labels that are not warned about are proper. -/
theorem proper_of_warnings {c : Config} (h : c.warnings = .ok []) : c.labels.Proper := by
  unfold warnings at h
  cases cased : namesCase c.propertyCase with
  | error e => simp [cased, bind, Except.bind] at h
  | ok cased' =>
    cases few : belowOne c.maxWorkers with
    | error e => simp [cased, few, bind, Except.bind] at h
    | ok few' =>
      simp only [cased, few, bind, Except.bind] at h
      split at h
      · simp at h
      · cases untidy : someUntidy c.labels.all with
        | error e => simp [untidy] at h
        | ok untidy' =>
          cases ext : c.customExtension.asText? "startswith" with
          | error e => simp [untidy, ext] at h
          | ok ext' =>
            simp only [untidy, ext, pure, Except.pure, Except.ok.injEq, List.append_eq_nil_iff] at h
            obtain ⟨⟨⟨⟨_, _⟩, equal⟩, notTidy⟩, _⟩ := h
            have noWarning : ∀ condition message, warningIf condition message = [] →
                condition = false := by
              intro condition message none_
              cases condition <;> simp [warningIf] at none_ ⊢
            rw [noWarning _ _ notTidy] at untidy
            have texts := tidy_of_someUntidy untidy
            exact ⟨texts, nodup_of_someEqual (fun label mem => (texts label mem).imp fun s hs => hs.1)
              (noWarning _ _ equal)⟩

end Config

namespace RegionLabels

variable {l : RegionLabels}

@[simp] theorem beginOf_mem_all (l : RegionLabels) (kind : RegionKind) : l.beginOf kind ∈ l.all := by
  cases kind <;> simp [beginOf, all]

@[simp] theorem endOf_mem_all (l : RegionLabels) (kind : RegionKind) : l.endOf kind ∈ l.all := by
  cases kind <;> simp [endOf, all]

namespace Proper

open Region

theorem begin_ne_end (h : l.Proper) (kind other : RegionKind) : l.beginOf kind ≠ l.endOf other := by
  have := h.distinct
  simp only [all, List.nodup_cons, List.mem_cons, not_or] at this
  cases kind <;> cases other <;> grind [beginOf, endOf]

theorem begin_ne_begin (h : l.Proper) {kind other : RegionKind} (ne : kind ≠ other) :
    l.beginOf kind ≠ l.beginOf other := by
  have := h.distinct
  simp only [all, List.nodup_cons, List.mem_cons, not_or] at this
  cases kind <;> cases other <;> grind [beginOf]

theorem end_ne_end (h : l.Proper) {kind other : RegionKind} (ne : kind ≠ other) :
    l.endOf kind ≠ l.endOf other := by
  have := h.distinct
  simp only [all, List.nodup_cons, List.mem_cons, not_or] at this
  cases kind <;> cases other <;> grind [endOf]

theorem str_text (h : l.Proper) {label : Json} (mem : label ∈ l.all) : .str label.text = label := by
  obtain ⟨s, rfl, _⟩ := h.texts label mem
  rfl

/-- A label stands on the line that is written for it. -/
theorem holds_text (h : l.Proper) {label : Json} (mem : label ∈ l.all) :
    holdsLabel label label.text = true := by
  obtain ⟨s, rfl, hs, _⟩ := h.texts label mem
  simp [holdsLabel, Json.text, hs]

/-- No other label stands on the line that is written for a label. -/
theorem not_holds_text (h : l.Proper) {label other : Json} (mem : label ∈ l.all)
    (mem' : other ∈ l.all) (ne : label ≠ other) : holdsLabel label other.text = false := by
  obtain ⟨s, rfl, hs, _⟩ := h.texts label mem
  obtain ⟨s', rfl, hs', _⟩ := h.texts other mem'
  have : s' ≠ s := by
    rintro rfl
    exact ne rfl
  simp [holdsLabel, Json.text, hs', this]

theorem not_beginOf_beginOf (h : l.Proper) {kind other : RegionKind} (ne : kind ≠ other) :
    holdsLabel (l.beginOf kind) (l.beginOf other).text = false :=
  h.not_holds_text (l.beginOf_mem_all kind) (l.beginOf_mem_all other) (h.begin_ne_begin ne)

theorem not_endOf_beginOf (h : l.Proper) (kind other : RegionKind) :
    holdsLabel (l.endOf kind) (l.beginOf other).text = false :=
  h.not_holds_text (l.endOf_mem_all kind) (l.beginOf_mem_all other) (h.begin_ne_end other kind).symm

theorem not_endOf_endOf (h : l.Proper) {kind other : RegionKind} (ne : kind ≠ other) :
    holdsLabel (l.endOf kind) (l.endOf other).text = false :=
  h.not_holds_text (l.endOf_mem_all kind) (l.endOf_mem_all other) (h.end_ne_end ne)

/-- A line with a label is not blank. -/
theorem not_blank_of_holds (h : l.Proper) {label : Json} (mem : label ∈ l.all) {line : String}
    (holds : holdsLabel label line = true) : Text.isBlankLine line = false := by
  obtain ⟨s, rfl, _, hne⟩ := h.texts label mem
  cases blank : Text.isBlankLine line
  · rfl
  · have : Text.strip line = s := by simpa [holdsLabel] using holds
    exact absurd (this.symm.trans (Text.strip_of_isBlankLine blank)) hne

end Proper

end RegionLabels

namespace Region

/-- Is some label on a line? -/
def isLabelLine (l : RegionLabels) (line : String) : Bool := l.all.any fun label => holdsLabel label line

theorem not_holds_of_not_isLabelLine {l : RegionLabels} {line : String}
    (h : isLabelLine l line = false) {label : Json} (mem : label ∈ l.all) :
    holdsLabel label line = false := by
  simpa using List.any_eq_false.mp h label mem

theorem splitAtLabel_eq_none {label : Json} {lines : List String} :
    splitAtLabel label lines = none ↔ ∀ line ∈ lines, holdsLabel label line = false := by
  induction lines with
  | nil => simp [splitAtLabel]
  | cons line rest ih =>
    by_cases h : holdsLabel label line = true
    · simp [splitAtLabel, h]
    · simp only [Bool.not_eq_true] at h
      simp [splitAtLabel, h, ih]

theorem splitAtLabel_append {label : Json} {before : List String} {line : String}
    (free : ∀ x ∈ before, holdsLabel label x = false) (holds : holdsLabel label line = true)
    (after : List String) :
    splitAtLabel label (before ++ line :: after) = some (before, after) := by
  induction before with
  | nil => simp [splitAtLabel, holds]
  | cons first before ih =>
    have hf := free first List.mem_cons_self
    have tail := ih fun x hx => free x (List.mem_cons_of_mem _ hx)
    simp [splitAtLabel, hf, tail]

theorem splitAtLabel_eq_some {label : Json} {lines before after : List String} :
    splitAtLabel label lines = some (before, after) ↔
      ∃ line, lines = before ++ line :: after ∧ holdsLabel label line = true ∧
        ∀ x ∈ before, holdsLabel label x = false := by
  constructor
  · intro h
    induction lines generalizing before with
    | nil => simp [splitAtLabel] at h
    | cons first rest ih =>
      by_cases hf : holdsLabel label first = true
      · simp only [splitAtLabel, hf, if_true, Option.some.injEq, Prod.mk.injEq] at h
        obtain ⟨rfl, rfl⟩ := h
        exact ⟨first, rfl, hf, by simp⟩
      · simp only [splitAtLabel, hf, Bool.false_eq_true, if_false, Option.map_eq_some_iff] at h
        obtain ⟨⟨b, a⟩, hb, heq⟩ := h
        simp only [Prod.mk.injEq] at heq
        obtain ⟨rfl, rfl⟩ := heq
        obtain ⟨line, rfl, holds, free⟩ := ih hb
        refine ⟨line, rfl, holds, ?_⟩
        intro x hx
        rcases List.mem_cons.mp hx with rfl | hx
        · simpa using hf
        · exact free x hx
  · rintro ⟨line, rfl, holds, free⟩
    exact splitAtLabel_append free holds after

variable {first last : Json}

theorem search_of_split {lines before after : List String}
    (split : splitAtLabel first lines = some (before, after)) :
    search first last lines =
      match splitAtLabel last after with
      | none => .unclosed
      | some (inner, _) => .found inner := by
  cases inside : splitAtLabel last after <;> simp [search, split, inside]

/-- Lines without the begin label can stand before a file without any effect. -/
theorem search_append_of_free {before : List String}
    (free : ∀ x ∈ before, holdsLabel first x = false) (lines : List String) :
    search first last (before ++ lines) = search first last lines := by
  have split : splitAtLabel first (before ++ lines) =
      (splitAtLabel first lines).map fun parts => (before ++ parts.1, parts.2) := by
    induction before with
    | nil => cases h : splitAtLabel first lines <;> simp [h]
    | cons line before ih =>
      have hl := free line List.mem_cons_self
      have tail := ih fun x hx => free x (List.mem_cons_of_mem _ hx)
      rw [List.cons_append, splitAtLabel, hl, tail]
      cases splitAtLabel first lines <;> simp
  rw [search, split, search]
  cases splitAtLabel first lines <;> rfl

theorem search_absent_iff {lines : List String} :
    search first last lines = .absent ↔ ∀ x ∈ lines, holdsLabel first x = false := by
  rw [← splitAtLabel_eq_none]
  unfold search
  cases splitAtLabel first lines with
  | none => simp
  | some parts => cases h : splitAtLabel last parts.2 <;> simp [h]

/-- Of what follows the begin label the lines before the end label are found. -/
theorem search_cons {line : String} (holds : holdsLabel first line = true) (rest : List String) :
    search first last (line :: rest) =
      match splitAtLabel last rest with
      | none => .unclosed
      | some (inner, _) => .found inner :=
  search_of_split (show splitAtLabel first (line :: rest) = some ([], rest) by
    simp [splitAtLabel, holds])

theorem search_closed {line : String} (holds : holdsLabel first line = true) {inner : List String}
    (free : ∀ x ∈ inner, holdsLabel last x = false) {close : String}
    (closes : holdsLabel last close = true) (after : List String) :
    search first last (line :: (inner ++ close :: after)) = .found inner := by
  rw [search_cons holds, splitAtLabel_append free closes]

/-- The search finds what stands between the first begin label and the first end label after it. -/
theorem search_found_iff {lines inner : List String} :
    search first last lines = .found inner ↔
      ∃ before open_ close after, lines = before ++ open_ :: (inner ++ close :: after) ∧
        (∀ x ∈ before, holdsLabel first x = false) ∧ holdsLabel first open_ = true ∧
        (∀ x ∈ inner, holdsLabel last x = false) ∧ holdsLabel last close = true := by
  constructor
  · intro h
    unfold search at h
    split at h
    · simp at h
    · rename_i before rest hsplit
      split at h
      · simp at h
      · rename_i found after hclose
        obtain ⟨open_, rfl, holds, free⟩ := splitAtLabel_eq_some.mp hsplit
        obtain ⟨close, rfl, closes, inside⟩ := splitAtLabel_eq_some.mp hclose
        simp only [Search.found.injEq] at h
        subst h
        exact ⟨before, open_, close, after, rfl, free, holds, inside, closes⟩
  · rintro ⟨before, open_, close, after, rfl, free, holds, inside, closes⟩
    rw [search_append_of_free free, search_closed holds inside closes]

end Region

end Scaffold
