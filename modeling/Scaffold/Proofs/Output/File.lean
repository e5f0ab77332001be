import Scaffold.Output.File
import Scaffold.Proofs.Action
import Scaffold.Proofs.Outcome
import Scaffold.Proofs.Region.Search
import Scaffold.Proofs.Text.Lines
import Scaffold.Region.File

/-!
What a file holds once it is written: the mark, the lines of the artifact, and nothing else if no formatter
changes them. It is read again as the same text.
-/

namespace Scaffold

/-- A configuration whose labels and mark can be read again: each label is a line of its own, and no line
of the mark is a label. -/
structure Config.Legible (c : Config) : Prop where
  proper : c.labels.Proper
  single : ∀ label ∈ c.labels.all, Text.isSingleLine label.text = true
  mark : c.writeHeader.isSet = true → ∀ mark, c.generatedLabel = .str mark →
    ∀ line ∈ Text.reread mark, Region.isLabelLine c.labels line = false

theorem Config.default_legible : Config.default.Legible where
  proper := Config.default_labels_proper
  single := by decide +kernel
  mark := by
    intro _ mark h
    obtain rfl := Json.str.inj h
    decide +kernel

namespace Artifact

theorem textsFrom_eq_ok {place : Nat} {lines : List Json} {texts : List String} :
    textsFrom place lines = .ok texts ↔ lines = texts.map .str := by
  induction lines generalizing place texts with
  | nil =>
    cases texts <;> simp [textsFrom]
  | cons line rest ih =>
    cases line with
    | str s =>
      cases texts with
      | nil =>
        simp only [textsFrom, List.map_nil, reduceCtorEq, iff_false]
        cases textsFrom (place + 1) rest <;> simp [bind, Except.bind, pure, Except.pure]
      | cons text texts =>
        have tail := @ih (place + 1) texts
        cases h : textsFrom (place + 1) rest <;>
          simp [textsFrom, h, ← tail, bind, Except.bind, pure, Except.pure]
    | _ => cases texts <;> simp [textsFrom]

/-- Lines make a text if they are texts. -/
theorem joined?_eq_ok {lines : List Json} {text : String} :
    joined? lines = .ok text ↔ ∃ texts, lines = texts.map .str ∧ Text.joinLines texts = text := by
  unfold joined?
  cases h : textsFrom 0 lines with
  | error e =>
    simp only [Except.map, reduceCtorEq, false_iff, not_exists, not_and]
    intro texts eq
    simp [textsFrom_eq_ok.mpr eq] at h
  | ok found =>
    obtain rfl := textsFrom_eq_ok.mp h
    have inj : ∀ a b : List String, a.map Json.str = b.map Json.str ↔ a = b := fun a b =>
      List.map_inj_right fun _ _ e => Json.str.inj e
    simp [Except.map, inj]

end Artifact

namespace Text

theorem encode?_eq_ok {s : String} {bytes : ByteArray} :
    encode? s = .ok bytes ↔ firstHalves? (fun _ => false) 0 s.toList = none ∧ encode s = bytes := by
  rw [encode?, chars_eq]
  cases firstHalves? (fun _ => false) 0 s.toList <;> simp

theorem decode_of_encode? {s : String} {bytes : ByteArray} (h : encode? s = .ok bytes) :
    decode bytes = .ok s := by
  rw [← (encode?_eq_ok.mp h).2, decode_encode]

/-- Texts are told apart by their bytes. -/
theorem encode?_inj {s s' : String} {bytes : ByteArray} (h : encode? s = .ok bytes) :
    encode? s' = .ok bytes ↔ s' = s := by
  constructor
  · intro h'
    have same := (decode_of_encode? h').symm.trans (decode_of_encode? h)
    simpa using same
  · rintro rfl
    exact h

end Text

namespace Output

/-- The line above the body of a file, if it is wanted. -/
def markLines (c : Config) : List Json := if c.writeHeader.isSet then [c.generatedLabel] else []

variable {c : Config} {a : Artifact} {written : ByteArray}

/-- The mark stands above what the formatter gives. -/
theorem lines_eq_ok {ls : List Json} :
    lines c a = .ok ls ↔ ∃ body, formatted c a.source = .ok body ∧ ls = markLines c ++ body := by
  unfold lines markLines
  cases formatted c a.source with
  | error e => simp [Except.map]
  | ok body => split <;> simp [Except.map, eq_comm]

theorem bytes_eq_ok (plain : c.formatter = none) :
    bytes c a = .ok written ↔ ∃ texts, markLines c ++ a.source = texts.map .str ∧
      Text.encode? (Text.joinLines texts) = .ok written := by
  have body : lines c a = .ok (markLines c ++ a.source) := by
    simp only [lines, formatted, plain, Except.map, markLines]
    split <;> rfl
  simp only [bytes, render, body, Except.bind, bind]
  cases joined : Artifact.joined? (markLines c ++ a.source) with
  | error e =>
    simp only [mapError_error, reduceCtorEq, false_iff, not_exists, not_and]
    intro texts eq
    simp [Artifact.joined?_eq_ok.mpr ⟨texts, eq, rfl⟩] at joined
  | ok text =>
    obtain ⟨texts, eq, rfl⟩ := Artifact.joined?_eq_ok.mp joined
    have only : ∀ other, markLines c ++ a.source = other.map .str ↔ other = texts := by
      intro other
      rw [eq, List.map_inj_right fun _ _ e => Json.str.inj e, eq_comm]
    simp only [mapError_ok, only, exists_eq_left]
    cases Text.encode? (Text.joinLines texts) <;> simp

theorem markLines_append {c : Config} {lines texts : List String}
    (h : markLines c ++ lines.map .str = texts.map .str) :
    ∃ mark, markLines c = mark.map .str ∧ texts = mark ++ lines := by
  obtain ⟨mark, rest, rfl, hm, hr⟩ := List.map_eq_append_iff.mp h.symm
  exact ⟨mark, hm.symm, by rw [(List.map_inj_right fun _ _ e => Json.str.inj e).mp hr]⟩

/-- No line of the mark is a label. -/
theorem not_isLabelLine_mark {c : Config} (legible : c.Legible) {mark : List String}
    (h : markLines c = mark.map .str) :
    ∀ line ∈ mark.flatMap Text.reread, Region.isLabelLine c.labels line = false := by
  unfold markLines at h
  by_cases header : c.writeHeader.isSet = true
  · rw [if_pos header] at h
    obtain ⟨text, rfl, eq⟩ := List.map_eq_singleton_iff.mp h.symm
    simpa using legible.mark header text eq.symm
  · rw [if_neg header] at h
    simp [List.map_eq_nil_iff.mp h.symm]

end Output

namespace Region

/-- A file that was written from lines is read as the lines these are read as. -/
theorem readLines_written {t : Tree} {p : Path} {texts : List String} {written : ByteArray}
    (some_ : texts ≠ []) (encoded : Text.encode? (Text.joinLines texts) = .ok written)
    (found : t.read p = .ok written) : readLines t p = .ok (texts.flatMap Text.reread) := by
  simp [readLines, readText, found, Text.decode_of_encode? encoded, Except.map,
    Text.splitLines_joinLines some_]

/-- The lines that are read are those of the text in a file. -/
theorem readLines_eq_ok {t : Tree} {p : Path} {lines : List String} : readLines t p = .ok lines ↔
    ∃ bytes text, t.read p = .ok bytes ∧ Text.decode bytes = .ok text ∧
      Text.splitLines (Text.readNewlines text) = lines := by
  unfold readLines readText
  cases t.read p with
  | error e => simp [Except.map]
  | ok bytes => cases decoded : Text.decode bytes <;> simp [Except.map, decoded]

theorem readLines_of_text {t : Tree} {p : Path} {text : String}
    (h : t.read p = .ok (Text.encode text)) :
    readLines t p = .ok (Text.splitLines (Text.readNewlines text)) :=
  readLines_eq_ok.mpr ⟨_, text, h, Text.decode_encode text, rfl⟩

theorem read_of_readLines {t : Tree} {p : Path} {lines : List String}
    (h : readLines t p = .ok lines) : ∃ bytes, t.read p = .ok bytes := by
  obtain ⟨bytes, _, found, _⟩ := readLines_eq_ok.mp h
  exact ⟨bytes, found⟩

theorem isSingleLine_of_readLines {t : Tree} {p : Path} {lines : List String}
    (h : readLines t p = .ok lines) : ∀ x ∈ lines, Text.isSingleLine x = true := by
  obtain ⟨_, _, _, _, rfl⟩ := readLines_eq_ok.mp h
  exact fun x hx => Text.isSingleLine_of_mem hx

/-- A file that can be read is its own prior file. -/
theorem priorPath?_of_read {c : Config} {t : Tree} {p : Path} {bytes : ByteArray}
    (h : t.read p = .ok bytes) : priorPath? c t p = .ok (some p) := by
  have there : t.exists? p = .ok true := by
    unfold Tree.read at h
    unfold Tree.exists? Tree.nodeAt?
    cases located : t.locate p with
    | error e => simp [located] at h
    | ok at_ =>
      simp only [located] at h ⊢
      cases node : t.node? at_ <;> simp_all [Except.map]
  simp [priorPath?, isThere, there, bind, Except.bind, pure, Except.pure]

end Region

end Scaffold
