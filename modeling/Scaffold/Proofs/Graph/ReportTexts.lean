import Mathlib.Data.List.Nodup
import Scaffold.Proofs.Graph.Reports
import Scaffold.Proofs.Graph.WellFormed
import Scaffold.Proofs.Import

/-!
The texts of reports. They all end alike. Where names are plain, the short name of the type and the name of the
property can be read from the text; so only types of one short name can be reported with one text.
-/

namespace Scaffold

theorem Diagnostic.exists_text_eq (d : Diagnostic) : ∃ front, d.text = front ++ d.message := by
  unfold text
  split
  · exact ⟨d.source.text ++ ": ", rfl⟩
  · exact ⟨"", (String.empty_append).symm⟩

namespace Metadata.Provider

variable {p : Provider} {t owner : RawType} {known known' : List (String × Declared)} {c : Declared}

theorem mem_of_mem_addProperties {field : String × Declared} {qs : List RawProperty}
    (added : addProperties owner known qs = .ok known') (mem : field ∈ known') :
    field ∈ known ∨ field.2.property ∈ qs := by
  induction qs generalizing known with
  | nil =>
    obtain rfl := Except.ok.inj added
    exact .inl mem
  | cons q rest ih =>
    obtain ⟨declaring, _, added⟩ := exists_of_bind_eq_ok added
    rcases ih added with earlier | later
    · rcases Fields.mem_put earlier with earlier | rfl
      · exact .inl earlier
      · exact .inr List.mem_cons_self
    · exact .inr (List.mem_cons_of_mem q later)

theorem mem_of_mem_addOwners {field : String × Declared} {owners : List RawType}
    (added : addOwners known owners = .ok known') (mem : field ∈ known') :
    field ∈ known ∨ ∃ owner ∈ owners, field.2.property ∈ owner.properties := by
  induction owners generalizing known with
  | nil =>
    obtain rfl := Except.ok.inj added
    exact .inl mem
  | cons first rest ih =>
    obtain ⟨more, here, added⟩ := exists_of_bind_eq_ok added
    rcases ih added with earlier | ⟨owner, memOwner, declares⟩
    · rcases mem_of_mem_addProperties here earlier with earlier | declares
      · exact .inl earlier
      · exact .inr ⟨first, List.mem_cons_self, declares⟩
    · exact .inr ⟨owner, List.mem_cons_of_mem first memOwner, declares⟩

/-- What is collected for a type is a property of a type of the document. -/
theorem exists_owner {collected : List Declared} (mem : t ∈ p.types) (h : p.properties t = .ok collected)
    (memC : c ∈ collected) : ∃ owner ∈ p.types, c.property ∈ owner.properties := by
  obtain ⟨known, added, rfl⟩ := exists_of_map_eq_ok h
  obtain ⟨field, memField, rfl⟩ := List.mem_map.mp memC
  rcases mem_of_mem_addOwners added memField with none_ | ⟨owner, memOwner, declares⟩
  · cases none_
  · refine ⟨owner, ?_, declares⟩
    rcases List.mem_cons.mp (List.mem_reverse.mp memOwner) with rfl | above
    · exact mem
    · exact mem_of_mem_basesFrom above

/-- The names of types hold no dot and no space, and those of properties no space. -/
structure IsPlainlyNamed (p : Provider) : Prop where
  types : ∀ t ∈ p.types, '.' ∉ t.name.toList ∧ ' ' ∉ t.name.toList
  properties : ∀ t ∈ p.types, ∀ q ∈ t.properties, ' ' ∉ q.name.toList

theorem IsPlainlyNamed.collected (plain : p.IsPlainlyNamed) {collected : List Declared} (mem : t ∈ p.types)
    (h : p.properties t = .ok collected) (memC : c ∈ collected) : ' ' ∉ c.property.name.toList := by
  obtain ⟨owner, memOwner, declares⟩ := exists_owner mem h memC
  exact plain.properties owner memOwner _ declares

end Metadata.Provider

namespace Graph

open Metadata

variable {p : Provider} {t u : RawType} {c c' : Provider.Declared} {d e : Diagnostic} {text : String}

/-- A text that ends as the reports of properties do. -/
def EndsAsReport (text : String) : Prop := ∃ front, text = front ++ "); property skipped"

/-- A text with another ending is none of a report. -/
theorem not_endsAsReport (front : String) {ending : String}
    (apart : ending.toList.isSuffixOf "); property skipped".toList = false ∧
      "); property skipped".toList.isSuffixOf ending.toList = false) : ¬ EndsAsReport (front ++ ending) := by
  rintro ⟨before, same⟩
  have chars := congrArg String.toList same
  rw [String.toList_append, String.toList_append] at chars
  have suffix : "); property skipped".toList <:+ front.toList ++ ending.toList := ⟨_, chars.symm⟩
  rcases List.suffix_or_suffix_of_suffix (List.suffix_append front.toList ending.toList) suffix with inside | inside
  · rw [List.isSuffixOf_iff_suffix.mpr inside] at apart
    cases apart.1
  · rw [List.isSuffixOf_iff_suffix.mpr inside] at apart
    cases apart.2

/-- The text of a report: the names of the type and of the property, and what is wrong with it. -/
theorem exists_of_report (h : report? t c = some d) :
    ∃ message, d = ⟨.str (t.name ++ "." ++ c.property.name), message⟩ ∧
      d.text = t.name ++ "." ++ c.property.name ++ ": " ++ message ∧ EndsAsReport d.text := by
  obtain ⟨why, -, rfl⟩ := Option.map_eq_some_iff.mp h
  have isSet : (Json.str (t.name ++ "." ++ c.property.name)).isSet = true := by simp [Json.isSet]
  refine ⟨_, rfl, by rw [Diagnostic.text, if_pos isSet]; rfl, ?_⟩
  obtain ⟨front, eq⟩ := Diagnostic.exists_text_eq
    ⟨.str (t.name ++ "." ++ c.property.name), why.message ++ " (" ++ c.property.typeName ++ "); property skipped"⟩
  exact ⟨front ++ (why.message ++ " (" ++ c.property.typeName), by rw [eq]; simp only [String.append_assoc]⟩

theorem exists_of_mem_reports (mem : d ∈ reports p t) :
    ∃ collected, p.properties t = .ok collected ∧ ∃ c ∈ collected, report? t c = some d := by
  have model : d ∈ ((p.properties t).toOption.getD []).filterMap (report? t) := by
    unfold reports at mem
    split at mem
    · exact mem
    · exact mem
    · cases mem
    · cases mem
  obtain ⟨c, memC, reported⟩ := List.mem_filterMap.mp model
  cases found : p.properties t with
  | error misfit => simp [found, Except.toOption] at memC
  | ok collected => exact ⟨collected, rfl, c, by simpa [found, Except.toOption] using memC, reported⟩

/-- The first word of a report is its source. -/
theorem exists_word_of_report (h : report? t c = some d) :
    ∃ message : List Char, d.text.toList = (t.name ++ "." ++ c.property.name ++ ":").toList ++ ' ' :: message := by
  obtain ⟨message, -, text, -⟩ := exists_of_report h
  refine ⟨message.toList, ?_⟩
  rw [text]
  simp

/-- Where the names hold no space, reports with one text are of one type's name and one property's name. -/
theorem same_of_text (nameT : '.' ∉ t.name.toList ∧ ' ' ∉ t.name.toList)
    (nameU : '.' ∉ u.name.toList ∧ ' ' ∉ u.name.toList) (nameC : ' ' ∉ c.property.name.toList)
    (nameC' : ' ' ∉ c'.property.name.toList) (reported : report? t c = some d) (reported' : report? u c' = some e)
    (same : d.text = e.text) : t.name = u.name ∧ c.property.name = c'.property.name ∧ d = e := by
  obtain ⟨_, word⟩ := exists_word_of_report reported
  obtain ⟨_, word'⟩ := exists_word_of_report reported'
  have spaceless : ' ' ∉ (t.name ++ "." ++ c.property.name ++ ":").toList := by simp [nameT, nameC]
  have spaceless' : ' ' ∉ (u.name ++ "." ++ c'.property.name ++ ":").toList := by simp [nameU, nameC']
  have words := eq_of_first spaceless spaceless' (word.symm.trans ((congrArg String.toList same).trans word'))
  have sources : t.name ++ "." ++ c.property.name = u.name ++ "." ++ c'.property.name :=
    String.append_left_inj ":" |>.mp (String.toList_inj.mp words)
  have names : t.name = u.name :=
    String.toList_inj.mp (eq_of_first (z := '.') nameT.1 nameU.1 (by simpa using congrArg String.toList sources))
  obtain ⟨message, rfl, text, -⟩ := exists_of_report reported
  obtain ⟨message', rfl, text', -⟩ := exists_of_report reported'
  rw [text, text', sources, String.append_right_inj] at same
  rw [names, String.append_right_inj] at sources
  rw [names, sources, same]
  exact ⟨rfl, rfl, rfl⟩

/-- The texts of all reports of a document, type by type. -/
def reportTexts (p : Provider) : List String := (p.generated.flatMap (reports p)).map (·.text)

theorem endsAsReport_of_mem (mem : text ∈ reportTexts p) : EndsAsReport text := by
  obtain ⟨d, memD, rfl⟩ := List.mem_map.mp mem
  obtain ⟨t, _, reported⟩ := List.mem_flatMap.mp memD
  obtain ⟨_, _, c, _, found⟩ := exists_of_mem_reports reported
  obtain ⟨_, _, _, ends⟩ := exists_of_report found
  exact ends

theorem mem_types_of_mem_generated (mem : t ∈ p.generated) : t ∈ p.types := by
  have accepted : t ∈ candidates p fun _ => true := List.mem_filter.mpr ⟨mem, rfl⟩
  exact mem_types_of_mem_candidates accepted

/-- Where the names are plain, the first word of each report ends with a colon. -/
theorem exists_word_of_mem (plain : p.IsPlainlyNamed) (mem : text ∈ reportTexts p) :
    ∃ source message : List Char, ' ' ∉ source ∧ text.toList = source ++ [':'] ++ ' ' :: message := by
  obtain ⟨d, memD, rfl⟩ := List.mem_map.mp mem
  obtain ⟨t, memT, reported⟩ := List.mem_flatMap.mp memD
  obtain ⟨_, collected, c, memC, found⟩ := exists_of_mem_reports reported
  obtain ⟨message, word⟩ := exists_word_of_report found
  have memT := mem_types_of_mem_generated memT
  refine ⟨(t.name ++ "." ++ c.property.name).toList, message, ?_, word.trans (by simp)⟩
  simp [plain.types t memT, plain.collected memT collected memC]

/-- Where the names are plain, the reports of one type have texts of their own. -/
theorem nodup_texts (plain : p.IsPlainlyNamed) (memT : t ∈ p.types) : ((reports p t).map (·.text)).Nodup := by
  unfold reports
  split
  iterate 2
    cases collected : p.properties t with
    | error misfit => exact .nil
    | ok declared =>
      rw [List.Nodup, List.pairwise_map, List.pairwise_filterMap]
      have names := List.pairwise_map.mp (Provider.nodup_properties collected)
      refine names.imp_of_mem fun memC memC' apart d reported e reported' same => apart ?_
      exact (same_of_text (plain.types t memT) (plain.types t memT) (plain.collected memT collected memC)
        (plain.collected memT collected memC') reported reported' same).2.1
  · exact .nil
  · exact .nil

/-- Where the names are plain, texts of two types are the same only if the types are of one name and a report is. -/
theorem disjoint_texts (plain : p.IsPlainlyNamed) (memT : t ∈ p.types) (memU : u ∈ p.types) :
    ((reports p t).map (·.text)).Disjoint ((reports p u).map (·.text)) ↔
      (t.name = u.name → (reports p t).Disjoint (reports p u)) := by
  constructor
  · intro apart _ d memD memE
    exact apart (List.mem_map_of_mem memD) (List.mem_map_of_mem memE)
  · intro apart text inT inU
    obtain ⟨d, memD, rfl⟩ := List.mem_map.mp inT
    obtain ⟨e, memE, same⟩ := List.mem_map.mp inU
    obtain ⟨_, collected, c, memC, found⟩ := exists_of_mem_reports memD
    obtain ⟨_, collected', c', memC', found'⟩ := exists_of_mem_reports memE
    obtain ⟨names, -, rfl⟩ := same_of_text (plain.types t memT) (plain.types u memU)
      (plain.collected memT collected memC) (plain.collected memU collected' memC') found found' same.symm
    exact apart names memD memE

/-- Where the names are plain, a text is reported twice only for types of one name. -/
theorem nodup_reportTexts (plain : p.IsPlainlyNamed) : (reportTexts p).Nodup ↔
    p.generated.Pairwise fun t u => t.name = u.name → (reports p t).Disjoint (reports p u) := by
  rw [reportTexts, List.map_flatMap, List.nodup_flatMap]
  have each (t : RawType) (mem : t ∈ p.generated) : ((reports p t).map (·.text)).Nodup :=
    nodup_texts plain (mem_types_of_mem_generated mem)
  rw [and_iff_right each]
  exact List.Pairwise.iff_of_mem fun memT memU =>
    disjoint_texts plain (mem_types_of_mem_generated memT) (mem_types_of_mem_generated memU)

end Graph

end Scaffold
