import Scaffold.Config.File
import Scaffold.Proofs.Config.Given
import Scaffold.Proofs.Json.RoundTrip
import Scaffold.Proofs.Output.File
import Scaffold.Proofs.Text.FileLines
import Scaffold.Proofs.Tree.Changes

/-!
Configurations that are saved and loaded again. The file is read as the fields that were saved. These leave out the
labels, the line above generated files and the extensions that may be customized; and an unknown option that is named
as a known one takes its place. A configuration that has none of that is loaded as it was saved.
-/

namespace Scaffold.Config

open Json (ReadableFields Readable Entries written pieces)

variable {depth : Nat} {given unknown fields : List (String × Json)} {c : Config} {path : Path} {t : Tree}
  {ps : List String}

/-- The known options that a file keeps. -/
def savedFields (c : Config) : List (String × Json) :=
  savedOptions.map fun name => (name, (Fields.get? c.options name).getD .null)

/-- No unknown option is named as a known one. -/
def Unshadowed (c : Config) : Prop := ∀ name ∈ knownNames, c.custom.get? name = .ok none

/-- A configuration that a file can hold: its values can be read, and its unknown options are fields. -/
structure IsStorable (depth : Nat) (c : Config) (unknown : List (String × Json)) : Prop where
  custom : c.custom = .entries (.ofFields unknown)
  unknownReadable : ReadableFields depth unknown
  optionsReadable : ∀ option ∈ c.options, Readable depth option.2

theorem saved?_eq (custom : c.custom = .entries (.ofFields unknown)) :
    c.saved? = .ok (Fields.merge c.savedFields unknown) := by
  have entries : c.custom.entries? = .ok (.ofFields unknown) := by rw [custom]; rfl
  simp only [saved?, entries, bind, Except.bind]
  rw [Entries.merge_ofFields, Entries.saved_ofFields]
  rfl

theorem IsStorable.readable (h : c.IsStorable depth unknown) :
    Readable (depth + 1) (.obj (Fields.merge c.savedFields unknown)) := by
  have known : ReadableFields depth c.savedFields := by
    have names : c.savedFields.map (·.1) = savedOptions := rfl
    refine ⟨by rw [names]; decide, fun field mem => ?_⟩
    obtain ⟨name, -, rfl⟩ := List.mem_map.mp mem
    cases found : Fields.get? c.options name with
    | none => exact .null
    | some v => exact h.optionsReadable _ (Fields.mem_of_get? found)
  obtain ⟨distinct, each⟩ := known.merge h.unknownReadable
  exact .obj distinct each

/-- A file that is written without a fault holds the text of all pieces. -/
theorem bytesOf_eq (sound : (bytesOf ps).2 = none) : (bytesOf ps).1 = Text.encode (.ofList (written ps)) := by
  induction ps with
  | nil => rfl
  | cons piece rest ih =>
    unfold bytesOf at sound ⊢
    cases encoded : Text.encode? piece with
    | error e => simp [encoded] at sound
    | ok bytes =>
      simp only [encoded] at sound ⊢
      rw [ih sound, ← (Text.encode?_eq_ok.mp encoded).2, Json.written_cons, String.ofList_append, String.ofList_toList]
      exact String.toByteArray_append.symm

theorem save_eq (saved : c.saved? = .ok fields) (path : Path) :
    c.save path = (Action.change fun t =>
      (t.write path (bytesOf (pieces 0 (.obj fields))).1).mapError (save.failure path)).bind fun _ =>
        (bytesOf (pieces 0 (.obj fields))).2.elim (Action.ok ()) fun e => Action.fail (.unencodable e) := by
  unfold save
  rw [saved]
  refine (Action.ofExcept_bind _ _).trans ?_
  cases bytesOf (pieces 0 (.obj fields)) with
  | mk bytes fault => cases fault <;> rfl

/-- A configuration that is saved was written whole. -/
theorem save_eq_ok (saved : c.saved? = .ok fields) (h : (c.save path t).result = .ok ()) :
    t.write path (Text.encode (.ofList (written (pieces 0 (.obj fields))))) = .ok (c.save path t).state := by
  rw [save_eq saved] at h ⊢
  obtain ⟨_, changed, h⟩ := Action.bind_eq_ok.mp h
  rw [Action.state_bind changed]
  cases fault : (bytesOf (pieces 0 (.obj fields))).2 with
  | some e =>
    rw [fault] at h
    cases h
  | none =>
    rw [← bytesOf_eq fault]
    exact mapError_eq_ok.mp (Action.change_eq_ok changed)

/-- The text of fields is read as those fields. -/
theorem parseOptions_written (readable : Readable depth (.obj fields)) (path : Path) :
    parseOptions depth path (.ofList (written (pieces 0 (.obj fields)))) = .ok fields := by
  rw [parseOptions, Text.readNewlines_eq, String.toList_ofList,
    Text.newlines_of_notMem (Json.notMem_written readable 0), Json.parse_written readable]

/-- What is written for fields is read as those fields. -/
theorem readFile_written {u : Tree} (readable : Readable depth (.obj fields))
    (named : Text.lower path.suffix = ".json")
    (done : t.write path (Text.encode (.ofList (written (pieces 0 (.obj fields))))) = .ok u) :
    readFile depth u path = .ok fields := by
  have read := Tree.read_of_write done
  have present := Tree.exists?_of_read read
  have parsed := parseOptions_written readable path
  generalize String.ofList (written (pieces 0 (.obj fields))) = text at read parsed
  simp only [readFile, present, named, read, Text.decode_encode, mapError_ok, bind, Except.bind, Bool.not_true,
    Bool.false_eq_true, if_false, ne_eq, not_true_eq_false]
  exact parsed

/-- The configuration with its path as it is read and with the default labels, extensions that may be customized and
line above generated files. -/
def reloaded (c : Config) : Config :=
  { c with
    outputPath := Path.ofText c.outputPath.text
    labels := default.labels
    customizableExtensions := default.customizableExtensions
    generatedLabel := default.generatedLabel }

theorem smallExtensions_default :
    smallExtensions (default.customizableExtensions.map .str) = .ok default.customizableExtensions := by
  decide +kernel

theorem filter_savedFields (c : Config) : c.savedFields.filter isUnknown = [] := rfl

/-- The unknown options of the file are the unknown ones among those that were saved as such. -/
theorem filter_saved (h : c.IsStorable depth unknown) :
    (Fields.merge c.savedFields unknown).filter isUnknown = unknown.filter isUnknown := by
  have merged := Fields.filter_merge (fun name => !knownNames.contains name) c.savedFields unknown
  have distinct := h.unknownReadable.1.sublist ((List.filter_sublist (p := isUnknown)).map _)
  refine merged.trans ?_
  change Fields.merge (c.savedFields.filter isUnknown) (unknown.filter isUnknown) = _
  rw [filter_savedFields, Fields.nil_merge distinct]

theorem get?_saved (h : c.IsStorable depth unknown) {name : String} (absent : Fields.get? unknown name = none) :
    Fields.get? (Fields.merge c.savedFields unknown) name = Fields.get? c.savedFields name := by
  rw [Fields.get?_merge _ h.unknownReadable.1, absent]
  rfl

theorem ofGiven_saved (h : c.IsStorable depth unknown) (plain : c.formatter = none)
    (unshadowed : ∀ name ∈ knownNames, Fields.get? unknown name = none) :
    ofGiven (Fields.merge c.savedFields unknown) = .ok c.reloaded := by
  have known (name : String) (mem : name ∈ knownNames) := get?_saved h (unshadowed name mem)
  have custom : customOf (Fields.merge c.savedFields unknown) = .ok c.custom := by
    have kept : unknown.filter isUnknown = unknown := by
      refine List.filter_eq_self.mpr fun field mem => ?_
      have absent (mem' : field.1 ∈ knownNames) : False :=
        Fields.get?_eq_none.mp (unshadowed field.1 mem') (List.mem_map_of_mem mem)
      simpa [isUnknown] using absent
    rw [customOf_of_none (known customOption (by decide)) h.readable.fields.1, filter_saved h, kept, h.custom]
  simp only [knownNames, options, default, List.map_cons, List.map_nil, List.forall_mem_cons] at known
  simp only [ofGiven, custom, bind, Except.bind, known]
  have extensions : listOption ((Fields.get? c.savedFields "customizable_extensions").getD
      (.arr (default.customizableExtensions.map .str))) = .ok (default.customizableExtensions.map .str) := rfl
  simp only [extensions, smallExtensions_default]
  have unformatted : formatterOf ((Fields.get? c.savedFields formatterOption).getD .null) = c.formatter := plain.symm
  rw [unformatted]
  rfl

theorem unshadowed_iff (custom : c.custom = .entries (.ofFields unknown)) :
    c.Unshadowed ↔ ∀ name ∈ knownNames, Fields.get? unknown name = none := by
  have found (name : String) : c.custom.get? name = .ok (Fields.get? unknown name) := by
    rw [custom, ← Entries.get?_ofFields]
    rfl
  simp only [Unshadowed, found, Except.ok.injEq]

/-- If the unknown options are loaded as they were, none of them is named as a known one. -/
theorem unshadowed_of_customOf (h : c.IsStorable depth unknown)
    (same : customOf (Fields.merge c.savedFields unknown) = .ok c.custom) :
    ∀ name ∈ knownNames, Fields.get? unknown name = none := by
  -- in the file, an unknown option of that name stands for all unknown ones, and it does not hold itself
  have absent : Fields.get? unknown customOption = none := by
    cases found : Fields.get? unknown customOption with
    | none => rfl
    | some v =>
      have taken : Fields.get? (Fields.merge c.savedFields unknown) customOption = some v := by
        rw [Fields.get?_merge _ h.unknownReadable.1, found]
        rfl
      refine absurd ?_ (get?_customOf_ne taken same)
      rw [h.custom, ← found, ← Entries.get?_ofFields]
      rfl
  have none_ : Fields.get? (Fields.merge c.savedFields unknown) customOption = none := get?_saved h absent
  rw [customOf_of_none none_ h.readable.fields.1, filter_saved h, h.custom, Except.ok.injEq,
    CustomOptions.entries.injEq, Entries.ofFields_inj] at same
  intro name known
  rw [Fields.get?_eq_none]
  intro mem
  obtain ⟨field, there, rfl⟩ := List.mem_map.mp mem
  have kept : isUnknown field = true := List.filter_eq_self.mp same field there
  simp [isUnknown, known] at kept

/-- Without defaults and direct options, a file is loaded as the options in it. -/
theorem result_load {u : Tree} (distinct : (fields.map (·.1)).Nodup) (read : readFile depth u path = .ok fields) :
    (load depth u [] (some path) []).result = (ofGiven fields).mapError .ofOptionError := by
  have options : fileOptions depth u (some path) = ⟨[fileNote path], .ok fields⟩ := by simp only [fileOptions, read]
  rw [load, options]
  change (ofGiven (Fields.merge [] fields)).mapError _ = _
  rw [Fields.nil_merge distinct]

theorem load_saved (h : c.IsStorable depth unknown) (named : Text.lower path.suffix = ".json")
    (saved : (c.save path t).result = .ok ()) :
    (load (depth + 1) (c.save path t).state [] (some path) []).result =
      (ofGiven (Fields.merge c.savedFields unknown)).mapError .ofOptionError :=
  result_load h.readable.fields.1 (readFile_written h.readable named (save_eq_ok (saved?_eq h.custom) saved))

/-- What options of a document give can be saved. -/
theorem isStorable_of_given {text : String} (json : Json.parse (depth + 2) text = .ok (.obj given))
    (fits : ∀ v, Fields.get? given customOption = some v → ∃ fields, v = .obj fields)
    (made : ofGiven given = .ok c) : ∃ unknown, c.IsStorable (depth + 1) unknown := by
  have readable : ReadableFields (depth + 1) given := (Json.readable_of_parse json).fields
  have taken := takenFrom_of_ofGiven made
  obtain ⟨unknown, custom, each⟩ := taken.exists_fields readable fits
  exact ⟨unknown, custom, each, taken.readable readable⟩

/-- A configuration that was made of the options of a document, saved and loaded again, is the same if and only if no
unknown option is named as a known one and the labels, the line above generated files and the extensions that may be
customized are the default ones. Where only these are not, they are loaded as the default ones, and all else is the
same. The path of the output is read from its text, which is the same path unless it is the working directory. An
object in an object has to be readable: every file keeps the folders of the units so. -/
theorem saved_loads_same {text : String} {t₀ : Tree} (deep : 1 < depth)
    (json : Json.parse depth text = .ok (.obj given))
    (unformatted : Fields.get? given formatterOption = none)
    (fits : ∀ v, Fields.get? given customOption = some v → ∃ fields, v = .obj fields)
    (loaded : (load depth t₀ [] none given).result = .ok c) (named : Text.lower path.suffix = ".json")
    (saved : (c.save path t).result = .ok ()) :
    ((load depth (c.save path t).state [] (some path) []).result =
        .ok { c with outputPath := Path.ofText c.outputPath.text } ↔
      c.Unshadowed ∧ c.labels = default.labels ∧ c.generatedLabel = default.generatedLabel ∧
        c.customizableExtensions = default.customizableExtensions) ∧
    (c.Unshadowed → (load depth (c.save path t).state [] (some path) []).result = .ok c.reloaded) ∧
    (c.outputPath = .working ∨ Path.ofText c.outputPath.text = c.outputPath) := by
  obtain ⟨depth, rfl⟩ := Nat.exists_eq_add_of_le' deep
  have distinct := (Json.readable_of_parse json).nodup
  have made : ofGiven given = .ok c := by
    have made : ((ofGiven (Fields.merge [] given)).mapError ConfigFailure.ofOptionError) = .ok c := loaded
    rwa [Fields.nil_merge distinct, mapError_eq_ok] at made
  obtain ⟨unknown, storable⟩ := isStorable_of_given json fits made
  have taken := takenFrom_of_ofGiven made
  have plain : c.formatter = none := by rw [taken.formatter, unformatted]; rfl
  have reload := load_saved storable named saved
  have whole (unshadowed : c.Unshadowed) :
      (load (depth + 2) (c.save path t).state [] (some path) []).result = .ok c.reloaded := by
    rw [reload, ofGiven_saved storable plain ((unshadowed_iff storable.custom).mp unshadowed)]
    rfl
  refine ⟨⟨fun same => ?_, fun ⟨unshadowed, labels, generated, extensions⟩ => ?_⟩, whole, ?_⟩
  · have unshadowed : c.Unshadowed := by
      rw [reload, mapError_eq_ok] at same
      exact (unshadowed_iff storable.custom).mpr (unshadowed_of_customOf storable (takenFrom_of_ofGiven same).custom)
    rw [whole unshadowed] at same
    have same := Except.ok.inj same
    exact ⟨unshadowed, (congrArg labels same).symm, (congrArg generatedLabel same).symm,
      (congrArg customizableExtensions same).symm⟩
  · rw [whole unshadowed]
    simp only [reloaded, labels, generated, extensions]
  · refine taken.outputPath.imp_right ?_
    rintro ⟨s, path⟩
    rw [path, Path.ofText_text_ofText]

/-- Options with a label. -/
def labelOptions : List (String × Json) :=
  [("output_path", .str "out"), ("custom_code_begin_label", .str "//@Begin")]

/-- The configuration with that label. -/
def labelConfig : Config :=
  { default with
    outputPath := Path.ofText "out"
    labels := { default.labels with codeBegin := .str "//@Begin" } }

/-- The label is not loaded again. -/
theorem saved_loads_same_label :
    Json.parse 2 (.ofList (written (pieces 0 (.obj labelOptions)))) = .ok (.obj labelOptions) ∧
      Fields.get? labelOptions formatterOption = none ∧ Fields.get? labelOptions customOption = none ∧
      (load 2 .empty [] none labelOptions).result = .ok labelConfig ∧
      Text.lower (Path.ofText "c.json").suffix = ".json" ∧
      (labelConfig.save (Path.ofText "c.json") .empty).result = .ok () ∧
      (load 2 (labelConfig.save (Path.ofText "c.json") .empty).state [] (some (Path.ofText "c.json")) []).result ≠
        .ok labelConfig := by
  have json : Json.parse 2 (.ofList (written (pieces 0 (.obj labelOptions)))) = .ok (.obj labelOptions) :=
    Json.parse_written (.obj (by decide) (List.forall_mem_cons.mpr ⟨.str _, List.forall_mem_singleton.mpr (.str _)⟩))
  have custom : Fields.get? labelOptions customOption = none := by decide
  have made : ofGiven labelOptions = .ok labelConfig := by rfl
  have loaded : (load 2 .empty [] none labelOptions).result = .ok labelConfig :=
    congrArg (Except.mapError ConfigFailure.ofOptionError) made
  have named : Text.lower (Path.ofText "c.json").suffix = ".json" := by decide +kernel
  have saved : (labelConfig.save (Path.ofText "c.json") .empty).result = .ok () := by
    have saved : (labelConfig.save (Path.ofText "c.json") .empty).result.isOk = true := by decide +kernel
    cases result : (labelConfig.save (Path.ofText "c.json") .empty).result with
    | ok => rfl
    | error e => cases result ▸ saved
  refine ⟨json, by decide, custom, loaded, named, saved, fun same => ?_⟩
  obtain ⟨iff, -, path⟩ := saved_loads_same (by decide) json (by decide)
    (fun v found => by cases custom.symm.trans found) loaded named saved
  have kept : Path.ofText labelConfig.outputPath.text = labelConfig.outputPath := path.resolve_left (by decide)
  have labels := (iff.mp (kept.symm ▸ same)).2.1
  exact absurd (Json.str.inj (congrArg RegionLabels.codeBegin labels)) (by decide)

end Scaffold.Config
