import Scaffold.Loading.Document
import Scaffold.Proofs.Config.Given
import Scaffold.Proofs.Config.Saved

/-!
How the loading of a local file ends, for all bytes that it can hold: with a document, with settings or with a
configuration of the promised shape, with a refusal, or with a fault that no refusal covers. The faults come from the
bytes, or from options that are no configuration.
-/

namespace Scaffold

/-- A complaint tells a place in the text; a number that is too long, or too many values inside one another, do not. -/
def Json.Fault.IsComplaint : Json.Fault → Prop
  | .complaint .. => True
  | _ => False

def Json.IsObject : Json → Prop
  | .obj _ => True
  | _ => False

/-- The bytes are a value in UTF-8. -/
def HoldsValue (depth : Nat) (bytes : ByteArray) (v : Json) : Prop :=
  ∃ text, Text.decode bytes = .ok text ∧ Json.parse depth (Text.readNewlines text) = .ok v

/-- The bytes are no text in UTF-8, or the text is no value and there is no complaint about it. -/
def Faulty (depth : Nat) (bytes : ByteArray) : Prop :=
  (∃ e, Text.decode bytes = .error e) ∨
    ∃ text e, Text.decode bytes = .ok text ∧ Json.parse depth (Text.readNewlines text) = .error e ∧
      ¬ e.fault.IsComplaint

variable {depth : Nat} {t : Tree} {path : Path} {bytes : ByteArray}

/-- A file that a value is written to holds it. -/
theorem holdsValue_written {v : Json} (readable : Json.Readable depth v) :
    HoldsValue depth (Text.encode (.ofList (Json.written (Json.pieces 0 v)))) v := by
  refine ⟨_, Text.decode_encode _, ?_⟩
  rw [Text.readNewlines_eq, String.toList_ofList,
    Text.newlines_of_notMem (Json.notMem_written readable 0), Json.parse_written readable]

/-- A file is read if its text is, and escapes if it is no text or its text escapes. -/
theorem ends_bytes {ε α : Type} {IsReport : ε → Prop} {make : Text.DecodeError → ε}
    {read : String → Except ε α} {shape : Json → Prop} (unreported : ∀ e, ¬ IsReport (make e))
    (parsed : ∀ text, Ends IsReport (read text) (∃ v, Json.parse depth (Text.readNewlines text) = .ok v ∧ shape v)
      (∃ e, Json.parse depth (Text.readNewlines text) = .error e ∧ ¬ e.fault.IsComplaint)) :
    Ends IsReport ((Text.decode bytes).mapError make >>= read) (∃ v, HoldsValue depth bytes v ∧ shape v)
      (Faulty depth bytes) := by
  cases decoded : Text.decode bytes with
  | error e =>
    exact (Ends.escape (unreported e)).congr (by simp [HoldsValue, decoded]) (by simp [Faulty, decoded])
  | ok text => exact (parsed text).congr (by simp [HoldsValue, decoded]) (by simp [Faulty, decoded])

namespace Config

def ConfigFailure.IsRefusal : ConfigFailure → Prop
  | .refused _ => True
  | _ => False

theorem readFile_eq (there : t.fileAt? path = some bytes) (named : Text.lower path.suffix = ".json") :
    readFile depth t path = ((Text.decode bytes).mapError .undecodable >>= parseOptions depth path) := by
  have read := Tree.fileAt?_eq_some.mp there
  simp only [readFile, Tree.exists?_of_read read, named, read, mapError_ok, bind, Except.bind, Bool.not_true,
    Bool.false_eq_true, if_false, ne_eq, not_true_eq_false]

theorem ends_parseOptions (path : Path) (text : String) : Ends ConfigFailure.IsRefusal (parseOptions depth path text)
    (∃ v, Json.parse depth (Text.readNewlines text) = .ok v ∧ v.IsObject)
    (∃ e, Json.parse depth (Text.readNewlines text) = .error e ∧ ¬ e.fault.IsComplaint) := by
  unfold parseOptions
  cases Json.parse depth (Text.readNewlines text) with
  | error e =>
    obtain ⟨fault, _⟩ := e
    cases fault with
    | complaint => exact (Ends.report trivial).congr (by simp) (by simp [Json.Fault.IsComplaint])
    | number | tooDeep => exact (Ends.escape id).congr (by simp) (by simp [Json.Fault.IsComplaint])
  | ok v =>
    cases v with
    | obj => exact (Ends.ok _).congr (by simp [Json.IsObject]) (by simp)
    | _ => exact (Ends.report trivial).congr (by simp [Json.IsObject]) (by simp)

/-- The options in a file are those of the object that it holds. -/
theorem readFile_eq_ok (there : t.fileAt? path = some bytes) (named : Text.lower path.suffix = ".json")
    {given : List (String × Json)} : readFile depth t path = .ok given ↔ HoldsValue depth bytes (.obj given) := by
  rw [readFile_eq there named]
  cases decoded : Text.decode bytes with
  | error e => simp [HoldsValue, decoded, Except.mapError, bind, Except.bind]
  | ok text =>
    simp only [HoldsValue, decoded, Except.mapError, bind, Except.bind, parseOptions, Except.ok.injEq, exists_eq_left']
    split <;> simp_all

/-- A configuration of the options in a file. -/
theorem ends_load (there : t.fileAt? path = some bytes) (named : Text.lower path.suffix = ".json") :
    Ends ConfigFailure.IsRefusal (load depth t [] (some path) []).result
      (∃ given, HoldsValue depth bytes (.obj given) ∧ AreOptions given)
      (Faulty depth bytes ∨ ∃ given, HoldsValue depth bytes (.obj given) ∧ OptionsEscape given) := by
  have read : Ends ConfigFailure.IsRefusal (readFile depth t path)
      (∃ v, HoldsValue depth bytes v ∧ v.IsObject) (Faulty depth bytes) := by
    rw [readFile_eq there named]
    exact ends_bytes (fun _ => id) (ends_parseOptions path)
  have same : (load depth t [] (some path) []).result =
      readFile depth t path >>= fun given => (ofGiven given).mapError .ofOptionError := by
    cases found : readFile depth t path with
    | error e => simp [load, fileOptions, found, Outcome.fail, Outcome.bind, bind, Except.bind]
    | ok given =>
      obtain ⟨text, -, parsed⟩ := (readFile_eq_ok there named).mp found
      exact result_load (Json.readable_of_parse parsed).nodup found
  rw [same]
  refine (read.andThen fun given _ => (ends_ofGiven given).mapError fun e => by cases e <;> rfl).congr ?_ ?_
  · exact exists_congr fun given => and_congr_left' (readFile_eq_ok there named)
  · exact or_congr_right (exists_congr fun given => and_congr_left' (readFile_eq_ok there named))

end Config

namespace Loading

def LoadFailure.IsRefusal : LoadFailure → Prop
  | .refused _ => True
  | _ => False

/-- An object with a list of types. -/
def HasTypes : Json → Prop
  | .obj fields => ∃ entries, Fields.get? fields "types" = some (.arr entries)
  | _ => False

/-- A list, or an object with a list of settings. -/
def HasSettings (v : Json) : Prop := ∃ entries, entriesOf? v = some entries

variable {source : String} {network : Network}

theorem result_bind {ε α β : Type} (x : Outcome ε α) (f : α → Outcome ε β) :
    (x >>= f).result = x.result >>= fun a => (f a).result := by
  change (x.bind f).result = _
  unfold Outcome.bind
  cases x.result <;> rfl

/-- The value of a text, which a complaint refuses. -/
def valueIn (depth : Nat) (path : Path) (text : String) : Except LoadFailure Json :=
  (Json.parse depth (Text.readNewlines text)).mapError fun e =>
    match e.fault with
    | .number e => .number e
    | .tooDeep => .tooDeep
    | .complaint .. => .refused (.invalidJson path e)

theorem result_readValue (there : t.fileAt? path = some bytes) :
    (readValue depth t path).result = ((Text.decode bytes).mapError .undecodable >>= valueIn depth path) := by
  have read := Tree.fileAt?_eq_some.mp there
  cases decoded : Text.decode bytes with
  | error e =>
    have none_ : Region.readText t path = .error (.undecodable e) := by simp only [Region.readText, read, decoded]
    rw [readValue, none_]
    rfl
  | ok text =>
    have found : Region.readText t path = .ok (Text.readNewlines text) := by
      simp only [Region.readText, read, decoded]
    simp only [readValue, found, mapError_ok, ok_bind, valueIn]
    cases Json.parse depth (Text.readNewlines text) with
    | error e =>
      obtain ⟨fault, _⟩ := e
      cases fault <;> rfl
    | ok v => rfl

theorem ends_valueIn (path : Path) (text : String) : Ends LoadFailure.IsRefusal (valueIn depth path text)
    (∃ v, Json.parse depth (Text.readNewlines text) = .ok v ∧ True)
    (∃ e, Json.parse depth (Text.readNewlines text) = .error e ∧ ¬ e.fault.IsComplaint) := by
  have parsed : Ends (fun e : Json.ParseError => e.fault.IsComplaint) (Json.parse depth (Text.readNewlines text)) _ _ :=
    ⟨Iff.rfl, Iff.rfl⟩
  refine (parsed.mapError fun ⟨fault, _⟩ => ?_).congr (by simp) Iff.rfl
  cases fault <;> rfl

/-- The value that is read is the one that the file holds. -/
theorem readValue_eq_ok (there : t.fileAt? path = some bytes) {v : Json} :
    (readValue depth t path).result = .ok v ↔ HoldsValue depth bytes v := by
  rw [result_readValue there]
  cases decoded : Text.decode bytes with
  | error e => simp [HoldsValue, decoded, Except.mapError, bind, Except.bind]
  | ok text => simp [HoldsValue, decoded, bind, Except.bind, valueIn, mapError_eq_ok]

/-- A document from a local file is its value. -/
theorem result_load (there : t.fileAt? (Path.ofText source) = some bytes) (isLocal : remote? source = .ok false) :
    (load depth network t source).result =
      (readValue depth t (Path.ofText source)).result >>= fun v => .ok ((Path.ofText source).text, v) := by
  have isThere := Tree.exists?_of_read (Tree.fileAt?_eq_some.mp there)
  have looked : (prepareFile t (Path.ofText source)).result = .ok () := by
    unfold prepareFile
    rw [isThere, result_bind, result_bind]
    by_cases named : Text.lower (Path.ofText source).suffix = ".json"
    · rw [if_neg (not_not_intro named)]
      rfl
    · rw [if_pos named]
      rfl
  have prepared : (prepare t source).result = .ok () := by
    rw [prepare, result_bind, isLocal]
    simp only [Outcome.ofExcept, mapError_ok, ok_bind, Bool.not_false, if_true]
    exact looked
  have read : (readDocument depth network t source).result = (readFile depth t (Path.ofText source)).result := by
    rw [readDocument, result_bind, isLocal]
    simp only [Outcome.ofExcept, mapError_ok, ok_bind, Bool.false_eq_true, if_false]
  rw [load, result_bind, prepared]
  refine read.trans ?_
  rw [readFile, result_bind]
  rfl

/-- What is made of the document in a local file ends as the document allows. -/
theorem ends_used (depth : Nat) (network : Network) {α : Type} {use : String × Json → Except LoadFailure α}
    {shape : Json → Prop} (there : t.fileAt? (Path.ofText source) = some bytes) (notRemote : remote? source ≠ .ok true)
    (used : ∀ document, Ends LoadFailure.IsRefusal (use document) (shape document.2) False) :
    Ends LoadFailure.IsRefusal (load depth network t source >>= fun document => Outcome.ofExcept (use document)).result
      (remote? source = .ok false ∧ ∃ v, HoldsValue depth bytes v ∧ shape v)
      (remote? source ≠ .ok false ∨ Faulty depth bytes) := by
  cases asked : remote? source with
  | error e =>
    have unasked : (load depth network t source >>= fun document => Outcome.ofExcept (use document)).result =
        .error (.address e) := by
      rw [result_bind, load, prepare, asked]
      rfl
    rw [unasked]
    exact (Ends.escape id).congr (by simp) (by simp)
  | ok isRemote =>
    cases isRemote with
    | true => exact absurd asked notRemote
    | false =>
      have read : Ends LoadFailure.IsRefusal (readValue depth t (Path.ofText source)).result
          (∃ v, HoldsValue depth bytes v ∧ True) (Faulty depth bytes) := by
        rw [result_readValue there]
        exact ends_bytes (fun _ => id) (ends_valueIn _)
      rw [result_bind, result_load there asked, bind_assoc]
      refine (read.andThen fun v _ => used ((Path.ofText source).text, v)).congr ?_ (by simp)
      rw [and_iff_right rfl]
      exact exists_congr fun v => and_congr_left' (readValue_eq_ok there)

/-- What is loaded from a local file is made of its value. -/
theorem exists_value_of_used {α : Type} {use : String × Json → Except LoadFailure α} {a : α}
    (there : t.fileAt? (Path.ofText source) = some bytes) (isLocal : remote? source = .ok false)
    (loaded : (load depth network t source >>= fun document => Outcome.ofExcept (use document)).result = .ok a) :
    ∃ document, HoldsValue depth bytes document.2 ∧ use document = .ok a := by
  rw [result_bind, result_load there isLocal] at loaded
  obtain ⟨document, made, used⟩ := exists_of_bind_eq_ok loaded
  obtain ⟨v, read, same⟩ := exists_of_bind_eq_ok made
  obtain rfl := Except.ok.inj same
  exact ⟨_, (readValue_eq_ok there).mp read, used⟩

theorem isList_types {v : Json} : isList ((v.field? "types").getD .null) = true ↔ HasTypes v := by
  cases v with
  | obj fields =>
    simp only [Json.field?, HasTypes]
    cases Fields.get? fields "types" with
    | none => simp [isList]
    | some v => cases v <;> simp [isList]
  | _ => simp [Json.field?, isList, HasTypes]

theorem ends_metadataOf (document : String × Json) :
    Ends LoadFailure.IsRefusal (metadataOf document) (HasTypes document.2) False := by
  unfold metadataOf
  split
  · next listed => exact (Ends.ok _).congr (iff_of_true trivial (isList_types.mp listed)) Iff.rfl
  · next unlisted => exact (Ends.report trivial).congr (iff_of_false id (mt isList_types.mpr unlisted)) Iff.rfl

theorem ends_settingsOf (document : String × Json) :
    Ends LoadFailure.IsRefusal (settingsOf document) (HasSettings document.2) False := by
  unfold settingsOf HasSettings
  cases entriesOf? document.2 with
  | some entries => exact (Ends.ok _).congr (by simp) Iff.rfl
  | none => exact (Ends.report trivial).congr (by simp) Iff.rfl

/-- For all bytes of a local file, loading it as a document with types, as settings or as a configuration gives a
value of the promised shape or refuses the file, unless the bytes are faulty, the name of the file is no address, or
the options in it escape. How deep a value can be read does not count. -/
theorem contained_unless_faulty (depth : Nat) (network : Network) {t : Tree} {source : String} {bytes : ByteArray}
    (there : t.fileAt? (Path.ofText source) = some bytes) (notRemote : remote? source ≠ .ok true) :
    Ends LoadFailure.IsRefusal (loadMetadata depth network t source).result
      (remote? source = .ok false ∧ ∃ v, HoldsValue depth bytes v ∧ HasTypes v)
      (remote? source ≠ .ok false ∨ Faulty depth bytes) ∧
    Ends LoadFailure.IsRefusal (loadSettings depth network t source).result
      (remote? source = .ok false ∧ ∃ v, HoldsValue depth bytes v ∧ HasSettings v)
      (remote? source ≠ .ok false ∨ Faulty depth bytes) ∧
    (Text.lower (Path.ofText source).suffix = ".json" →
      Ends Config.ConfigFailure.IsRefusal (Config.load depth t [] (some (Path.ofText source)) []).result
        (∃ given, HoldsValue depth bytes (.obj given) ∧ Config.AreOptions given)
        (Faulty depth bytes ∨ ∃ given, HoldsValue depth bytes (.obj given) ∧ Config.OptionsEscape given)) ∧
    (∀ document, (loadMetadata depth network t source).result = .ok document →
      HoldsValue depth bytes document ∧ HasTypes document) ∧
    (∀ entries, (loadSettings depth network t source).result = .ok entries →
      ∃ v, HoldsValue depth bytes v ∧ entriesOf? v = some entries) := by
  have metadata := ends_used depth network there notRemote ends_metadataOf
  have settings := ends_used depth network there notRemote ends_settingsOf
  refine ⟨metadata, settings, Config.ends_load there, fun document loaded => ?_, fun entries loaded => ?_⟩
  · obtain ⟨isLocal, -⟩ := metadata.read.mp ⟨_, loaded⟩
    obtain ⟨found, holds, used⟩ := exists_value_of_used there isLocal loaded
    unfold metadataOf at used
    split at used
    · next listed =>
      obtain rfl := Except.ok.inj used
      exact ⟨holds, isList_types.mp listed⟩
    · cases used
  · obtain ⟨isLocal, -⟩ := settings.read.mp ⟨_, loaded⟩
    obtain ⟨found, holds, used⟩ := exists_value_of_used there isLocal loaded
    unfold settingsOf at used
    split at used
    · next entries' found =>
      obtain rfl := Except.ok.inj used
      exact ⟨_, holds, found⟩
    · cases used

/-- Options with a number as an extension. -/
def faultyOptions : List (String × Json) := [("customizable_extensions", .arr [.int 1])]

def faultyBytes : ByteArray := Text.encode (.ofList (Json.written (Json.pieces 0 (.obj faultyOptions))))

/-- A file of one byte that begins no character, and one of those options. -/
def faultyTree : Tree :=
  (Tree.empty.put ["m.json"] (.file ⟨#[0xff]⟩)).put ["c.json"] (.file faultyBytes)

def offline : Network := fun _ => .failed .timeout ""

/-- The byte escapes as a document, as settings and as a configuration, the number as a configuration. -/
theorem contained_unless_faulty_byte :
    faultyTree.fileAt? (Path.ofText "m.json") = some ⟨#[0xff]⟩ ∧ remote? "m.json" ≠ .ok true ∧
      Text.lower (Path.ofText "m.json").suffix = ".json" ∧
      (∃ e, (loadMetadata 2 offline faultyTree "m.json").result = .error e ∧ ¬ e.IsRefusal) ∧
      (∃ e, (loadSettings 2 offline faultyTree "m.json").result = .error e ∧ ¬ e.IsRefusal) ∧
      (∃ e, (Config.load 2 faultyTree [] (some (Path.ofText "m.json")) []).result = .error e ∧ ¬ e.IsRefusal) ∧
      (∃ e, (Config.load 2 faultyTree [] (some (Path.ofText "c.json")) []).result = .error e ∧ ¬ e.IsRefusal) := by
  have byte : faultyTree.fileAt? (Path.ofText "m.json") = some ⟨#[0xff]⟩ := by decide +kernel
  have number : faultyTree.fileAt? (Path.ofText "c.json") =
      some faultyBytes := by decide +kernel
  have local_ : remote? "m.json" ≠ .ok true := by decide +kernel
  have localNumber : remote? "c.json" ≠ .ok true := by decide +kernel
  have faulty : Faulty 2 ⟨#[0xff]⟩ := by
    have undecodable : (Text.decode ⟨#[0xff]⟩).isOk = false := by decide +kernel
    exact .inl (exists_error_of_isOk undecodable)
  have options : Config.OptionsEscape faultyOptions := by
    refine .inr ⟨⟨.inl (by decide), fun v found => ?_, trivial, trivial⟩, fun all => ?_⟩
    · cases found
    · have first : .int 1 ∈ (Config.extensionsOf faultyOptions).parts := List.mem_singleton.mpr rfl
      cases (all _ first).choose_spec
  have holds : HoldsValue 2 faultyBytes (.obj faultyOptions) := by
    refine holdsValue_written (.obj (by decide) (List.forall_mem_singleton.mpr ?_))
    exact .arr (List.forall_mem_singleton.mpr (.int (by decide)))
  obtain ⟨metadata, settings, config, -⟩ := contained_unless_faulty 2 offline byte local_
  obtain ⟨-, -, configNumber, -⟩ := contained_unless_faulty 2 offline number localNumber
  exact ⟨byte, local_, by decide +kernel, metadata.escaped.mpr (.inr faulty), settings.escaped.mpr (.inr faulty),
    (config (by decide +kernel)).escaped.mpr (.inl faulty),
    (configNumber (by decide +kernel)).escaped.mpr (.inr ⟨_, holds, options⟩)⟩

end Loading

end Scaffold
