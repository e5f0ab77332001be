import Scaffold.Config.Options
import Scaffold.Proofs.Config.Typed
import Scaffold.Proofs.Ends
import Scaffold.Proofs.Json.Entries
import Scaffold.Proofs.Json.Readable
import Scaffold.Proofs.Path

/-!
What a configuration takes over from the options that are given. If these are values that can be read, then so are
the options of the configuration; the unknown ones are fields, unless they are named after themselves.

When given options make a configuration, when they are refused, and when neither. The options that are turned into
something are looked at in order: the unknown ones, the path of the output, the version properties, the extensions
that may be customized. The first and the last of them fail without a refusal.
-/

namespace Scaffold.Config

open Json (ReadableFields Readable Entries)

variable {given : List (String × Json)} {c : Config} {custom : CustomOptions} {n : Nat} {v : Json}

/-- Is the option unknown? -/
def isUnknown (field : String × Json) : Bool := !knownNames.contains field.1

/-- The options that are made of what is given. -/
def madeOptions : List String := ["output_path", "version_properties", "customizable_extensions"]

/-- Is the option taken over as it is given? -/
def isKept (option : String × Json) : Bool := !madeOptions.contains option.1

/-- What a configuration takes over from given options. -/
structure TakenFrom (c : Config) (given : List (String × Json)) : Prop where
  custom : customOf given = .ok c.custom
  outputPath : c.outputPath = .working ∨ ∃ s, c.outputPath = Path.ofText s
  versionProperties : listOption ((Fields.get? given "version_properties").getD (.arr default.versionProperties)) =
    .ok c.versionProperties
  formatter : c.formatter = formatterOf ((Fields.get? given formatterOption).getD .null)
  kept : c.options.filter isKept =
    (default.options.filter isKept).map fun option => (option.1, (Fields.get? given option.1).getD option.2)

theorem pathOption_eq_ok {path : Path} (h : pathOption v = .ok path) : ∃ s, path = Path.ofText s := by
  cases v with
  | str s => exact ⟨s, (Except.ok.inj h).symm⟩
  | _ => cases h

theorem takenFrom_of_ofGiven (h : ofGiven given = .ok c) : c.TakenFrom given := by
  obtain ⟨custom, unknown, h⟩ := exists_of_bind_eq_ok h
  simp only at h
  split at h
  all_goals
    obtain ⟨path, read, h⟩ := exists_of_bind_eq_ok h
    obtain ⟨versions, listed, h⟩ := exists_of_bind_eq_ok h
    obtain ⟨extensions, -, h⟩ := exists_of_bind_eq_ok h
    obtain ⟨small, -, h⟩ := exists_of_bind_eq_ok h
    obtain rfl := Except.ok.inj h
    have start : path = .working ∨ ∃ s, path = Path.ofText s := by
      first
      | exact .inr (pathOption_eq_ok read)
      | exact .inl (Except.ok.inj read).symm
    exact ⟨unknown, start, listed, rfl, rfl⟩

theorem readable_mappingValue {fields : List (String × String)} (distinct : (fields.map (·.1)).Nodup) :
    Readable (n + 1) (mappingValue fields) := by
  refine .obj (by simpa [List.map_map, Function.comp_def] using distinct) fun field mem => ?_
  obtain ⟨_, -, rfl⟩ := List.mem_map.mp mem
  exact .str _

theorem readable_texts {l : List String} : Readable (n + 1) (.arr (l.map .str)) := by
  refine .arr fun item mem => ?_
  obtain ⟨_, -, rfl⟩ := List.mem_map.mp mem
  exact .str _

theorem default_readable : ∀ option ∈ default.options, Readable (n + 1) option.2 := by
  have mapping {fields : List (String × String)} (distinct : (fields.map (·.1)).Nodup) :
      Readable (n + 1) (mappingValue fields) := readable_mappingValue distinct
  simp only [options, default, List.forall_mem_cons]
  refine ⟨.str _, mapping (by decide), .str _, .str _, mapping (by decide), .str _, mapping (by decide), .str _,
    .str _, .str _, .str _, ?_, .str _, .str _, .str _, .str _, .str _, readable_texts, .bool _, .str _, .bool _,
    .int (by decide), List.forall_mem_nil _⟩
  exact .arr (List.forall_mem_singleton.mpr (.str _))

/-- The options of a configuration can be read if those that are given can be. -/
theorem TakenFrom.readable (h : c.TakenFrom given) (each : ReadableFields (n + 1) given) :
    ∀ option ∈ c.options, Readable (n + 1) option.2 := by
  intro option mem
  have default_ (name : String) (value : Json) (mem : (name, value) ∈ default.options) :=
    each.getD name (default_readable (n := n) _ mem)
  by_cases kept : isKept option = true
  · have mem := List.mem_filter.mpr ⟨mem, kept⟩
    rw [h.kept] at mem
    obtain ⟨⟨name, value⟩, memDefault, rfl⟩ := List.mem_map.mp mem
    exact default_ name value (List.mem_of_mem_filter memDefault)
  · have others : c.options.filter (fun option => !isKept option) = [("output_path", .str c.outputPath.text),
        ("version_properties", .arr c.versionProperties),
        ("customizable_extensions", .arr (c.customizableExtensions.map .str))] := rfl
    have mem := (List.mem_filter (p := fun option => !isKept option)).mpr ⟨mem, by simpa using kept⟩
    rw [others] at mem
    simp only [List.mem_cons, List.not_mem_nil, or_false] at mem
    rcases mem with rfl | rfl | rfl
    · exact .str _
    · have given := default_ "version_properties" (.arr default.versionProperties) (by simp [options])
      exact Json.readable_items given (mapError_eq_ok.mp h.versionProperties)
    · exact readable_texts

/-- The unknown options of a configuration are fields. -/
theorem TakenFrom.exists_fields (h : c.TakenFrom given) (each : ReadableFields n given)
    (fits : ∀ v, Fields.get? given customOption = some v → ∃ fields, v = .obj fields) :
    ∃ unknown, c.custom = .entries (.ofFields unknown) ∧ ReadableFields n unknown := by
  have nested : ∃ fields, (Fields.get? given customOption).getD (.obj []) = .obj fields ∧ ReadableFields n fields := by
    cases found : Fields.get? given customOption with
    | none => exact ⟨[], rfl, List.nodup_nil, List.forall_mem_nil _⟩
    | some v =>
      obtain ⟨fields, rfl⟩ := fits v found
      have readable := each.get? found
      cases n with
      | zero => cases readable
      | succ n => exact ⟨fields, rfl, readable.fields.1, fun field mem => (readable.fields.2 field mem).mono (by omega)⟩
  obtain ⟨fields, nested, readable⟩ := nested
  have taken := h.custom
  simp only [customOf, nested] at taken
  split at taken
  · exact ⟨fields, (Except.ok.inj taken).symm, readable⟩
  · refine ⟨_, ?_, readable.merge (each.filter isUnknown)⟩
    rw [← Entries.merge_ofFields]
    exact (Except.ok.inj taken).symm

/-- Without an option of that name, the unknown options are all there is. -/
theorem customOf_of_none (absent : Fields.get? given customOption = none) (distinct : (given.map (·.1)).Nodup) :
    customOf given = .ok (.entries (.ofFields (given.filter isUnknown))) := by
  have nested : (Fields.get? given customOption).getD (.obj []) = .obj [] := by rw [absent]; rfl
  simp only [customOf, nested]
  split
  · rename_i none_
    have none_ : given.filter isUnknown = [] := List.isEmpty_iff.mp none_
    rw [none_]
    rfl
  · change Except.ok (CustomOptions.entries ((Entries.ofFields []).merge (.ofFields (given.filter isUnknown)))) = _
    rw [Entries.merge_ofFields, Fields.nil_merge (distinct.sublist (List.filter_sublist.map _))]

/-- The unknown options under their own name do not hold themselves. -/
theorem get?_customOf_ne (found : Fields.get? given customOption = some v) (h : customOf given = .ok custom) :
    custom.get? customOption ≠ .ok (some v) := by
  intro holds
  have nested : (Fields.get? given customOption).getD (.obj []) = v := by rw [found]; rfl
  simp only [customOf, nested] at h
  split at h
  · obtain rfl := Except.ok.inj h
    cases v with
    | obj fields =>
      exact Entries.ne_of_mem_ofJson? (v := .obj fields) rfl (Entries.mem_of_get? (Except.ok.inj holds)) rfl
    | _ => cases holds
  · obtain ⟨entries, listed, h⟩ := exists_of_bind_eq_ok h
    obtain rfl := Except.ok.inj h
    have known : customOption ∉ (given.filter isUnknown).map (·.1) := by
      intro mem
      obtain ⟨field, mem, name⟩ := List.mem_map.mp mem
      have unknown := (List.mem_filter.mp mem).2
      simp [isUnknown, name, knownNames] at unknown
    have holds : Entries.get? (entries.merge (.ofFields (given.filter isUnknown))) (.str customOption) = some v :=
      Except.ok.inj holds
    rw [Entries.get?_merge_of_notMem entries known] at holds
    exact Entries.ne_of_mem_ofJson? (mapError_eq_ok.mp listed) (Entries.mem_of_get? holds) rfl

end Scaffold.Config

namespace Scaffold

namespace Json

/-- Can the value be a key? -/
def IsKey : Json → Prop
  | .arr _ | .obj _ => False
  | _ => True

/-- Two parts, of which the first can be a key. -/
def IsPair (v : Json) : Prop := v.IsIterable ∧ ∃ key value, v.parts = [key, value] ∧ key.IsKey

/-- An object, or what is gone through as pairs. -/
def GivesEntries : Json → Prop
  | .obj _ => True
  | v => v.IsIterable ∧ ∀ part ∈ v.parts, part.IsPair

/-- A pair is taken as one, and nothing else is. -/
theorem ends_pair? (place : Nat) (v : Json) :
    Ends (fun _ => False) (Entries.pair? place v) v.IsPair (¬ v.IsPair) := by
  have refused (what : Misfit) (isNot : ¬ v.IsPair) :
      Ends (fun _ => False) (.error what : Except Misfit (Json × Json)) v.IsPair (¬ v.IsPair) :=
    (Ends.escape id).congr (iff_of_false id isNot) (iff_of_true trivial isNot)
  unfold Entries.pair?
  rcases v.items?_cases with ⟨is, found⟩ | ⟨isNot, what, found⟩
  · rw [found]
    rcases parts : v.parts with _ | ⟨key, _ | ⟨value, _ | ⟨third, more⟩⟩⟩
    · exact refused _ fun ⟨_, _, _, two, _⟩ => by simp [parts] at two
    · exact refused _ fun ⟨_, _, _, two, _⟩ => by simp [parts] at two
    · have keyed : v.IsPair ↔ key.IsKey := by
        simp only [IsPair, is, parts, true_and]
        exact ⟨fun ⟨_, _, same, isKey⟩ => (List.cons.inj same).1 ▸ isKey, fun isKey => ⟨key, value, rfl, isKey⟩⟩
      rw [keyed]
      cases key with
      | arr | obj => exact (Ends.escape id).congr (iff_of_false id id) (iff_of_true trivial id)
      | _ => exact (Ends.ok _).congr (iff_of_true trivial trivial) (by simp [IsKey])
    · exact refused _ fun ⟨_, _, _, two, _⟩ => by simp [parts] at two
  · rw [found]
    exact refused _ fun pair => isNot pair.1

/-- A value is taken as entries just if it gives entries. -/
theorem ends_entries (v : Json) : Ends (fun _ => False) (Entries.ofJson? v) v.GivesEntries (¬ v.GivesEntries) := by
  have listed (v : Json) : Ends (fun _ => False) (do return Entries.merge [] (← Entries.pairsFrom 0 (← v.items?)))
      (v.IsIterable ∧ ∀ part ∈ v.parts, part.IsPair) (¬ (v.IsIterable ∧ ∀ part ∈ v.parts, part.IsPair)) := by
    have pairs := (ends_inTurn Entries.pairsFrom Entries.pair? (fun _ => rfl) (fun _ _ _ => rfl) ends_pair? 0
      v.parts).map (Entries.merge [])
    rcases v.items?_cases with ⟨is, found⟩ | ⟨isNot, what, found⟩
    · rw [found]
      exact pairs.congr (and_iff_right is).symm (firstEscapes_not.trans (not_congr (and_iff_right is).symm))
    · rw [found]
      exact (Ends.escape id).congr (iff_of_false id fun both => isNot both.1)
        (iff_of_true trivial fun both => isNot both.1)
  cases v with
  | obj fields => exact (Ends.ok _).congr Iff.rfl (iff_of_false id (not_not_intro trivial))
  | _ => exact listed _

end Json

namespace Config

/-- A refusal names an option that cannot be taken over; a misfit is none. -/
def OptionError.IsRefusal : OptionError → Prop
  | .invalid _ => True
  | .misfit _ => False

variable {given : List (String × Json)}

/-- The unknown options that are given under their own name. -/
def nestedOf (given : List (String × Json)) : Json := (Fields.get? given customOption).getD (.obj [])

/-- The given extensions that may be customized. -/
def extensionsOf (given : List (String × Json)) : Json :=
  (Fields.get? given "customizable_extensions").getD (.arr (default.customizableExtensions.map .str))

/-- The given version properties. -/
def versionsOf (given : List (String × Json)) : Json :=
  (Fields.get? given "version_properties").getD (.arr default.versionProperties)

/-- Nothing unknown is given, or those under their own name give entries, to which it is added. -/
def CustomFits (given : List (String × Json)) : Prop :=
  (∀ option ∈ given, isUnknown option = false) ∨ (nestedOf given).GivesEntries

/-- A path that is given is a text. -/
def PathFits (given : List (String × Json)) : Prop := ∀ v, Fields.get? given "output_path" = some v → v.IsText

/-- All that is looked at before the extensions can be taken over, and the extensions can be gone through. -/
structure ReachesExtensions (given : List (String × Json)) : Prop where
  custom : CustomFits given
  path : PathFits given
  versions : (versionsOf given).IsIterable
  extensions : (extensionsOf given).IsIterable

/-- The options make a configuration. -/
def AreOptions (given : List (String × Json)) : Prop :=
  ReachesExtensions given ∧ ∀ extension ∈ (extensionsOf given).parts, extension.IsText

/-- The unknown options cannot be put together, or one of the extensions is met that is no text. -/
def OptionsEscape (given : List (String × Json)) : Prop :=
  ¬ CustomFits given ∨ ReachesExtensions given ∧ ¬ ∀ extension ∈ (extensionsOf given).parts, extension.IsText

theorem ends_customOf (given : List (String × Json)) :
    Ends OptionError.IsRefusal (customOf given) (CustomFits given) (¬ CustomFits given) := by
  have whole : customOf given =
      if (given.filter isUnknown).isEmpty then .ok (.ofJson (nestedOf given))
      else (Json.Entries.ofJson? (nestedOf given)).mapError .misfit >>= fun entries =>
        .ok (.entries (entries.merge (.ofFields (given.filter isUnknown)))) := rfl
  have isEmpty : (given.filter isUnknown).isEmpty = true ↔ ∀ option ∈ given, isUnknown option = false := by
    simp [List.isEmpty_iff, List.filter_eq_nil_iff]
  rw [whole]
  split
  · next none_ =>
    have fits : CustomFits given := .inl (isEmpty.mp none_)
    exact (Ends.ok _).congr (iff_of_true trivial fits) (iff_of_false id (not_not_intro fits))
  · next some_ =>
    have fits : CustomFits given ↔ (nestedOf given).GivesEntries := or_iff_right (mt isEmpty.mpr some_)
    rw [fits]
    exact ((Json.ends_entries (nestedOf given)).mapError fun _ => Iff.rfl).map _

theorem ends_path (v : Json) : Ends OptionError.IsRefusal (pathOption v) v.IsText False := by
  cases v with
  | str s => exact (Ends.ok _).congr (iff_of_true trivial ⟨s, rfl⟩) Iff.rfl
  | _ => exact (Ends.report trivial).congr (iff_of_false id fun ⟨_, h⟩ => nomatch h) Iff.rfl

theorem ends_list (v : Json) : Ends OptionError.IsRefusal (listOption v) v.IsIterable False := by
  cases v with
  | arr | str | obj => exact Ends.ok _
  | _ => exact Ends.report trivial

theorem ends_extensions (l : List Json) : Ends OptionError.IsRefusal (smallExtensions l)
    (∀ extension ∈ l, extension.IsText) (¬ ∀ extension ∈ l, extension.IsText) := by
  have each (v : Json) : Ends OptionError.IsRefusal
      (((v.asText? "lower").mapError .misfit).map Text.lower : Except OptionError String) v.IsText (¬ v.IsText) := by
    cases v with
    | str s => exact (Ends.ok _).congr (iff_of_true trivial ⟨s, rfl⟩) (iff_of_false id (not_not_intro ⟨s, rfl⟩))
    | _ =>
      have other {w : Json} (h : ∀ s, w ≠ .str s) : ¬ w.IsText := fun ⟨s, same⟩ => h s same
      exact (Ends.escape id).congr (iff_of_false id (other nofun)) (iff_of_true trivial (other nofun))
  refine (ends_inTurn (fun _ => smallExtensions) (fun _ v => ((v.asText? "lower").mapError .misfit).map Text.lower)
    (fun _ => rfl) (fun _ v _ => ?_) (fun _ => each) 0 l).congr Iff.rfl firstEscapes_not
  cases v <;> rfl

theorem ends_ofGiven (given : List (String × Json)) :
    Ends OptionError.IsRefusal (ofGiven given) (AreOptions given) (OptionsEscape given) := by
  have lists (make : List Json → List String → Config) : Ends OptionError.IsRefusal
      (listOption (versionsOf given) >>= fun versions => listOption (extensionsOf given) >>= fun extensions =>
        smallExtensions extensions >>= fun small => .ok (make versions small))
      ((versionsOf given).IsIterable ∧ (extensionsOf given).IsIterable ∧
        ∀ extension ∈ (extensionsOf given).parts, extension.IsText)
      ((versionsOf given).IsIterable ∧ (extensionsOf given).IsIterable ∧
        ¬ ∀ extension ∈ (extensionsOf given).parts, extension.IsText) := by
    have small (versions extensions : List Json) (found : listOption (extensionsOf given) = .ok extensions) :
        Ends OptionError.IsRefusal (smallExtensions extensions >>= fun small => .ok (make versions small))
          (∀ extension ∈ (extensionsOf given).parts, extension.IsText)
          (¬ ∀ extension ∈ (extensionsOf given).parts, extension.IsText) := by
      obtain rfl : (extensionsOf given).parts = extensions := by rw [Json.parts, mapError_eq_ok.mp found]; rfl
      exact (ends_extensions _).map (make versions)
    exact ((ends_list (versionsOf given)).bind fun versions _ =>
      (ends_list (extensionsOf given)).bind (small versions)).congr Iff.rfl (by rw [false_or, false_or])
  have reaches (P : Prop) : ReachesExtensions given ∧ P ↔ CustomFits given ∧ PathFits given ∧
      (versionsOf given).IsIterable ∧ (extensionsOf given).IsIterable ∧ P :=
    ⟨fun ⟨⟨custom, path, versions, extensions⟩, holds⟩ => ⟨custom, path, versions, extensions, holds⟩,
      fun ⟨custom, path, versions, extensions, holds⟩ => ⟨⟨custom, path, versions, extensions⟩, holds⟩⟩
  rw [AreOptions, OptionsEscape, reaches, reaches]
  unfold ofGiven
  cases found : Fields.get? given "output_path" with
  | none =>
    have path : PathFits given ↔ True := by simp [PathFits, found]
    simp only [path, true_and]
    exact (ends_customOf given).bind fun custom _ => lists _
  | some v =>
    have path : PathFits given ↔ v.IsText := by simp [PathFits, found]
    rw [path]
    exact ((ends_customOf given).bind fun custom _ => (ends_path v).bind fun path _ => lists _).congr Iff.rfl
      (by rw [false_or])

end Config

end Scaffold
