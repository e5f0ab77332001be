import Scaffold.Metadata.Provider
import Scaffold.Proofs.Ends

/-!
How the reading of a document ends: with its types, with a report that the document is malformed, or with a failure
that is no report. Entries are read in turn, so the first that is not as it should be decides; which failure is no
report is said of the entries alone.
-/

namespace Scaffold

namespace Metadata

/-- A report says what is wrong with the document; a misfit is none. -/
def MetadataError.IsReport : MetadataError → Prop
  | .misfit _ => False
  | _ => True

/-- A value that says nothing, or that can be gone through. -/
def HoldsParts (v : Json) : Prop := v.isSet = false ∨ v.IsIterable

/-- A value can be gone through, and all that is met is fine. -/
def AreAll (fine : Json → Prop) (v : Json) : Prop := HoldsParts v ∧ ∀ part ∈ v.parts, fine part

/-- A value cannot be gone through, or something that escapes is met first. -/
def SomeEscapes (fine escapes : Json → Prop) (v : Json) : Prop :=
  ¬ HoldsParts v ∨ FirstEscapes fine escapes v.parts

def HasKey (fields : List (String × Json)) (key : String) : Prop := (Fields.get? fields key).isSome = true

/-- An object with a name and a type, whose generic arguments can be gone through. -/
def IsProperty : Json → Prop
  | .obj fields =>
    HasKey fields "name" ∧ HasKey fields "type" ∧ HoldsParts (valueOf fields "generic_arguments")
  | _ => False

/-- An entry that has both words and is no such object, or that cannot be looked into. -/
def PropertyEscapes : Json → Prop
  | .obj fields =>
    HasKey fields "name" ∧ HasKey fields "type" ∧ ¬ HoldsParts (valueOf fields "generic_arguments")
  | .arr items => items.any (· == .str "name") = true ∧ items.any (· == .str "type") = true
  | .str s => Text.contains "name" s = true ∧ Text.contains "type" s = true
  | _ => True

/-- A value that stands for a whole number. -/
def IsWhole : Json → Prop
  | .bool _ | .int _ | .real (.finite ..) => True
  | .str s => (Decimal.readInteger s).toOption.isSome = true
  | _ => False

/-- A member with a name, and with a value that stands for a whole number, if it has one. -/
def IsMember : Json → Prop
  | .obj fields => HasKey fields "name" ∧ ∀ v, Fields.get? fields "value" = some v → IsWhole v
  | _ => False

/-- A member that is no object, or whose value is infinite. -/
def MemberEscapes : Json → Prop
  | .obj fields =>
    HasKey fields "name" ∧ ∃ negative, Fields.get? fields "value" = some (.real (.infinite negative))
  | _ => True

/-- A type has a name that says something, and a kind that is known. -/
def IsNamed (fields : List (String × Json)) : Prop :=
  (valueOf fields "name").isSet = true ∧
    ∃ kind : RawKind, kind.name = Text.lower ((Fields.get? fields "kind").getD (.str "entity")).text

/-- A named type of members and properties that are fine. -/
def IsType : Json → Prop
  | .obj fields =>
    IsNamed fields ∧ AreAll IsMember (valueOf fields "members") ∧
      AreAll IsProperty (valueOf fields "properties")
  | _ => False

/-- A type that is no object, or that has a name and escapes by its members, or else by its properties. -/
def TypeEscapes : Json → Prop
  | .obj fields =>
    IsNamed fields ∧ (SomeEscapes IsMember MemberEscapes (valueOf fields "members") ∨
      AreAll IsMember (valueOf fields "members") ∧
        SomeEscapes IsProperty PropertyEscapes (valueOf fields "properties"))
  | _ => True

/-- Nothing, or a list of what is as it should be. -/
def IsListOf (ofKind : Json → Prop) (v : Json) : Prop :=
  v.isSet = false ∨ ∃ items, v = .arr items ∧ ∀ item ∈ items, ofKind item

/-- An object with a list of generic arguments, if any. What the object says is left open. -/
def IsPropertyKind : Json → Prop
  | .obj fields => IsListOf (fun _ => True) (valueOf fields "generic_arguments")
  | _ => False

/-- An object whose value, if any, is not infinite. -/
def IsMemberKind : Json → Prop
  | .obj fields => ∀ negative, Fields.get? fields "value" ≠ some (.real (.infinite negative))
  | _ => False

/-- An object with lists of members and of properties, if any. -/
def IsTypeKind : Json → Prop
  | .obj fields =>
    IsListOf IsMemberKind (valueOf fields "members") ∧ IsListOf IsPropertyKind (valueOf fields "properties")
  | _ => False

variable {α : Type} {fine escapes : Prop} {entry v : Json} {entries : List Json}

@[simp] theorem orMisfit_ok (a : α) : orMisfit (.ok a) = .ok a := rfl

theorem parts_of_not_isSet (unset : v.isSet = false) : v.parts = [] := by
  cases v <;> simp_all [Json.isSet, Json.parts, Json.items?, Except.toOption]

/-- A value holds parts or cannot be gone through. -/
theorem itemsIfSet?_cases (v : Json) : HoldsParts v ∧ v.itemsIfSet? = .ok v.parts ∨
    ¬ HoldsParts v ∧ ∃ what, v.itemsIfSet? = .error what := by
  unfold Json.itemsIfSet? HoldsParts
  cases set : v.isSet with
  | false => exact .inl ⟨.inl rfl, by simp [parts_of_not_isSet set]⟩
  | true => simpa using v.items?_cases

/-- A value is gone through, and what is met is read in turn. -/
theorem ends_parts {run : List Json → Except MetadataError (List α)} {fine escapes : Json → Prop}
    (each : ∀ entries, Ends MetadataError.IsReport (run entries) (∀ entry ∈ entries, fine entry)
      (FirstEscapes fine escapes entries)) :
    Ends MetadataError.IsReport (orMisfit v.itemsIfSet? >>= run) (AreAll fine v) (SomeEscapes fine escapes v) := by
  rcases itemsIfSet?_cases v with ⟨is, found⟩ | ⟨isNot, what, found⟩
  · rw [found]
    exact (each v.parts).congr (and_iff_right is).symm (or_iff_right (not_not_intro is)).symm
  · rw [found]
    exact (Ends.escape id).congr (iff_of_false id fun all => isNot all.1) (iff_of_true trivial (.inl isNot))

theorem ends_fields (fields : List (String × Json)) :
    Ends MetadataError.IsReport (RawProperty.ofFields fields) (HoldsParts (valueOf fields "generic_arguments"))
      (¬ HoldsParts (valueOf fields "generic_arguments")) := by
  unfold RawProperty.ofFields
  rcases itemsIfSet?_cases (valueOf fields "generic_arguments") with ⟨is, found⟩ | ⟨isNot, what, found⟩
  · rw [found]
    exact (Ends.ok _).congr (iff_of_true trivial is) (iff_of_false id (not_not_intro is))
  · rw [found]
    exact (Ends.escape id).congr (iff_of_false id isNot) (iff_of_true trivial isNot)

/-- An entry that can be looked into is read as a property if it has both words, else it is reported. -/
theorem ends_looked (entry : Json) {named typed : Bool} (name : mentions "name" entry = .ok named)
    (type : mentions "type" entry = .ok typed)
    (rest : Ends MetadataError.IsReport (match entry with
      | .obj fields => RawProperty.ofFields fields
      | other => .error (.misfit other.indexMisfit)) fine escapes) :
    Ends MetadataError.IsReport (RawProperty.ofJson entry) (named = true ∧ typed = true ∧ fine)
      (named = true ∧ typed = true ∧ escapes) := by
  have incomplete : Ends MetadataError.IsReport
      (.error (.incompleteProperty entry) : Except MetadataError RawProperty) False False := .report trivial
  unfold RawProperty.ofJson
  rw [name]
  cases named with
  | false => exact incomplete.congr (by simp) (by simp)
  | true =>
    rw [type]
    cases typed with
    | false => exact incomplete.congr (by simp) (by simp)
    | true => exact rest.congr (by simp) (by simp)

theorem ends_property (entry : Json) :
    Ends MetadataError.IsReport (RawProperty.ofJson entry) (IsProperty entry) (PropertyEscapes entry) := by
  cases entry with
  | null | bool | int | real => exact Ends.escape id
  | str s =>
    exact (ends_looked (.str s) rfl rfl (.escape id)).congr (by simp [IsProperty])
      (by simp [PropertyEscapes])
  | arr items =>
    exact (ends_looked (.arr items) rfl rfl (.escape id)).congr (by simp [IsProperty])
      (by simp only [PropertyEscapes, and_true])
  | obj fields => exact ends_looked (.obj fields) rfl rfl (ends_fields fields)

/-- A value stands for a whole number, or it does not; only of an infinite one this is no report. -/
theorem wholeNumber?_cases (v : Json) :
    IsWhole v ∧ (∃ n, wholeNumber? v = .ok (some n)) ∨ ¬ IsWhole v ∧
      ((∃ negative, v = .real (.infinite negative)) ∧ wholeNumber? v = .error .overflow ∨
        (¬ ∃ negative, v = .real (.infinite negative)) ∧ wholeNumber? v = .ok none) := by
  cases v with
  | bool b => exact .inl ⟨trivial, _, rfl⟩
  | int n => exact .inl ⟨trivial, _, rfl⟩
  | real x =>
    cases x with
    | finite => exact .inl ⟨trivial, _, rfl⟩
    | infinite negative => exact .inr ⟨id, .inl ⟨⟨negative, rfl⟩, rfl⟩⟩
    | nan => exact .inr ⟨id, .inr ⟨by simp, rfl⟩⟩
  | str s =>
    cases number : (Decimal.readInteger s).toOption with
    | some n => exact .inl ⟨by simp [IsWhole, number], n, by simp [wholeNumber?, number]⟩
    | none => exact .inr ⟨by simp [IsWhole, number], .inr ⟨by simp, by simp [wholeNumber?, number]⟩⟩
  | _ => exact .inr ⟨id, .inr ⟨by simp, rfl⟩⟩

/-- The value of a member, or else its place. -/
theorem ends_value (type : String) (entry : Json) (name : Json) (place : Nat) (found : Option Json) :
    Ends MetadataError.IsReport (do
        match ← orMisfit (wholeNumber? (found.getD (.int place))) with
        | none => .error (.invalidMember type entry)
        | some n => return (⟨name.text, n⟩ : EnumMember) : Except MetadataError EnumMember)
      (∀ v, found = some v → IsWhole v) (∃ negative, found = some (.real (.infinite negative))) := by
  cases found with
  | none => exact (Ends.ok _).congr (by simp) (by simp)
  | some v =>
    rcases wholeNumber?_cases v with
      ⟨whole, n, number⟩ | ⟨isNot, ⟨⟨negative, rfl⟩, number⟩ | ⟨finite, number⟩⟩
    · rw [Option.getD_some, number]
      refine (Ends.ok _).congr (by simpa using whole) (iff_of_false id ?_)
      rintro ⟨negative, eq⟩
      obtain rfl := Option.some.inj eq
      exact whole
    · rw [Option.getD_some, number]
      exact (Ends.escape id).congr (by simpa using isNot) (by simp)
    · rw [Option.getD_some, number]
      exact (Ends.report trivial).congr (by simpa using isNot) (by simpa using finite)

theorem ends_member (type : String) (place : Nat) (entry : Json) :
    Ends MetadataError.IsReport (EnumMember.ofJson type place entry) (IsMember entry) (MemberEscapes entry) := by
  cases entry with
  | obj fields =>
    cases named : Fields.get? fields "name" with
    | none =>
      have reported : EnumMember.ofJson type place (.obj fields) = .error (.invalidMember type (.obj fields)) := by
        simp only [EnumMember.ofJson, Json.fields?, orMisfit_ok, ok_bind, named]
      rw [reported]
      exact (Ends.report trivial).congr (by simp [IsMember, HasKey, named])
        (by simp [MemberEscapes, HasKey, named])
    | some name =>
      have valued := ends_value type (.obj fields) name place (Fields.get? fields "value")
      simp only [EnumMember.ofJson, Json.fields?, orMisfit_ok, ok_bind, named]
      exact valued.congr (by simp [IsMember, HasKey, named]) (by simp [MemberEscapes, HasKey, named])
  | _ => exact Ends.escape id

theorem ofName?_eq_some {name : String} {kind : RawKind} : RawKind.ofName? name = some kind ↔ kind.name = name := by
  unfold RawKind.ofName?
  constructor
  · intro found
    simpa using List.find?_some found
  · rintro rfl
    cases kind <;> decide

theorem ends_members (fields : List (String × Json)) :
    Ends MetadataError.IsReport (orMisfit (valueOf fields "members").itemsIfSet? >>=
      membersFrom (valueOf fields "name").text 0) (AreAll IsMember (valueOf fields "members"))
      (SomeEscapes IsMember MemberEscapes (valueOf fields "members")) :=
  ends_parts fun entries => ends_inTurn (membersFrom _) (EnumMember.ofJson _) (fun _ => rfl)
    (fun _ _ _ => rfl) (ends_member _) 0 entries

theorem ends_properties (fields : List (String × Json)) :
    Ends MetadataError.IsReport (orMisfit (valueOf fields "properties").itemsIfSet? >>=
      readAll RawProperty.ofJson) (AreAll IsProperty (valueOf fields "properties"))
      (SomeEscapes IsProperty PropertyEscapes (valueOf fields "properties")) :=
  ends_parts fun entries => ends_inTurn (fun _ => readAll RawProperty.ofJson)
    (fun _ => RawProperty.ofJson) (fun _ => rfl) (fun _ _ _ => rfl) (fun _ => ends_property) 0 entries

/-- A type without a name or of no known kind is reported, whatever its parts are. -/
theorem reported_of_unnamed {fields : List (String × Json)} (unnamed : ¬ IsNamed fields) :
    ∃ e, RawType.ofJson (.obj fields) = .error e ∧ e.IsReport := by
  cases named : (valueOf fields "name").isSet with
  | false =>
    refine ⟨.namelessType (.obj fields), ?_, trivial⟩
    simp only [RawType.ofJson, Json.fields?, orMisfit_ok, ok_bind, named]
    rfl
  | true =>
    cases known : RawKind.ofName? (Text.lower ((Fields.get? fields "kind").getD (.str "entity")).text) with
    | none =>
      refine ⟨.unknownKind (valueOf fields "name").text
        (Text.lower ((Fields.get? fields "kind").getD (.str "entity")).text), ?_, trivial⟩
      simp only [RawType.ofJson, Json.fields?, orMisfit_ok, ok_bind, named, known]
      rfl
    | some kind => exact absurd ⟨named, kind, ofName?_eq_some.mp known⟩ unnamed

theorem ends_type (entry : Json) :
    Ends MetadataError.IsReport (RawType.ofJson entry) (IsType entry) (TypeEscapes entry) := by
  cases entry with
  | obj fields =>
    by_cases isNamed : IsNamed fields
    · obtain ⟨named, kind, known⟩ := id isNamed
      refine Ends.congr ?_ (and_iff_right isNamed).symm (and_iff_right isNamed).symm
      rw [RawType.ofJson]
      simp only [Json.fields?, orMisfit_ok, ok_bind, named, ofName?_eq_some.mpr known, Bool.not_true,
        Bool.false_eq_true, if_false]
      -- the members are read before the properties, so a bad member hides a bad property
      rw [← bind_assoc]
      refine (ends_members fields).bind fun found _ => ?_
      rw [← bind_assoc]
      exact (ends_properties fields).map _
    · obtain ⟨e, reported, isReport⟩ := reported_of_unnamed isNamed
      rw [reported]
      exact (Ends.report isReport).congr (iff_of_false id fun h => isNamed h.1)
        (iff_of_false id fun h => isNamed h.1)
  | _ => exact Ends.escape id

/-- No part of the right kind escapes, so no list of them does. -/
theorem IsListOf.not_someEscapes {ofKind fine escapes : Json → Prop} (h : IsListOf ofKind v)
    (quiet : ∀ part, ofKind part → ¬ escapes part) : ¬ SomeEscapes fine escapes v := by
  have holds : HoldsParts v := by
    rcases h with unset | ⟨items, rfl, -⟩
    · exact .inl unset
    · exact .inr trivial
  rintro (isNot | ⟨before, part, after, eq, -, escaped⟩)
  · exact isNot holds
  · rcases h with unset | ⟨items, rfl, all⟩
    · rw [parts_of_not_isSet unset] at eq
      simp at eq
    · obtain rfl : items = before ++ part :: after := eq
      exact quiet part (all part (by simp)) escaped

theorem not_propertyEscapes (h : IsPropertyKind entry) : ¬ PropertyEscapes entry := by
  cases entry with
  | obj fields =>
    rintro ⟨-, -, isNot⟩
    have escaped : SomeEscapes (fun _ => True) (fun _ => False) (valueOf fields "generic_arguments") := .inl isNot
    exact h.not_someEscapes (fun _ _ => id) escaped
  | _ => exact h.elim

theorem not_memberEscapes (h : IsMemberKind entry) : ¬ MemberEscapes entry := by
  cases entry with
  | obj fields =>
    rintro ⟨-, negative, found⟩
    exact h negative found
  | _ => exact h.elim

theorem not_typeEscapes (h : IsTypeKind entry) : ¬ TypeEscapes entry := by
  cases entry with
  | obj fields =>
    rintro ⟨-, escaped | ⟨-, escaped⟩⟩
    · exact h.1.not_someEscapes (fun _ => not_memberEscapes) escaped
    · exact h.2.not_someEscapes (fun _ => not_propertyEscapes) escaped
  | _ => exact h.elim

theorem ends_typesOf (document : Json) : Ends MetadataError.IsReport (typesOf document)
    (∃ entries, document.field? "types" = some (.arr entries) ∧ ∀ entry ∈ entries, IsType entry)
    (∃ entries, document.field? "types" = some (.arr entries) ∧ FirstEscapes IsType TypeEscapes entries) := by
  unfold typesOf
  split
  · next entries found =>
    have inTurn := ends_inTurn (fun _ => readAll RawType.ofJson) (fun _ => RawType.ofJson) (fun _ => rfl)
      (fun _ _ _ => rfl) (fun _ => ends_type) 0 entries
    exact inTurn.congr (by simp [found]) (by simp [found])
  · next other =>
    have none_ (P : List Json → Prop) : ¬ ∃ entries, document.field? "types" = some (.arr entries) ∧ P entries :=
      fun ⟨entries, found, _⟩ => other entries found
    exact (Ends.report trivial).congr (iff_of_false id (none_ _)) (iff_of_false id (none_ _))

/-- A document is read just if all of its types are fine, and escapes just if a type that escapes comes after fine
ones only; all else is reported. Of types of the right kinds none escapes. -/
theorem Provider.read_or_reported_iff (document : Json) :
    ((∃ p, Provider.ofJson document = .ok p) ↔
      ∃ entries, document.field? "types" = some (.arr entries) ∧ ∀ entry ∈ entries, IsType entry) ∧
    ((∃ e, Provider.ofJson document = .error e ∧ ¬ e.IsReport) ↔
      ∃ entries, document.field? "types" = some (.arr entries) ∧ FirstEscapes IsType TypeEscapes entries) ∧
    ((∀ entries, document.field? "types" = some (.arr entries) → ∀ entry ∈ entries, IsTypeKind entry) →
      ∀ e, Provider.ofJson document = .error e → e.IsReport) := by
  have ends : Ends MetadataError.IsReport (Provider.ofJson document) _ _ :=
    (ends_typesOf document).map Provider.mk
  refine ⟨ends.read, ends.escaped, fun ofKind e failed => ?_⟩
  by_cases isReport : e.IsReport
  · exact isReport
  · obtain ⟨entries, found, before, entry, after, rfl, -, escaped⟩ := ends.escaped.mp ⟨e, failed, isReport⟩
    exact absurd escaped (not_typeEscapes (ofKind _ found entry (by simp)))

/-- A number in place of a type escapes; an object without a name in its place is reported. -/
theorem Provider.read_or_reported_number :
    Provider.ofJson (.obj [("types", .arr [.int 1])]) = .error (.misfit (.lacks "int" "get")) ∧
      (∃ e, Provider.ofJson (.obj [("types", .arr [.int 1])]) = .error e ∧ ¬ e.IsReport) ∧
      (∀ e, Provider.ofJson (.obj [("types", .arr [.obj []])]) = .error e → e.IsReport) ∧
      ¬ ∃ p, Provider.ofJson (.obj [("types", .arr [.obj []])]) = .ok p := by
  have nameless : ¬ IsType (.obj []) := fun ⟨⟨named, _⟩, _⟩ => absurd named (by decide)
  refine ⟨rfl, (read_or_reported_iff _).2.1.mpr ⟨_, rfl, [], .int 1, [], rfl, by simp, trivial⟩,
    (read_or_reported_iff _).2.2 ?_, fun ok => ?_⟩
  · rintro entries found entry mem
    obtain rfl : [.obj []] = entries := Json.arr.inj (Option.some.inj found)
    obtain rfl := List.mem_singleton.mp mem
    exact ⟨.inl rfl, .inl rfl⟩
  · obtain ⟨entries, found, all⟩ := (read_or_reported_iff _).1.mp ok
    obtain rfl : [.obj []] = entries := Json.arr.inj (Option.some.inj found)
    exact nameless (all _ (by simp))

end Metadata

end Scaffold
