import Scaffold.Proofs.Graph.Outline

/-!
Extraction in two steps. A type is sketched first, from itself and its bases alone; what its properties refer
to is then looked up among the accepted types. So only this look-up depends on what is accepted, and what is
recorded does not.
-/

namespace Scaffold.Graph

open Metadata

variable {p : Provider} {accepted : List RawType} {versions : List Json} {accepts : RawType → Bool}
  {t : RawType} {g : TypeGraph}

/-- A property that refers to the type that its element's name has among the accepted types. -/
def PropertyDescriptor.linkedTo (accepted : List RawType) (q : PropertyDescriptor) : PropertyDescriptor :=
  { q with elementType := q.elementName.bind (elementType? accepted) }

/-- A type whose properties refer to the accepted types. -/
def TypeDescriptor.linkedTo (accepted : List RawType) (d : TypeDescriptor) : TypeDescriptor :=
  { d with properties := d.properties.map (·.linkedTo accepted) }

/-- The shape of a property is found without the accepted types. -/
theorem classify_eq (accepted : List RawType) (versions : List Json) (declared : Provider.Declared) :
    classify accepted versions declared =
      (classify [] versions declared).map (Except.map (·.linkedTo accepted)) := by
  have collection (common : PropertyDescriptor) :
      classifyCollection accepted declared.property common =
        (classifyCollection [] declared.property common).map (Except.map (·.linkedTo accepted)) := by
    unfold classifyCollection
    split <;> simp [Except.map, PropertyDescriptor.linkedTo]
  -- Both sides ask the same questions in the same order.
  simp only [classify, collection, apply_ite (Except.map (Except.map (PropertyDescriptor.linkedTo accepted)))]
  simp [Except.map, PropertyDescriptor.linkedTo, commonDescriptor]

theorem describeProperty_eq (accepted : List RawType) (versions : List Json) (t : RawType) :
    describeProperty accepted versions t = fun declared =>
      (describeProperty [] versions t declared).map (Option.map (·.linkedTo accepted)) := by
  funext declared
  unfold describeProperty
  rw [classify_eq accepted]
  cases classify [] versions declared with
  | error misfit => rfl
  | ok found => cases found <;> rfl

/-- A type is described by its sketch, linked to the accepted types. -/
theorem describe_eq (p : Provider) (accepted : List RawType) (versions : List Json) (t : RawType) :
    describe p accepted versions t =
      (describe p [] versions t).map (Option.map (·.linkedTo accepted)) := by
  have properties : describeProperties p accepted versions t =
      (describeProperties p [] versions t).map (List.map (·.linkedTo accepted)) := by
    unfold describeProperties
    split
    · rfl
    · rw [Outcome.map_bind, describeProperty_eq accepted]
      congr 1
      funext declared
      exact Outcome.collect_map _ _ _
  unfold describe
  split
  · rfl
  · simp only [properties, Outcome.map_bind, Outcome.bind_map]
    rfl

/-- The sketch of a type: its descriptor before it refers to another type. -/
def sketch? (p : Provider) (versions : List Json) (t : RawType) : Option TypeDescriptor :=
  (describe p [] versions t).found?

/-- The graph of some types, each linked to the others. -/
def linkedGraph (p : Provider) (versions : List Json) (accepted : List RawType) : TypeGraph :=
  .ofList ((accepted.filterMap (sketch? p versions)).map (·.linkedTo accepted))

/-- Can a type be sketched at all? -/
def CanSketch (p : Provider) (versions : List Json) (t : RawType) : Prop :=
  ∃ found, (describe p [] versions t).result = .ok found

theorem describe_eq_ok_iff {found : Option TypeDescriptor} :
    (describe p accepted versions t).result = .ok found ↔
      CanSketch p versions t ∧ found = (sketch? p versions t).map (·.linkedTo accepted) := by
  rw [describe_eq, sketch?, Outcome.found?]
  unfold CanSketch Outcome.map
  cases (describe p [] versions t).result with
  | error misfit => simp [Except.map]
  | ok sketch => simp [Except.map, Except.toOption, eq_comm]

/-- An extraction goes through if every accepted type can be sketched; it gives the graph of these types. -/
theorem extract_eq_ok_iff : (extract p versions accepts).result = .ok g ↔
    (∀ t ∈ candidates p accepts, CanSketch p versions t) ∧
      g = linkedGraph p versions (candidates p accepts) := by
  have found (t : RawType) :
      (∃ found, (describe p (candidates p accepts) versions t).result = .ok found) ↔
        CanSketch p versions t := by
    simp [describe_eq_ok_iff]
  have sketched (t : RawType) : (describe p (candidates p accepts) versions t).found? =
      (sketch? p versions t).map (·.linkedTo (candidates p accepts)) := by
    rw [describe_eq, sketch?, Outcome.found?, Outcome.found?, Outcome.map]
    cases (describe p [] versions t).result <;> rfl
  rw [extract, Outcome.bind_eq_ok, linkedGraph, List.map_filterMap]
  simp only [Outcome.collect_eq_ok_iff, found, sketched]
  constructor
  · rintro ⟨_, ⟨all, rfl⟩, h⟩
    exact ⟨all, (Except.ok.inj h).symm⟩
  · rintro ⟨all, rfl⟩
    exact ⟨_, ⟨all, rfl⟩, rfl⟩

/-- What an extraction records is what the sketches of the accepted types leave, type by type. -/
theorem diagnostics_extract (all : ∀ t ∈ candidates p accepts, CanSketch p versions t) :
    Note.diagnostics (extract p versions accepts).notes = (candidates p accepts).flatMap fun t =>
      Note.diagnostics (describe p [] versions t).notes := by
  have each : ∀ t ∈ candidates p accepts,
      ∃ found, (describe p (candidates p accepts) versions t).result = .ok found :=
    fun t mem => ⟨_, describe_eq_ok_iff.mpr ⟨all t mem, rfl⟩⟩
  have whole := Outcome.collect_eq_ok_iff.mpr ⟨each, rfl⟩
  have notes (t : RawType) : (describe p (candidates p accepts) versions t).notes =
      (describe p [] versions t).notes := by
    rw [describe_eq]
    rfl
  rw [extract, Outcome.notes_bind whole, Outcome.notes_collect each, Note.diagnostics_append]
  simp only [notes, Note.diagnostics, List.filterMap_flatMap]
  exact List.append_nil _

end Scaffold.Graph
