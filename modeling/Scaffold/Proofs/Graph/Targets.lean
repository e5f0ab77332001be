import Scaffold.Proofs.Graph.Keys
import Scaffold.Proofs.Graph.WellFormed

/-!
What properties refer to. The table of names that is made before the types are described and the graph that is
made of them afterwards give every key the same meaning, whatever names clash.
-/

namespace Scaffold.Graph

open Metadata

variable {document : Json} {p : Provider} {accepted : List RawType} {versions : List Json}
  {accepts : RawType → Bool} {t : RawType} {g : TypeGraph} {d : TypeDescriptor} {q : PropertyDescriptor}

theorem sketch?_eq_some (h : sketch? p versions t = some d) :
    (describe p [] versions t).result = .ok (some d) := by
  unfold sketch? Outcome.found? at h
  cases described : (describe p [] versions t).result with
  | error misfit =>
    rw [described] at h
    cases h
  | ok found =>
    rw [described] at h
    exact congrArg Except.ok h

/-- A sketch has the names of its type. -/
theorem names_sketch (h : sketch? p versions t = some d) : d.names = rawNames t := by
  have described := sketch?_eq_some h
  obtain ⟨_, name, _⟩ := describe_eq_ok described
  rw [TypeDescriptor.names, name, qualifiedName_of_describe described, rawNames]

/-- An accepted type that can be sketched at all has a sketch. -/
theorem exists_sketch (mem : t ∈ candidates p accepts) (can : CanSketch p versions t) :
    ∃ d, sketch? p versions t = some d := by
  obtain ⟨found, described⟩ := can
  cases found with
  | none => exact absurd described (describe_ne_none mem)
  | some d => exact ⟨d, by rw [sketch?, Outcome.found?, described]; rfl⟩

theorem names_linked (all : ∀ t ∈ accepted, ∃ d, sketch? p versions t = some d)
    (others : List RawType) :
    (((accepted.filterMap (sketch? p versions)).map (·.linkedTo others)).map (·.names)) =
      accepted.map rawNames := by
  induction accepted with
  | nil => rfl
  | cons t rest ih =>
    obtain ⟨⟨d, sketched⟩, later⟩ := List.forall_mem_cons.mp all
    rw [List.filterMap_cons_some sketched, List.map_cons, List.map_cons, ih later, List.map_cons,
      ← names_sketch sketched]
    rfl

/-- In the graph of some types a name means the type that it refers to among them. -/
theorem elementKey?_eq_get? (extracted : (extract p versions accepts).result = .ok g) (key : String) :
    elementKey? (candidates p accepts) key = (g.get? key).map (·.qualifiedName) := by
  obtain ⟨all, rfl⟩ := extract_eq_ok_iff.mp extracted
  rw [linkedGraph, TypeGraph.qualifiedName_get?_ofList, elementKey?_eq,
    names_linked fun t mem => exists_sketch mem (all t mem)]

/-- The properties of an extracted graph are linked to the accepted types. -/
theorem elementType_of_extracted (extracted : (extract p versions accepts).result = .ok g)
    (mem : d ∈ g.descriptors) (memQ : q ∈ d.properties) :
    q.elementType = q.elementName.bind (elementType? (candidates p accepts)) := by
  obtain ⟨_, rfl⟩ := extract_eq_ok_iff.mp extracted
  obtain ⟨sketch, _, rfl⟩ := List.mem_map.mp (TypeGraph.mem_of_mem_ofList mem)
  obtain ⟨unlinked, _, rfl⟩ := List.mem_map.mp memQ
  rfl

/-- In a graph of a document the type of an element is the one that its clean name means in the graph, and none
where it means nothing. So whatever a property refers to is found in the graph. A well-formed document has such
a graph. -/
theorem references_never_dangle (document : Json) (versions : List Json) (accepts : RawType → Bool) :
    (∀ p, Provider.ofJson document = .ok p → p.IsWellFormed →
      ∃ g, (extractDocument document versions accepts).result = .ok g) ∧
    ∀ g, (extractDocument document versions accepts).result = .ok g →
      ∀ d ∈ g.descriptors, ∀ q ∈ d.properties,
        (∀ e, q.elementName = some e →
          q.elementType = (g.get? (cleanName e)).map (·.qualifiedName)) ∧
        ∀ key, q.elementType = some key → ∃ t, g.resolve? q = some t ∧ t.qualifiedName = key := by
  constructor
  · intro p read wellFormed
    obtain ⟨g, extracted⟩ := extract_ok wellFormed versions accepts
    exact ⟨g, Outcome.bind_eq_ok.mpr ⟨p, read, mapError_eq_ok.mpr extracted⟩⟩
  intro g found d mem q memQ
  obtain ⟨p, _, extracted⟩ := extractDocument_eq_ok found
  have linked := elementType_of_extracted extracted mem memQ
  have agree : ∀ e, q.elementName = some e →
      q.elementType = (g.get? (cleanName e)).map (·.qualifiedName) := by
    intro e named
    rw [linked, named, Option.bind_some, elementType?, elementKey?_eq_get? extracted]
    split
    · rename_i empty_
      subst empty_
      rfl
    · rfl
  refine ⟨agree, ?_⟩
  intro key refers
  cases named : q.elementName with
  | none =>
    rw [linked, named] at refers
    cases refers
  | some e =>
    rw [agree e named] at refers
    obtain ⟨t, meant, rfl⟩ := Option.map_eq_some_iff.mp refers
    have memT := TypeGraph.mem_of_get? meant
    have keyed : g.Keyed := by
      obtain ⟨_, rfl⟩ := extract_eq_ok_iff.mp extracted
      exact TypeGraph.keyed_ofList _
    refine ⟨t, ?_, rfl⟩
    rw [TypeGraph.resolve?, agree e named, meant]
    exact keyed.get?_qualifiedName memT (qualify_ne_empty (extracted_shape found memT).1)

/-- Two types of one qualified name, and a third with the short name of one of them. The later of the two is in
the graph; the short name means the first type that has it, and so does what is written in another way. -/
theorem references_never_dangle_clash :
    let property (name type : String) : Json :=
      .obj [("name", .str name), ("type", .str type), ("is_class", .bool true)]
    let document : Json := .obj [("types", .arr [
      .obj [("name", .str "A.B"), ("description", .str "first")],
      .obj [("name", .str "B"), ("namespace", .str "C")],
      .obj [("name", .str "B"), ("namespace", .str "A"), ("properties", .arr [
        property "Qualified" "A.B", property "Short" "System.B?", property "Other" "C.B",
        property "Gone" "A.C"])]])]
    ∃ g, (extractDocument document [] fun _ => true).result = .ok g ∧
      g.descriptors.map (·.qualifiedName) = ["A.B", "C.B"] ∧ ∃ d ∈ g.descriptors,
      d.properties.map (·.elementType) = [some "A.B", some "C.B", some "C.B", none] ∧
      (∀ q ∈ d.properties, ∀ e, q.elementName = some e →
        q.elementType = (g.get? (cleanName e)).map (·.qualifiedName)) ∧
      ∀ q ∈ d.properties, ∀ key, q.elementType = some key →
        ∃ t, g.resolve? q = some t ∧ t.qualifiedName = key := by
  intro property document
  have checked : (extractDocument document [] fun _ => true).result.toOption.any (fun g =>
      decide (g.descriptors.map (·.qualifiedName) = ["A.B", "C.B"]) && g.descriptors.any fun d =>
        decide (d.properties.map (·.elementType) = [some "A.B", some "C.B", some "C.B", none])) = true := by
    decide +kernel
  obtain ⟨g, extracted, checked⟩ := exists_ok_of_any checked
  obtain ⟨names, checked⟩ := Bool.and_eq_true_iff.mp checked
  obtain ⟨d, mem, types⟩ := List.any_eq_true.mp checked
  have agree := (references_never_dangle document [] fun _ => true).2 g extracted d mem
  exact ⟨g, extracted, of_decide_eq_true names, d, mem, of_decide_eq_true types, fun q memQ => (agree q memQ).1,
    fun q memQ => (agree q memQ).2⟩

end Scaffold.Graph
