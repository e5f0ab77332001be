import Scaffold.Graph.Extraction
import Scaffold.Import
import Scaffold.Proofs.Action
import Scaffold.Proofs.Graph.Lookup
import Scaffold.Proofs.Metadata.Reading
import Scaffold.Proofs.Outcome

/-!
Graphs of documents. Each descriptor describes an accepted type of the document under the name that was
read for it, and each of its properties is one of the known shapes; only the shapes that refer to a type
carry the key of one.
-/

namespace Scaffold.Graph

open Metadata

variable {document : Json} {versions : List Json} {accepts : RawType → Bool} {p : Provider}
  {accepted : List RawType} {t : RawType} {g : TypeGraph} {d : TypeDescriptor}
  {q : PropertyDescriptor}

theorem extractDocument_eq_ok (h : (extractDocument document versions accepts).result = .ok g) :
    ∃ p, Provider.ofJson document = .ok p ∧ (extract p versions accepts).result = .ok g := by
  obtain ⟨p, read, h⟩ := Outcome.bind_eq_ok.mp h
  exact ⟨p, read, mapError_eq_ok.mp h⟩

/-- A descriptor of the graph describes an accepted type. -/
theorem exists_of_mem_extract (h : (extract p versions accepts).result = .ok g)
    (mem : d ∈ g.descriptors) : ∃ t ∈ candidates p accepts,
      (describe p (candidates p accepts) versions t).result = .ok (some d) := by
  obtain ⟨ds, described, h⟩ := Outcome.bind_eq_ok.mp h
  obtain ⟨_, _, h⟩ := Outcome.bind_eq_ok.mp h
  obtain rfl : TypeGraph.ofList ds = g := Except.ok.inj h
  exact Outcome.exists_of_mem_collect described (TypeGraph.mem_of_mem_ofList mem)

theorem mem_types_of_mem_candidates (mem : t ∈ candidates p accepts) : t ∈ p.types := by
  have generated := (List.mem_filter.mp mem).1
  simp only [Provider.generated, Provider.ofKind, List.mem_append, List.mem_filter] at generated
  rcases generated with (kind | kind) | kind <;> exact kind.1

/-- The descriptor of a type has its name and kind, and properties of its own and of its bases. -/
theorem describe_eq_ok (h : (describe p accepted versions t).result = .ok (some d)) :
    TypeKind.ofRaw? t.kind = some d.kind ∧ d.name = t.name ∧ d.namespace_ = t.namespace_ ∧
      (describeProperties p accepted versions t).result = .ok d.properties := by
  unfold describe at h
  split at h
  · cases h
  · rename_i kind isKind
    obtain ⟨ancestors, _, h⟩ := Outcome.bind_eq_ok.mp h
    obtain ⟨properties, described, h⟩ := Outcome.bind_eq_ok.mp h
    obtain rfl := Option.some.inj (Except.ok.inj h)
    exact ⟨isKind, rfl, rfl, described⟩

theorem qualifiedName_of_describe (h : (describe p accepted versions t).result = .ok (some d)) :
    d.qualifiedName = t.qualifiedName := by
  obtain ⟨_, name, namespace_, _⟩ := describe_eq_ok h
  rw [TypeDescriptor.qualifiedName, name, namespace_]
  rfl

theorem exists_of_mem_describeProperties {qs : List PropertyDescriptor}
    (h : (describeProperties p accepted versions t).result = .ok qs) (mem : q ∈ qs) :
    ∃ declared, classify accepted versions declared = .ok (.ok q) := by
  unfold describeProperties at h
  split at h
  · obtain rfl := Except.ok.inj h
    cases mem
  · obtain ⟨declared, _, h⟩ := Outcome.bind_eq_ok.mp h
    obtain ⟨one, _, described⟩ := Outcome.exists_of_mem_collect h mem
    refine ⟨one, ?_⟩
    unfold describeProperty at described
    split at described
    · cases described
    · rename_i found classified
      obtain rfl := Option.some.inj (Except.ok.inj described)
      exact classified
    · cases described

/-- Only a reference carries a key. -/
theorem refers_of_classify {declared : Provider.Declared}
    (h : classify accepted versions declared = .ok (.ok q)) (some_ : q.elementType ≠ none) :
    Import.refers q.valueKind = true := by
  have collection : ∀ common, classifyCollection accepted declared.property common = .ok (.ok q) →
      Import.refers q.valueKind = true := by
    intro common h
    unfold classifyCollection at h
    split at h
    · cases h
    · obtain rfl := Except.ok.inj (Except.ok.inj h)
      cases declared.property.isGenericList <;> rfl
    · cases h
  unfold classify at h
  simp only at h
  split at h
  · obtain rfl := Except.ok.inj (Except.ok.inj h)
    rfl
  · split at h
    · exact collection _ h
    · -- The other shapes differ in their kinds, and all but the last are without a key.
      split at h
      · obtain rfl := Except.ok.inj (Except.ok.inj h)
        exact absurd rfl some_
      · split at h
        · obtain rfl := Except.ok.inj (Except.ok.inj h)
          exact absurd rfl some_
        · split at h
          · obtain rfl := Except.ok.inj (Except.ok.inj h)
            exact absurd rfl some_
          · split at h
            · obtain rfl := Except.ok.inj (Except.ok.inj h)
              rfl
            · cases h

/-- What a graph of a document is known to be: the types have names, and what resolves is a reference. -/
theorem extracted_shape (h : (extractDocument document versions accepts).result = .ok g)
    (mem : d ∈ g.descriptors) :
    d.name ≠ "" ∧ ∀ q ∈ d.properties, ∀ t, g.resolve? q = some t → Import.refers q.valueKind = true := by
  obtain ⟨p, read, extracted⟩ := extractDocument_eq_ok h
  obtain ⟨t, memT, described⟩ := exists_of_mem_extract extracted mem
  obtain ⟨_, name, _, properties⟩ := describe_eq_ok described
  refine ⟨?_, fun q memQ target resolved => ?_⟩
  · rw [name]
    exact Provider.name_ne_empty read t (mem_types_of_mem_candidates memT)
  · obtain ⟨declared, classified⟩ := exists_of_mem_describeProperties properties memQ
    refine refers_of_classify classified ?_
    intro none_
    simp [TypeGraph.resolve?, none_] at resolved

end Scaffold.Graph
