import Scaffold.Proofs.Graph.Reports
import Scaffold.Proofs.Graph.Targets

/-!
Documents that list the same types in another order. Where no two types share a key, what a type is described
as does not depend on where it stands, so that the graphs hold the same types under the same keys.
-/

namespace Scaffold.Graph

open Metadata

variable {p q : Provider} {accepted accepted' : List RawType} {versions : List Json}
  {accepts : RawType → Bool} {t : RawType} {d : TypeDescriptor} {g : TypeGraph}

theorem candidates_perm (perm : q.types.Perm p.types) (accepts : RawType → Bool) :
    (candidates q accepts).Perm (candidates p accepts) := by
  have ofKind (kind : RawKind) : (q.ofKind kind).Perm (p.ofKind kind) := perm.filter _
  exact (((ofKind .entity).append (ofKind .view)).append (ofKind .enumeration)).filter _

theorem keysApart_candidates (apart : KeysApart RawType.isNamed p.types) (accepts : RawType → Bool) :
    KeysApart RawType.isNamed (candidates p accepts) :=
  apart.subset fun _ => mem_types_of_mem_candidates

/-- Among the same types, in whatever order, a name refers to the same. -/
theorem elementType?_of_perm (apart : KeysApart RawType.isNamed accepted)
    (perm : accepted'.Perm accepted) : elementType? accepted' = elementType? accepted := by
  have apart' : KeysApart RawType.isNamed accepted' := apart.subset fun _ => perm.mem_iff.mp
  funext written
  unfold elementType?
  split
  · rfl
  · ext found
    rw [elementKey?_eq_some_iff apart', elementKey?_eq_some_iff apart]
    simp only [perm.mem_iff]

/-- The sketch of a type does not depend on the order of the types. -/
theorem describe_of_perm (perm : q.types.Perm p.types) (apart : KeysApart RawType.isNamed p.types)
    (accepted : List RawType) (versions : List Json) (t : RawType) :
    describe q accepted versions t = describe p accepted versions t := by
  simp only [describe, describeProperties, Provider.ancestors_of_perm perm apart,
    Provider.properties_of_perm perm apart]

theorem sketch?_of_perm (perm : q.types.Perm p.types) (apart : KeysApart RawType.isNamed p.types) :
    sketch? q versions = sketch? p versions := by
  funext t
  rw [sketch?, sketch?, describe_of_perm perm apart]

theorem reports_of_perm (perm : q.types.Perm p.types) (apart : KeysApart RawType.isNamed p.types) :
    reports q = reports p := by
  funext t
  rw [reports, reports, Provider.properties_of_perm perm apart]

/-- A sketch goes by the keys of its type. -/
theorem isNamed_sketch (h : sketch? p versions t = some d) (key : String) :
    d.isNamed key = t.isNamed key := by
  obtain ⟨name, qualified⟩ := Prod.mk.inj (names_sketch h)
  rw [TypeDescriptor.isNamed, name, qualified, RawType.isNamed]

/-- Descriptors of types with keys apart have keys apart. -/
theorem keysApart_linked (apart : KeysApart RawType.isNamed accepted) (others : List RawType) :
    KeysApart TypeDescriptor.isNamed
      ((accepted.filterMap (sketch? p versions)).map (·.linkedTo others)) := by
  intro d memD e memE key namedD namedE
  obtain ⟨sketch, memSketch, rfl⟩ := List.mem_map.mp memD
  obtain ⟨sketch', memSketch', rfl⟩ := List.mem_map.mp memE
  obtain ⟨t, memT, sketched⟩ := List.mem_filterMap.mp memSketch
  obtain ⟨u, memU, sketched'⟩ := List.mem_filterMap.mp memSketch'
  have namedT : t.isNamed key = true := (isNamed_sketch sketched key).symm.trans namedD
  have namedU : u.isNamed key = true := (isNamed_sketch sketched' key).symm.trans namedE
  obtain rfl : t = u := apart t memT u memU key namedT namedU
  obtain rfl : sketch = sketch' := Option.some.inj (sketched.symm.trans sketched')
  rfl

/-- Graphs of the same types, in whatever order, with keys apart. -/
theorem TypeGraph.ofList_of_perm {ds ds' : List TypeDescriptor}
    (apart : KeysApart TypeDescriptor.isNamed ds) (perm : ds'.Perm ds) :
    (∀ key, (ofList ds').get? key = (ofList ds).get? key) ∧
      (ofList ds').descriptors.Perm (ofList ds).descriptors := by
  have apart' : KeysApart TypeDescriptor.isNamed ds' := apart.subset fun _ => perm.mem_iff.mp
  constructor
  · intro key
    rw [get?_ofList_of_apart apart', get?_ofList_of_apart apart,
      apart.find?_congr (fun _ => perm.mem_iff)]
  · apply (List.perm_ext_iff_of_nodup (keyed_ofList ds').nodup (keyed_ofList ds).nodup).mpr
    intro d
    rw [mem_descriptors_ofList apart', mem_descriptors_ofList apart, perm.mem_iff]

/-- The graph of types in another order has the same types under the same keys. -/
theorem linkedGraph_of_perm (perm : q.types.Perm p.types) (apart : KeysApart RawType.isNamed p.types)
    (versions : List Json) (accepts : RawType → Bool) :
    (∀ key, (linkedGraph q versions (candidates q accepts)).get? key =
        (linkedGraph p versions (candidates p accepts)).get? key) ∧
      (linkedGraph q versions (candidates q accepts)).descriptors.Perm
        (linkedGraph p versions (candidates p accepts)).descriptors := by
  have reordered := candidates_perm perm accepts
  have apartC := keysApart_candidates apart accepts
  have linked : TypeDescriptor.linkedTo (candidates q accepts) =
      TypeDescriptor.linkedTo (candidates p accepts) := by
    funext d
    simp only [TypeDescriptor.linkedTo, PropertyDescriptor.linkedTo, elementType?_of_perm apartC reordered]
  unfold linkedGraph
  rw [sketch?_of_perm perm apart, linked]
  exact TypeGraph.ofList_of_perm (keysApart_linked apartC _) ((reordered.filterMap _).map _)

/-- Where no two types of a document share a key, their order does not matter: in whatever order they are listed,
the graph has the same types under the same keys, and the same is reported. A well-formed document has a graph,
and if the types have one in some order then in every order. -/
theorem extracted_in_any_order (perm : q.types.Perm p.types) (apart : KeysApart RawType.isNamed p.types)
    (versions : List Json) (accepts : RawType → Bool) :
    (p.IsWellFormed → ∃ g, (extract p versions accepts).result = .ok g) ∧
    ∀ g, (extract p versions accepts).result = .ok g →
      ∃ g', (extract q versions accepts).result = .ok g' ∧
        (∀ key, g'.get? key = g.get? key) ∧
        g'.descriptors.Perm g.descriptors ∧
        (Note.diagnostics (extract q versions accepts).notes).Perm
          (Note.diagnostics (extract p versions accepts).notes) := by
  constructor
  · intro wellFormed
    exact extract_ok wellFormed versions accepts
  intro g extracted
  have reordered := candidates_perm perm accepts
  obtain ⟨all, rfl⟩ := extract_eq_ok_iff.mp extracted
  have extracted' : (extract q versions accepts).result =
      .ok (linkedGraph q versions (candidates q accepts)) := by
    apply extract_eq_ok_iff.mpr
    refine ⟨?_, rfl⟩
    intro t mem
    rw [CanSketch, describe_of_perm perm apart]
    exact all t (reordered.mem_iff.mp mem)
  obtain ⟨found, same⟩ := linkedGraph_of_perm perm apart versions accepts
  refine ⟨_, extracted', found, same, ?_⟩
  rw [diagnostics_extracted extracted', diagnostics_extracted extracted, reports_of_perm perm apart]
  exact reordered.flatMap_right _

/-- A base that comes after the type that extends it, and a reference in each direction; one property is left
out. Read backwards, the types are described alike. -/
theorem extracted_in_any_order_backwards :
    let property (name type : String) : Json :=
      .obj [("name", .str name), ("type", .str type), ("is_class", .bool true)]
    let document : Json := .obj [("types", .arr [
      .obj [("name", .str "Order"), ("namespace", .str "Shop"), ("base", .str "Shop.Base"),
        ("properties", .arr [property "Buyer" "Customer"])],
      .obj [("name", .str "Customer"), ("properties", .arr [property "Last" "Shop.Order"])],
      .obj [("name", .str "Base"), ("namespace", .str "Shop"), ("kind", .str "abstract"),
        ("properties", .arr [property "Id" "Guid", .obj [("name", .str "Bag"), ("type", .str "Bag<int>")]])]])]
    ∃ p g g', Provider.ofJson document = .ok p ∧
      (extract p [] fun _ => true).result = .ok g ∧
      (extract ⟨p.types.reverse⟩ [] fun _ => true).result = .ok g' ∧
      g.descriptors.map (fun d => (d.qualifiedName, d.properties.map (·.elementType))) =
        [("Shop.Order", [none, some "Customer"]), ("Customer", [some "Shop.Order"])] ∧
      (Note.diagnostics (extract p [] fun _ => true).notes).length = 1 ∧
      (∀ key, g'.get? key = g.get? key) ∧ g'.descriptors.Perm g.descriptors := by
  intro property document
  have checked : (Provider.ofJson document).toOption.any (fun p =>
      decide ((p.types.map rawNames).Pairwise fun a b => ∀ key ∈ [a.1, a.2], key ∉ [b.1, b.2]) &&
      decide ((Note.diagnostics (extract p [] fun _ => true).notes).length = 1) &&
      (extract p [] fun _ => true).result.toOption.any fun g => decide
        (g.descriptors.map (fun d => (d.qualifiedName, d.properties.map (·.elementType))) =
          [("Shop.Order", [none, some "Customer"]), ("Customer", [some "Shop.Order"])])) = true := by
    decide +kernel
  obtain ⟨p, read, checked⟩ := exists_ok_of_any checked
  obtain ⟨checked, graph⟩ := Bool.and_eq_true_iff.mp checked
  obtain ⟨apart, one⟩ := Bool.and_eq_true_iff.mp checked
  obtain ⟨g, extracted, described⟩ := exists_ok_of_any graph
  obtain ⟨g', extracted', found, same, _⟩ := (extracted_in_any_order
    (p := p) (q := ⟨p.types.reverse⟩) (List.reverse_perm _)
    (keysApart_of_names (of_decide_eq_true apart)) [] fun _ => true).2 g extracted
  exact ⟨p, g, g', read, extracted, extracted', of_decide_eq_true described, of_decide_eq_true one,
    found, same⟩

end Scaffold.Graph
