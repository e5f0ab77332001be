import Mathlib.Data.List.Perm.Subperm
import Scaffold.Proofs.Graph.Reports
import Scaffold.Proofs.Graph.WellFormed

/-!
How many types a graph has. Descriptors are added under their qualified names, so of several accepted types with one
qualified name only the last is in the graph; what an extraction reports are properties that it leaves out, and never
a type that it replaces.
-/

namespace Scaffold

/-- Where a search finds something in the second list, one for what is related to it finds that in the first. -/
theorem find?_of_forall₂ {α β : Type} {R : α → β → Prop} {l : List α} {bs : List β} {p : α → Bool}
    {q : β → Bool} {b : β} (related : List.Forall₂ R l bs) (same : ∀ a b, R a b → p a = q b)
    (found : bs.find? q = some b) : ∃ a, l.find? p = some a ∧ R a b := by
  induction related with
  | nil => cases found
  | @cons a' b' _ _ here _ ih =>
    rw [List.find?_cons] at found ⊢
    rw [same a' b' here]
    cases taken : q b' with
    | true =>
      rw [taken] at found
      obtain rfl : b' = b := Option.some.inj found
      exact ⟨a', rfl, here⟩
    | false =>
      rw [taken] at found
      exact ih found

namespace Graph

open Metadata

namespace TypeGraph

variable {ds : List TypeDescriptor} {d : TypeDescriptor}

/-- A graph has as many types as the list that it is made of just if no two of them have one qualified name. -/
theorem size_ofList_eq_length_iff : (ofList ds).size = ds.length ↔ (ds.map (·.qualifiedName)).Nodup := by
  have length : (ofList ds).size = ((ds.map (·.qualifiedName)).eraseDups).length := by
    rw [← keys_ofList, List.length_map, size]
  have distinct : ((ds.map (·.qualifiedName)).eraseDups).Nodup := keys_ofList ds ▸ (keyed_ofList ds).distinct
  constructor
  · intro same
    have part : (ds.map (·.qualifiedName)).eraseDups ⊆ ds.map (·.qualifiedName) :=
      fun key mem => List.mem_eraseDups.mp mem
    have whole : (ds.map (·.qualifiedName)).length ≤ ((ds.map (·.qualifiedName)).eraseDups).length :=
      Nat.le_of_eq (by rw [← length, same, List.length_map])
    exact ((distinct.subperm part).perm_of_length_le whole).nodup_iff.mp distinct
  · intro nodup
    have fields : Fields.merge [] (ds.map fun d => (d.qualifiedName, d)) = ds.map fun d => (d.qualifiedName, d) :=
      Fields.nil_merge (by rwa [List.map_map])
    rw [size, byQualifiedName_ofList, fields, List.length_map]

/-- Of the types of a list that have one qualified name the last is in the graph. -/
theorem last_of_mem_ofList (mem : d ∈ (ofList ds).descriptors) :
    ds.reverse.find? (fun e => e.qualifiedName = d.qualifiedName) = some d := by
  obtain ⟨field, memField, rfl⟩ := List.mem_map.mp mem
  have found := Fields.get?_of_mem (keyed_ofList ds).distinct memField
  rw [(keyed_ofList ds).names field memField]
  rw [byQualifiedName_ofList, Fields.get?_nil_merge, ← List.map_reverse] at found
  exact (Fields.get?_map_key TypeDescriptor.qualifiedName ds.reverse field.1).symm.trans found

end TypeGraph

variable {p : Provider} {versions : List Json} {accepts : RawType → Bool} {g : TypeGraph} {d : TypeDescriptor}

theorem qualifiedNames_extracted (extracted : (extract p versions accepts).result = .ok g) :
    g.descriptors.map (·.qualifiedName) = ((candidates p accepts).map (·.qualifiedName)).eraseDups := by
  obtain ⟨ds, rfl, described⟩ := extract_eq_ok extracted
  rw [(TypeGraph.keyed_ofList ds).qualifiedNames_eq, TypeGraph.keys_ofList, qualifiedNames_described described]

/-- A graph has a descriptor for each accepted type just if no two of these have one qualified name. -/
theorem size_extracted (extracted : (extract p versions accepts).result = .ok g) :
    g.size = (candidates p accepts).length ↔ ((candidates p accepts).map (·.qualifiedName)).Nodup := by
  obtain ⟨ds, rfl, described⟩ := extract_eq_ok extracted
  rw [described.length_eq, TypeGraph.size_ofList_eq_length_iff, qualifiedNames_described described]

/-- Of the accepted types that have one qualified name the last is described. -/
theorem last_described (extracted : (extract p versions accepts).result = .ok g) (mem : d ∈ g.descriptors) :
    ∃ t, (candidates p accepts).reverse.find? (fun t => t.qualifiedName = d.qualifiedName) = some t ∧
      (describe p (candidates p accepts) versions t).result = .ok (some d) := by
  obtain ⟨ds, rfl, described⟩ := extract_eq_ok extracted
  have reversed : List.Forall₂
      (fun t e => (describe p (candidates p accepts) versions t).result = .ok (some e))
      (candidates p accepts).reverse ds.reverse := List.forall₂_reverse_iff.mpr described
  have found := find?_of_forall₂ (p := fun t : RawType => t.qualifiedName = d.qualifiedName) reversed
    (fun t e isDescribed => by rw [qualifiedName_of_describe isDescribed]) (TypeGraph.last_of_mem_ofList mem)
  exact found

/-- The graph of a document has one descriptor for each qualified name of an accepted type, that of the last such
type; so it has one for each accepted type just if no two of them share it. What is reported are the properties of
the accepted types, one by one, whether their names clash or not. A well-formed document has such a graph. -/
theorem one_type_per_name (document : Json) (versions : List Json) (accepts : RawType → Bool) :
    (∀ p, Provider.ofJson document = .ok p → p.IsWellFormed →
      ∃ g, (extractDocument document versions accepts).result = .ok g) ∧
    ∀ g, (extractDocument document versions accepts).result = .ok g →
      ∃ p, Provider.ofJson document = .ok p ∧
        g.descriptors.map (·.qualifiedName) = ((candidates p accepts).map (·.qualifiedName)).eraseDups ∧
        (∀ d ∈ g.descriptors, ∃ t,
          (candidates p accepts).reverse.find? (fun t => t.qualifiedName = d.qualifiedName) = some t ∧
            (describe p (candidates p accepts) versions t).result = .ok (some d)) ∧
        (g.size = (candidates p accepts).length ↔ ((candidates p accepts).map (·.qualifiedName)).Nodup) ∧
        Note.diagnostics (extractDocument document versions accepts).notes =
          (candidates p accepts).flatMap (reports p) := by
  constructor
  · intro p read wellFormed
    obtain ⟨g, extracted⟩ := extract_ok wellFormed versions accepts
    exact ⟨g, Outcome.bind_eq_ok.mpr ⟨p, read, mapError_eq_ok.mpr extracted⟩⟩
  · intro g found
    obtain ⟨p, read, extracted⟩ := extractDocument_eq_ok found
    have notes : (extractDocument document versions accepts).notes = (extract p versions accepts).notes := by
      rw [extractDocument, Outcome.notes_bind (Outcome.result_ofExcept.trans read)]
      rfl
    exact ⟨p, read, qualifiedNames_extracted extracted, fun d => last_described extracted,
      size_extracted extracted, notes ▸ diagnostics_extracted extracted⟩

/-- An entity and an enumeration of one qualified name: the enumeration alone is in the graph, and nothing is
reported. -/
theorem one_type_per_name_order :
    let order (kind : String) : Json :=
      .obj [("name", .str "Order"), ("namespace", .str "Shop"), ("kind", .str kind)]
    let document : Json := .obj [("types", .arr [order "entity", order "enum"])]
    ∃ g, (extractDocument document [] fun _ => true).result = .ok g ∧
      g.descriptors.map (·.qualifiedName) = ["Shop.Order"] ∧ ∃ p, Provider.ofJson document = .ok p ∧
        (candidates p fun _ => true).length = 2 ∧ g.size ≠ (candidates p fun _ => true).length ∧
        Note.diagnostics (extractDocument document [] fun _ => true).notes = [] := by
  intro order document
  have readable : (Provider.ofJson document).toOption.any (fun p =>
      decide ((candidates p fun _ => true).map (·.qualifiedName) = ["Shop.Order", "Shop.Order"]) &&
        p.types.all fun t => decide (t.baseName?.toOption = some none) && t.properties.isEmpty) = true := by
    decide +kernel
  have silent : (Note.diagnostics (extractDocument document [] fun _ => true).notes).isEmpty = true := by
    decide +kernel
  obtain ⟨p, read, checked⟩ := exists_ok_of_any readable
  obtain ⟨names, bare⟩ := Bool.and_eq_true_iff.mp checked
  have wellFormed : p.IsWellFormed := fun t mem => by
    obtain ⟨base, properties⟩ := Bool.and_eq_true_iff.mp (List.all_eq_true.mp bare t mem)
    constructor
    · cases written : t.base <;> simp_all [RawType.baseName?, Except.toOption]
    · simp [List.isEmpty_iff.mp properties]
  obtain ⟨total, described⟩ := one_type_per_name document [] fun _ => true
  obtain ⟨g, extracted⟩ := total p read wellFormed
  obtain ⟨p', read', names', -, counted, -⟩ := described g extracted
  obtain rfl : p = p' := Except.ok.inj (read.symm.trans read')
  have clash := of_decide_eq_true names
  have length : (candidates p fun _ => true).length = 2 := by
    simpa using congrArg List.length clash
  refine ⟨g, extracted, ?_, p, read, length, counted.not.mpr ?_, List.isEmpty_iff.mp silent⟩
  · rw [names', clash]
    rfl
  · rw [clash]
    decide

end Graph

end Scaffold
