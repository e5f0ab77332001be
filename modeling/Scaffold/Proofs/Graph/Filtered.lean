import Scaffold.Proofs.Graph.Reordered

/-!
Two filters of which one takes only what the other takes. The graph of the narrower one is a part of the other
graph: a type that is in both is described alike, but it no longer refers to what the narrower filter leaves out.
-/

namespace Scaffold.Graph

open Metadata

variable {p : Provider} {accepted : List RawType} {versions : List Json} {f g : RawType → Bool}
  {keep : String → Bool} {t : RawType} {d : TypeDescriptor} {ds : List TypeDescriptor} {key : String}

/-- Does the filter take the type of this qualified name? -/
def takes (p : Provider) (f : RawType → Bool) (key : String) : Bool :=
  p.types.any fun t => t.qualifiedName = key && f t

/-- A property that refers only to what is kept. -/
def PropertyDescriptor.within (keep : String → Bool) (q : PropertyDescriptor) : PropertyDescriptor :=
  { q with elementType := q.elementType.filter keep }

/-- A type whose properties refer only to what is kept. -/
def TypeDescriptor.within (keep : String → Bool) (d : TypeDescriptor) : TypeDescriptor :=
  { d with properties := d.properties.map (·.within keep) }

theorem TypeDescriptor.name_within (keep : String → Bool) (d : TypeDescriptor) :
    (d.within keep).name = d.name := rfl

theorem TypeDescriptor.qualifiedName_within (keep : String → Bool) (d : TypeDescriptor) :
    (d.within keep).qualifiedName = d.qualifiedName := rfl

namespace TypeGraph

/-- The types of which the qualified names are kept, in their order. -/
theorem descriptors_ofList_filter (keep : String → Bool) (ds : List TypeDescriptor) :
    (ofList (ds.filter fun d => keep d.qualifiedName)).descriptors =
      (ofList ds).descriptors.filter fun d => keep d.qualifiedName := by
  have fields : (ofList (ds.filter fun d => keep d.qualifiedName)).byQualifiedName =
      (ofList ds).byQualifiedName.filter fun field => keep field.1 := by
    rw [byQualifiedName_ofList, byQualifiedName_ofList, Fields.filter_merge, List.filter_map]
    rfl
  have keys : (ofList ds).byQualifiedName.filter (fun field => keep field.1) =
      (ofList ds).byQualifiedName.filter ((fun d => keep d.qualifiedName) ∘ (·.2)) :=
    List.filter_congr fun field mem => by rw [← (keyed_ofList ds).names field mem]; rfl
  rw [descriptors, descriptors, fields, List.filter_map, ← keys]

/-- Where keys are apart, what is found in a part of a graph is what is found in the whole, if it is kept. -/
theorem get?_ofList_filter (apart : KeysApart TypeDescriptor.isNamed ds) (keep : String → Bool)
    (key : String) : (ofList (ds.filter fun d => keep d.qualifiedName)).get? key =
      ((ofList ds).get? key).filter fun d => keep d.qualifiedName := by
  have part : KeysApart TypeDescriptor.isNamed (ds.filter fun d => keep d.qualifiedName) := by
    apply apart.subset
    intro d mem
    exact (List.mem_filter.mp mem).1
  rw [get?_ofList_of_apart part, get?_ofList_of_apart apart]
  split
  · rfl
  · exact apart.find?_filter _ key

end TypeGraph

/-- Where keys are apart, a filter takes the name of a type if it takes the type. -/
theorem takes_qualifiedName (apart : KeysApart RawType.isNamed p.types) (mem : t ∈ p.types) :
    takes p f t.qualifiedName = f t := by
  rw [Bool.eq_iff_iff, takes, List.any_eq_true]
  constructor
  · rintro ⟨u, memU, both⟩
    obtain ⟨same, taken⟩ := Bool.and_eq_true_iff.mp both
    obtain rfl : u = t := apart u memU t mem t.qualifiedName
      (isNamed_iff_rawNames.mpr (.inl (of_decide_eq_true same))) (isNamed_iff_rawNames.mpr (.inl rfl))
    exact taken
  · intro taken
    exact ⟨t, mem, Bool.and_eq_true_iff.mpr ⟨decide_eq_true rfl, taken⟩⟩

/-- The narrower filter leaves some of the types that the other takes. -/
theorem candidates_filter (sub : ∀ t ∈ p.types, f t = true → g t = true) :
    (candidates p g).filter f = candidates p f := by
  unfold candidates
  rw [List.filter_filter]
  apply List.filter_congr
  intro t mem
  have memT : t ∈ p.types := by
    have all : t ∈ candidates p fun _ => true := List.mem_filter.mpr ⟨mem, rfl⟩
    exact mem_types_of_mem_candidates all
  cases taken : f t with
  | false => rfl
  | true => rw [sub t memT taken]; rfl

/-- What a name refers to is kept if the narrower filter takes it. -/
theorem elementType?_filter (apart : KeysApart RawType.isNamed p.types)
    (sub : ∀ t ∈ p.types, f t = true → g t = true) (written : String) :
    elementType? (candidates p f) written =
      (elementType? (candidates p g) written).filter (takes p f) := by
  unfold elementType?
  split
  · rfl
  ext found
  rw [Option.filter_eq_some_iff, elementKey?_eq_some_iff (keysApart_candidates apart f),
    elementKey?_eq_some_iff (keysApart_candidates apart g), ← candidates_filter sub]
  constructor
  · rintro ⟨said, t, mem, rfl, isNamed⟩
    obtain ⟨mem, taken⟩ := List.mem_filter.mp mem
    refine ⟨⟨said, t, mem, rfl, isNamed⟩, ?_⟩
    rwa [takes_qualifiedName apart (mem_types_of_mem_candidates mem)]
  · rintro ⟨⟨said, t, mem, rfl, isNamed⟩, taken⟩
    rw [takes_qualifiedName apart (mem_types_of_mem_candidates mem)] at taken
    exact ⟨said, t, List.mem_filter.mpr ⟨mem, taken⟩, rfl, isNamed⟩

/-- A type refers, under the narrower filter, to the part of what it refers to that the filter takes. -/
theorem linkedTo_filter (apart : KeysApart RawType.isNamed p.types)
    (sub : ∀ t ∈ p.types, f t = true → g t = true) (d : TypeDescriptor) :
    d.linkedTo (candidates p f) = (d.linkedTo (candidates p g)).within (takes p f) := by
  have property (q : PropertyDescriptor) :
      q.linkedTo (candidates p f) = (q.linkedTo (candidates p g)).within (takes p f) := by
    unfold PropertyDescriptor.linkedTo PropertyDescriptor.within
    cases q.elementName with
    | none => rfl
    | some e => rw [Option.bind_some, Option.bind_some, elementType?_filter apart sub]
  simp only [TypeDescriptor.linkedTo, TypeDescriptor.within, List.map_map]
  congr 1
  exact List.map_congr_left fun q _ => property q

/-- The sketches of the types that a filter takes, by their names. -/
theorem sketches_filter (apart : KeysApart RawType.isNamed p.types) {l : List RawType}
    (known : ∀ t ∈ l, t ∈ p.types) : (l.filter f).filterMap (sketch? p versions) =
      (l.filterMap (sketch? p versions)).filter fun d => takes p f d.qualifiedName := by
  rw [List.filterMap_filter, List.filter_filterMap]
  apply List.filterMap_congr
  intro t mem
  rw [← takes_qualifiedName (f := f) apart (known t mem)]
  cases sketched : sketch? p versions t with
  | none => split <;> rfl
  | some d =>
    have name : d.qualifiedName = t.qualifiedName := congrArg Prod.snd (names_sketch sketched)
    rw [Option.filter_some, name]

/-- The graph of the narrower filter, type by type and key by key. -/
theorem linkedGraph_filter (apart : KeysApart RawType.isNamed p.types)
    (sub : ∀ t ∈ p.types, f t = true → g t = true) (versions : List Json) :
    (linkedGraph p versions (candidates p f)).descriptors =
        ((linkedGraph p versions (candidates p g)).descriptors.filter
          fun d => takes p f d.qualifiedName).map (·.within (takes p f)) ∧
      ∀ key, (linkedGraph p versions (candidates p f)).get? key =
        (((linkedGraph p versions (candidates p g)).get? key).filter
          fun d => takes p f d.qualifiedName).map (·.within (takes p f)) := by
  let whole := ((candidates p g).filterMap (sketch? p versions)).map (·.linkedTo (candidates p g))
  have apart' : KeysApart TypeDescriptor.isNamed whole :=
    keysApart_linked (keysApart_candidates apart g) _
  have linked : TypeDescriptor.linkedTo (candidates p f) =
      (TypeDescriptor.within (takes p f)) ∘ (TypeDescriptor.linkedTo (candidates p g)) :=
    funext (linkedTo_filter apart sub)
  have part : linkedGraph p versions (candidates p f) =
      (TypeGraph.ofList (whole.filter fun d => takes p f d.qualifiedName)).mapTypes
        (·.within (takes p f)) := by
    rw [TypeGraph.mapTypes_ofList (TypeDescriptor.name_within _) (TypeDescriptor.qualifiedName_within _),
      linkedGraph, linked, ← List.map_map, ← candidates_filter sub,
      sketches_filter apart fun _ => mem_types_of_mem_candidates, List.filter_map]
    rfl
  rw [part]
  constructor
  · rw [linkedGraph, ← TypeGraph.descriptors_ofList_filter]
    simp only [TypeGraph.descriptors, TypeGraph.mapTypes, List.map_map]
    rfl
  · intro key
    rw [TypeGraph.get?_mapTypes, TypeGraph.get?_ofList_filter apart']
    rfl

/-- Where no two types share a key, a filter that takes less gives a part of the graph: the types that it takes,
each as it was, but that it refers to nothing that the filter leaves out. What is reported is what the types that
it takes gave rise to before. -/
theorem filtering_restricts (apart : KeysApart RawType.isNamed p.types)
    (sub : ∀ t ∈ p.types, f t = true → g t = true) (versions : List Json) :
    (p.IsWellFormed → ∃ whole, (extract p versions g).result = .ok whole) ∧
    ∀ whole, (extract p versions g).result = .ok whole →
      ∃ part, (extract p versions f).result = .ok part ∧
        part.descriptors = (whole.descriptors.filter fun d => takes p f d.qualifiedName).map
          (·.within (takes p f)) ∧
        (∀ key, part.get? key = ((whole.get? key).filter fun d => takes p f d.qualifiedName).map
          (·.within (takes p f))) ∧
        Note.diagnostics (extract p versions g).notes = (candidates p g).flatMap (reports p) ∧
        Note.diagnostics (extract p versions f).notes =
          ((candidates p g).filter f).flatMap (reports p) := by
  constructor
  · intro wellFormed
    exact extract_ok wellFormed versions g
  intro whole extracted
  obtain ⟨all, rfl⟩ := extract_eq_ok_iff.mp extracted
  have extracted' : (extract p versions f).result = .ok (linkedGraph p versions (candidates p f)) := by
    apply extract_eq_ok_iff.mpr
    refine ⟨?_, rfl⟩
    intro t mem
    rw [← candidates_filter sub] at mem
    exact all t (List.mem_filter.mp mem).1
  obtain ⟨types, keys⟩ := linkedGraph_filter apart sub versions
  refine ⟨_, extracted', types, keys, diagnostics_extracted extracted, ?_⟩
  rw [diagnostics_extracted extracted', candidates_filter sub]

/-- Of two types that refer to each other only the first is taken. It keeps what it inherits from a base that has
no descriptor, and refers to itself but no longer to the second; the report of the second is gone. -/
theorem filtering_restricts_first :
    let property (name type : String) : Json :=
      .obj [("name", .str name), ("type", .str type), ("is_class", .bool true)]
    let document : Json := .obj [("types", .arr [
      .obj [("name", .str "Base"), ("kind", .str "abstract"), ("properties", .arr [property "Id" "Guid"])],
      .obj [("name", .str "Order"), ("namespace", .str "Shop"), ("base", .str "Base"), ("properties",
        .arr [property "Buyer" "Customer", property "Before" "Shop.Order"])],
      .obj [("name", .str "Customer"), ("properties",
        .arr [property "Last" "Order", .obj [("name", .str "Notes"), ("type", .str "Notes")]])]])]
    let first (t : RawType) : Bool := t.name = "Order"
    ∃ p whole part, Provider.ofJson document = .ok p ∧
      (extract p [] fun _ => true).result = .ok whole ∧ (extract p [] first).result = .ok part ∧
      whole.descriptors.map (fun d => (d.name, d.properties.map fun q => (q.name, q.elementType))) =
        [("Order", [("Id", none), ("Buyer", some "Customer"), ("Before", some "Shop.Order")]),
          ("Customer", [("Last", some "Shop.Order")])] ∧
      part.descriptors = (whole.descriptors.filter fun d => takes p first d.qualifiedName).map
        (·.within (takes p first)) ∧
      (Note.diagnostics (extract p [] fun _ => true).notes).length = 1 ∧
      (Note.diagnostics (extract p [] first).notes).length = 0 := by
  intro property document first
  have checked : (Provider.ofJson document).toOption.any (fun p =>
      decide ((p.types.map rawNames).Pairwise fun a b => ∀ key ∈ [a.1, a.2], key ∉ [b.1, b.2]) &&
      decide ((Note.diagnostics (extract p [] fun _ => true).notes).length = 1 ∧
        (Note.diagnostics (extract p [] first).notes).length = 0) &&
      (extract p [] fun _ => true).result.toOption.any fun whole => decide
        (whole.descriptors.map (fun d => (d.name, d.properties.map fun q => (q.name, q.elementType))) =
        [("Order", [("Id", none), ("Buyer", some "Customer"), ("Before", some "Shop.Order")]),
          ("Customer", [("Last", some "Shop.Order")])])) = true := by
    decide +kernel
  obtain ⟨p, read, checked⟩ := exists_ok_of_any checked
  obtain ⟨checked, graph⟩ := Bool.and_eq_true_iff.mp checked
  obtain ⟨apart, reported⟩ := Bool.and_eq_true_iff.mp checked
  obtain ⟨whole, extracted, described⟩ := exists_ok_of_any graph
  obtain ⟨part, extracted', restricted, _⟩ :=
    (filtering_restricts (keysApart_of_names (of_decide_eq_true apart)) (f := first) (g := fun _ => true)
      (fun _ _ _ => rfl) []).2 whole extracted
  exact ⟨p, whole, part, read, extracted, extracted', of_decide_eq_true described, restricted,
    of_decide_eq_true reported⟩

end Scaffold.Graph
