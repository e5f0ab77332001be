import Mathlib.Data.List.Nodup
import Scaffold.Config.Options
import Scaffold.Proofs.Graph.Extracted
import Scaffold.Proofs.Import
import Scaffold.TypeScript.Types

/-!
The references of a model. A property that leads to a type is written with the name of that type, and what
is imported are just the types that are written so, in the order of their first use; of types whose import
statements are the same text only the first is imported. Such types there are only when a name holds what
stands after a name in a statement.
-/

namespace Scaffold

open Scaffold.Graph

namespace TypeScript

variable {g : TypeGraph} {c : Config} {d t u : TypeDescriptor} {p : PropertyDescriptor}
  {enums models : String}

/-- The property leads to the type itself: it resolves to it, and if it asks for an interface, that is one of
an enumeration, which has none. -/
def Linked (g : TypeGraph) (p : PropertyDescriptor) (t : TypeDescriptor) : Prop :=
  g.resolve? p = some t ∧ (p.isInterface = false ∨ t.kind = .enumeration)

/-- A property leads to `t` before any leads to `u`. -/
def UsedBefore (g : TypeGraph) (d t u : TypeDescriptor) : Prop :=
  ∃ before p after, d.properties = before ++ p :: after ∧ Linked g p t ∧
    ∀ q ∈ before ++ [p], ¬ Linked g q u

theorem target?_eq_some_iff (shape : ∀ t, g.resolve? p = some t → Import.refers p.valueKind = true) :
    Import.target? g p = some t ↔ Linked g p t := by
  unfold Import.target? Linked
  constructor
  · intro h
    split at h
    · obtain ⟨resolved, direct⟩ := Option.filter_eq_some_iff.mp h
      refine ⟨resolved, ?_⟩
      simp only [Bool.or_eq_true, decide_eq_true_eq, Bool.not_eq_true'] at direct
      exact direct.symm
    · cases h
  · rintro ⟨resolved, direct⟩
    rw [if_pos (shape t resolved)]
    refine Option.filter_eq_some_iff.mpr ⟨resolved, ?_⟩
    simp only [Bool.or_eq_true, decide_eq_true_eq, Bool.not_eq_true']
    exact direct.symm

/-- A property that leads to a type is written with its name. -/
theorem mapProperty_of_linked (linked : Linked g p t) (refers : Import.refers p.valueKind = true)
    (named : t.name ≠ "")
    (plain : p.valueKind = .entityReference → p.isInterface = true → t.kind ≠ .enumeration) :
    mapProperty g p = some (if p.valueKind.isCollection then t.name ++ "[]" else t.name) := by
  obtain ⟨resolved, direct⟩ := linked
  have element : elementName g p = some t.name := by
    unfold elementName
    rw [resolved]
    rcases direct with direct | kind
    · simp [direct]
    · simp [kind]
  unfold mapProperty
  cases kind : p.valueKind with
  | scalar | dateTime | guid => simp [kind, Import.refers] at refers
  | enumeration => simp [resolved, ValueKind.isCollection]
  | entityReference =>
    have own : p.isInterface = false := by
      rcases direct with direct | isEnum
      · exact direct
      · exact Bool.eq_false_iff.mpr fun interface_ => plain kind interface_ isEnum
    simp [referenceName, own, resolved, ValueKind.isCollection]
  | arrayOfReference | listOfReference => simp [element, ValueKind.isCollection]

/-- A type is imported somewhere in the list if it is another type that a property leads to. -/
theorem mem_targets
    (shape : ∀ q ∈ d.properties, ∀ t, g.resolve? q = some t → Import.refers q.valueKind = true) :
    t ∈ Import.targets g d ↔ t.name ≠ d.name ∧ ∃ p ∈ d.properties, Linked g p t := by
  rw [Import.targets, List.mem_filter, List.mem_filterMap, decide_eq_true_eq, and_comm]
  refine and_congr_right fun _ => exists_congr fun p => and_congr_right fun mem => ?_
  exact target?_eq_some_iff (shape p mem)

/-- The order of the types met is that of their first uses. -/
theorem metBefore_targets
    (shape : ∀ q ∈ d.properties, ∀ t, g.resolve? q = some t → Import.refers q.valueKind = true)
    (neU : u.name ≠ d.name) :
    MetBefore (Import.targets g d) t u ↔ t.name ≠ d.name ∧ UsedBefore g d t u := by
  have linked : ∀ q ∈ d.properties, ∀ t : TypeDescriptor, t.name ≠ d.name →
      ((Import.target? g q).filter (fun t => t.name ≠ d.name) = some t ↔ Linked g q t) := by
    intro q mem t ne
    rw [Option.filter_eq_some_iff, target?_eq_some_iff (shape q mem)]
    simp [ne]
  have order : t.name ≠ d.name → (MetBefore (Import.targets g d) t u ↔ UsedBefore g d t u) := by
    intro neT
    rw [Import.targets, List.filter_filterMap, metBefore_filterMap]
    refine exists_congr fun before => exists_congr fun p => exists_congr fun after =>
      and_congr_right fun eq => ?_
    have within : ∀ q ∈ before ++ [p], q ∈ d.properties := by
      intro q mem
      rw [eq]
      simp only [List.mem_append, List.mem_cons] at mem ⊢
      exact mem.imp_right fun last => .inl (last.resolve_right List.not_mem_nil)
    refine and_congr (linked p (within p (by simp)) t neT) ?_
    exact forall_congr' fun q => forall_congr' fun mem => not_congr (linked q (within q mem) u neU)
  constructor
  · intro met
    have neT := ((mem_targets shape).mp met.mem).1
    exact ⟨neT, (order neT).mp met⟩
  · rintro ⟨neT, used⟩
    exact (order neT).mpr used

/-- Types of a graph without names in common are the same if their import statements are, as long as no name
holds what stands after a name in a statement. -/
theorem eq_of_statementOf (distinct : (g.descriptors.map (·.name)).Nodup)
    (plain : ∀ t ∈ g.descriptors, ¬ Import.HoldsSeparator t.name) (memT : t ∈ g.descriptors)
    (memU : u ∈ g.descriptors)
    (same : Import.statementOf enums models t = Import.statementOf enums models u) : t = u :=
  List.inj_on_of_nodup_map distinct memT memU
    (Import.importLine_inj (plain t memT) (plain u memU) same)

/-- In a graph of a document the members and the imports of a model name the same types. Members have the
names of the types that their properties lead to; imported are these types but for the model itself, in the
order of their first use, and not those whose statement is that of a type used before. -/
theorem imports_of_references {document : Json} {versions : List Json}
    {accepts : Metadata.RawType → Bool}
    (extracted : (extractDocument document versions accepts).result = .ok g)
    (distinct : (g.descriptors.map (·.name)).Nodup)
    (plain : ∀ d ∈ g.descriptors, ∀ p ∈ d.properties, p.valueKind = .entityReference →
      p.isInterface = true → ∀ t, g.resolve? p = some t → t.kind ≠ .enumeration)
    (aliases : Import.Aliases c enums models) (mem : d ∈ g.descriptors) :
    (∀ p ∈ d.properties, ∀ t, Linked g p t →
      mapProperty g p = some (if p.valueKind.isCollection then t.name ++ "[]" else t.name)) ∧
    (∃ ts : List TypeDescriptor, Import.resolve g c d =
        .ok (ts.map fun t => (Import.ofTarget c t, Import.statementOf enums models t)) ∧
      ts.Pairwise (UsedBefore g d) ∧
      ∀ t, t ∈ ts ↔ t ≠ d ∧ (∃ p ∈ d.properties, Linked g p t) ∧
        ∀ u, u ≠ d → UsedBefore g d u t →
          Import.statementOf enums models u ≠ Import.statementOf enums models t) ∧
    ((∀ t ∈ g.descriptors, ¬ Import.HoldsSeparator t.name) →
      ∀ t ∈ g.descriptors, ∀ u ∈ g.descriptors,
        Import.statementOf enums models t = Import.statementOf enums models u → t = u) := by
  have shape := (extracted_shape extracted mem).2
  have inGraph : ∀ {p t}, Linked g p t → t ∈ g.descriptors := fun linked =>
    TypeGraph.mem_of_resolve? linked.1
  have other : ∀ {t : TypeDescriptor}, t ∈ g.descriptors → (t.name ≠ d.name ↔ t ≠ d) := fun memT =>
    not_congr ⟨List.inj_on_of_nodup_map distinct memT mem, fun same => by rw [same]⟩
  refine ⟨fun p memP t linked => ?_, ?_, ?_⟩
  · exact mapProperty_of_linked linked (shape p memP t linked.1)
      (extracted_shape extracted (inGraph linked)).1 fun kind interface_ =>
        plain d mem p memP kind interface_ t linked.1
  · refine ⟨firstsBy (Import.statementOf enums models) (Import.targets g d), Import.resolve_eq aliases,
      ?_, fun t => ?_⟩
    · refine List.Pairwise.imp_of_mem (fun _ second met => ?_) pairwise_firstsBy
      have ne := ((mem_targets shape).mp (mem_firstsBy.mp second).1).1
      exact ((metBefore_targets shape ne).mp met).2
    · rw [mem_firstsBy, mem_targets shape]
      constructor
      · rintro ⟨⟨ne, p, memP, linked⟩, first⟩
        refine ⟨(other (inGraph linked)).mp ne, ⟨p, memP, linked⟩, fun u neU used => first u ?_⟩
        obtain ⟨_, q, _, _, linkedU, _⟩ := id used
        exact (metBefore_targets shape ne).mpr ⟨(other (inGraph linkedU)).mpr neU, used⟩
      · rintro ⟨ne, ⟨p, memP, linked⟩, first⟩
        have neName := (other (inGraph linked)).mpr ne
        refine ⟨⟨neName, p, memP, linked⟩, fun u met => ?_⟩
        obtain ⟨neU, used⟩ := (metBefore_targets shape neName).mp met
        exact first u (fun same => neU (by rw [same])) used
  · exact fun plain t memT u memU same => eq_of_statementOf distinct plain memT memU same

/-- An order refers to its lines, a state and itself; it imports the first two. -/
theorem imports_of_references_order :
    let document : Json := .obj [("types", .arr [
      .obj [("name", .str "Order"), ("properties", .arr [
        .obj [("name", .str "Lines"), ("type", .str "List<Line>"), ("is_generic_list", .bool true),
          ("generic_arguments", .arr [.str "Line"])],
        .obj [("name", .str "State"), ("type", .str "State"), ("is_enum", .bool true)],
        .obj [("name", .str "Next"), ("type", .str "Order"), ("is_class", .bool true)],
        .obj [("name", .str "First"), ("type", .str "Line"), ("is_class", .bool true)]])],
      .obj [("name", .str "Line")],
      .obj [("name", .str "State"), ("kind", .str "enum")]])]
    ∃ g, (extractDocument document [] fun _ => true).result = .ok g ∧ ∃ d ∈ g.descriptors,
      d.name = "Order" ∧ d.properties.map (mapProperty g) =
        [some "Line[]", some "State", some "Order", some "Line"] ∧
      ∃ ts : List TypeDescriptor, ts.map (·.name) = ["Line", "State"] ∧ ts.Pairwise (UsedBefore g d) ∧
        ∀ t ∈ ts, ∃ p ∈ d.properties, Linked g p t := by
  intro document
  have checked : (extractDocument document [] fun _ => true).result.toOption.any (fun g =>
      decide (g.descriptors.map (·.name)).Nodup &&
      decide (∀ d ∈ g.descriptors, ∀ p ∈ d.properties, p.isInterface = false) &&
      g.descriptors.any fun d => decide (d.name = "Order") &&
        decide (d.properties.map (mapProperty g) =
          [some "Line[]", some "State", some "Order", some "Line"]) &&
        (Import.resolve g Config.default d).toOption.any fun found =>
          decide (found.map (·.1.name) = ["Line", "State"])) = true := by
    decide +kernel
  obtain ⟨g, extracted, checked⟩ := exists_ok_of_any checked
  simp only [Bool.and_eq_true, decide_eq_true_eq, List.any_eq_true] at checked
  obtain ⟨⟨distinct, plain⟩, d, mem, ⟨name, members⟩, isResolved⟩ := checked
  obtain ⟨found, resolved, names⟩ := exists_ok_of_any isResolved
  have aliases : Import.Aliases Config.default "@app-enums" "@app-models" :=
    ⟨Naming.pathPart_str _, Naming.pathPart_str _⟩
  obtain ⟨-, ⟨ts, eq, order, types⟩, -⟩ := imports_of_references extracted distinct
    (fun d memD p memP _ interface_ => absurd interface_ (by simp [plain d memD p memP])) aliases mem
  refine ⟨g, extracted, d, mem, name, members, ts, ?_, order, fun t memT => ((types t).mp memT).2.1⟩
  obtain rfl := Except.ok.inj (resolved.symm.trans eq)
  simpa [Function.comp_def] using names

/-- Two types with one import statement: the name of the second goes on like the path of the first. Both are
used, and the second is not imported. -/
theorem not_imported_of_equal_statements :
    let document : Json := .obj [("types", .arr [
      .obj [("name", .str "Holder"), ("properties", .arr [
        .obj [("name", .str "One"), ("type", .str "x"), ("is_class", .bool true)],
        .obj [("name", .str "Two"), ("type", .str "x \x7d from '@app-models/q/x"),
          ("is_class", .bool true)]])],
      .obj [("name", .str "x"),
        ("namespace", .str "q/x \x7d from '@app-models/x \x7d from '@app-models/q")],
      .obj [("name", .str "x \x7d from '@app-models/q/x")]])]
    ∃ g, (extractDocument document [] fun _ => true).result = .ok g ∧
      (g.descriptors.map (·.name)).Nodup ∧
      (∀ d ∈ g.descriptors, ∀ p ∈ d.properties, p.isInterface = false) ∧
      ∃ d ∈ g.descriptors, ∃ p ∈ d.properties, ∃ t, Linked g p t ∧ t ≠ d ∧
        ∃ found, Import.resolve g Config.default d = .ok found ∧ ∀ i ∈ found, i.1.name ≠ t.name := by
  intro document
  have checked : (extractDocument document [] fun _ => true).result.toOption.any (fun g =>
      decide (g.descriptors.map (·.name)).Nodup &&
      decide (∀ d ∈ g.descriptors, ∀ p ∈ d.properties, p.isInterface = false) &&
      g.descriptors.any fun d => d.properties.any fun p => (g.resolve? p).any fun t =>
        decide (t.name ≠ d.name) && (Import.resolve g Config.default d).toOption.any fun found =>
          decide (∀ i ∈ found, i.1.name ≠ t.name)) = true := by
    decide +kernel
  obtain ⟨g, extracted, checked⟩ := exists_ok_of_any checked
  simp only [Bool.and_eq_true, decide_eq_true_eq, List.any_eq_true, Option.any_eq_true] at checked
  obtain ⟨⟨distinct, plain⟩, d, mem, p, memP, t, resolved, ne, found, imports, missing⟩ := checked
  exact ⟨g, extracted, distinct, plain, d, mem, p, memP, t, ⟨resolved, .inl (plain d mem p memP)⟩,
    fun same => ne (by rw [same]), found, eq_ok_of_toOption imports, missing⟩

end TypeScript

end Scaffold
