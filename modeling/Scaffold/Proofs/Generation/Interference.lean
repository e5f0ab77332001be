import Scaffold.Proofs.Generation.Sharing
import Scaffold.Proofs.Graph.Outline
import Scaffold.Proofs.Template.Rendering

/-!
What types have to do with each other. The artifacts of a type are made of its own descriptor; of the other
types of the graph they read what these are called and nothing else. So the content of a type shows in its
own artifacts and in those of the types that inherit from it, and nowhere else.
-/

namespace Scaffold

open Scaffold.Graph

variable {g : Generator} {graph : TypeGraph} {d : TypeDescriptor} {q : PropertyDescriptor} {item : ItemKind}
  {c : Config}

namespace CSharp

namespace Mapper

variable {m : Mapper}

/-- The mapper over the outline of the graph. -/
def outline (m : Mapper) : Mapper := { m with graph := m.graph.outline }

theorem target_outline (m : Mapper) (q : PropertyDescriptor) : m.outline.target q = m.target q := by
  unfold target
  rw [outline, TypeGraph.resolve?_outline]
  cases m.graph.resolve? q <;> rfl

theorem mapProperty_outline (m : Mapper) (q : PropertyDescriptor) :
    m.outline.mapProperty q = m.mapProperty q := by
  simp only [mapProperty, target_outline]

theorem copyStatement_outline (m : Mapper) : m.outline.copyStatement = m.copyStatement := by
  funext q
  simp only [copyStatement, mapProperty_outline]

end Mapper

theorem addProperty_outline (m : Mapper) : addProperty g m.outline = addProperty g m := by
  funext a q
  simp only [addProperty, Mapper.mapProperty_outline]

theorem createModel_outline : createModel g graph.outline d = createModel g graph d := by
  have mapper_ : mapper g graph.outline = (mapper g graph).outline := rfl
  have name : (mapper g graph).outline.modelFullName d = (mapper g graph).modelFullName d := rfl
  simp only [createModel, mapper_, name, addProperty_outline, memberLines, Mapper.copyStatement_outline]

end CSharp

namespace TypeScript

theorem mapProperty_outline : mapProperty graph.outline q = mapProperty graph q := by
  unfold mapProperty elementName referenceName
  rw [TypeGraph.resolve?_outline]
  cases graph.resolve? q <;> rfl

theorem addMember_outline : addMember g graph.outline d = addMember g graph d := by
  funext a q
  simp only [addMember, mapProperty_outline]

theorem modelImports_outline (base : Json) :
    modelImports c graph.outline d base = modelImports c graph d base := by
  have ofProperty : Import.ofProperty? graph.outline c = Import.ofProperty? graph c := by
    funext q
    unfold Import.ofProperty?
    rw [TypeGraph.resolve?_outline]
    cases graph.resolve? q <;> rfl
  simp only [modelImports, Import.statements, Import.resolve, ofProperty]

theorem createModel_outline : createModel g graph.outline d = createModel g graph d := by
  simp only [createModel, modelImports_outline, addMember_outline]

end TypeScript

namespace Generator

/-- Of a graph only its outline is read. -/
theorem emit_outline : g.emit graph.outline item d = g.emit graph item d := by
  unfold emit
  split
  · exact CSharp.createModel_outline
  · rfl
  · rfl
  · exact TypeScript.createModel_outline
  · rfl
  · rfl

theorem build_outline : g.build graph.outline item d = g.build graph item d := by
  simp only [build, emit_outline]

end Generator

open Metadata

/-- A document changes in the content of one type. Whatever type does not inherit from it, near or far, has the
same descriptor as before, and all artifacts that are emitted or built for that in one tree are the same, under the
same settings and whatever was built before. Of the packages this asks that they render what is asked of them
alike each time, and leave the tree. -/
theorem content_stays_apart {document document' : Json} {p p' : Provider}
    (read : Provider.ofJson document = .ok p) (read' : Provider.ofJson document' = .ok p')
    {i : Nat} {original changed : RawType} (change : p.Changed p' i original changed)
    {versions : List Json} {accepts : RawType → Bool} (same : accepts changed = accepts original)
    {graph graph' : TypeGraph}
    (extracted : (extractDocument document versions accepts).result = .ok graph)
    (extracted' : (extractDocument document' versions accepts).result = .ok graph')
    (distinct : ((candidates p accepts).map (·.qualifiedName)).Nodup)
    {k : Nat} {type : RawType} (here : p.types[k]? = some type) (mem : type ∈ candidates p accepts)
    (apart : ¬ Relation.ReflTransGen p.IsBase k i) :
    ∃ d, d.qualifiedName = type.qualifiedName ∧ graph.get? type.qualifiedName = some d ∧
      graph'.get? type.qualifiedName = some d ∧
      ∀ (g : Generator) (item : ItemKind) (t : Tree), g.packages.Steady g.templates (Template.Within (· = t)) →
        ∀ w w', Workshop.Alike (Template.Within (· = t)) w w' →
        (g.emit graph item d w).result = (g.emit graph' item d w').result ∧
        (g.build graph item d w).result = (g.build graph' item d w').result := by
  obtain ⟨_, again, extracted⟩ := extractDocument_eq_ok extracted
  obtain rfl := Except.ok.inj (read.symm.trans again)
  obtain ⟨_, again, extracted'⟩ := extractDocument_eq_ok extracted'
  obtain rfl := Except.ok.inj (read'.symm.trans again)
  have outlines := outlines_candidates change same
  have names : (candidates p' accepts).map (·.qualifiedName) =
      (candidates p accepts).map (·.qualifiedName) := by
    have names := congrArg (List.map (·.qualifiedName)) outlines
    rwa [List.map_map, List.map_map] at names
  -- The type is none that changed, so that it is in the second document as well.
  have ne : k ≠ i := by
    rintro rfl
    exact apart .refl
  have there : type ∈ p'.types := List.mem_of_getElem? ((change.other ne).trans here)
  have mem' : type ∈ candidates p' accepts := mem_candidates.mpr ⟨there, (mem_candidates.mp mem).2⟩
  have named := Provider.name_ne_empty read type (mem_types_of_mem_candidates mem)
  obtain ⟨d, described, found⟩ := get?_of_described extracted distinct mem named
  obtain ⟨d', described', found'⟩ :=
    get?_of_described extracted' (by rwa [names]) mem' named
  rw [describe_changed change here apart outlines, described] at described'
  obtain rfl := Option.some.inj (Except.ok.inj described')
  obtain ⟨_, name, namespace_, _⟩ := describe_eq_ok described
  refine ⟨d, ?_, found, found', fun g item t steady w w' alike => ?_⟩
  · rw [TypeDescriptor.qualifiedName, name, namespace_]
    rfl
  · have outline := outline_changed change same extracted extracted'
    have emitted : g.emit graph'.outline item d = g.emit graph' item d := Generator.emit_outline
    have built : g.build graph'.outline item d = g.build graph' item d := Generator.build_outline
    rw [← emitted, ← built, outline, Generator.emit_outline, Generator.build_outline]
    exact ⟨((Generator.emit_does item).respects steady).result alike,
      (Generator.build_respects (fun _ _ within => within.1) steady item).result alike⟩

/-- An order with a base and a line that it refers to. Where the line is given a property and another
description, the order stays as it is. -/
theorem content_stays_apart_line :
    let base : RawType := ⟨"Base", .abstraction, "", .null, [], [], .null⟩
    let order : RawType := ⟨"Order", .entity, "", .str "Base", [⟨"First", "Line", .null, false, false,
      false, false, true, false, false, .null, false, [], false⟩], [], .null⟩
    let line : RawType := ⟨"Line", .entity, "", .null, [], [], .null⟩
    let longer : RawType := ⟨"Line", .entity, "", .null, [⟨"Text", "string", .null, false, false, false,
      false, false, false, false, .null, false, [], false⟩], [], .str "one line"⟩
    let document (line : List (String × Json)) : Json := .obj [("types", .arr [
      .obj [("name", .str "Base"), ("kind", .str "abstract")],
      .obj [("name", .str "Order"), ("base", .str "Base"), ("properties", .arr [
        .obj [("name", .str "First"), ("type", .str "Line"), ("is_class", .bool true)]])],
      .obj (("name", .str "Line") :: line)])]
    let document' := document [("description", .str "one line"), ("properties", .arr [
      .obj [("name", .str "Text"), ("type", .str "string")]])]
    Provider.ofJson (document []) = .ok ⟨[base, order, line]⟩ ∧
    Provider.ofJson document' = .ok ⟨[base, order, longer]⟩ ∧
    ∃ graph graph', (extractDocument (document []) [] fun _ => true).result = .ok graph ∧
      (extractDocument document' [] fun _ => true).result = .ok graph' ∧
      (graph.get? "Line").map (·.properties) ≠ (graph'.get? "Line").map (·.properties) ∧
      ∃ d, graph.get? "Order" = some d ∧ graph'.get? "Order" = some d ∧
        ∀ (g : Generator) (item : ItemKind) (t : Tree), g.packages = .builtin → g.templates.directory = none →
          (g.build graph item d ⟨.empty, t, []⟩).result = (g.build graph' item d ⟨.empty, t, []⟩).result := by
  intro base order line longer document document'
  have read : Provider.ofJson (document []) = .ok ⟨[base, order, line]⟩ := by rfl
  have read' : Provider.ofJson document' = .ok ⟨[base, order, longer]⟩ := by rfl
  have checked : (extractDocument (document []) [] fun _ => true).result.toOption.any (fun graph =>
      (extractDocument document' [] fun _ => true).result.toOption.any fun graph' =>
        decide ((graph.get? "Line").map (·.properties) ≠ (graph'.get? "Line").map (·.properties))) =
          true := by
    decide +kernel
  obtain ⟨graph, extracted, checked⟩ := exists_ok_of_any checked
  obtain ⟨graph', extracted', differ⟩ := exists_ok_of_any checked
  have place : Provider.findPlace? ⟨[base, order, line]⟩ "Base" = some 0 := by decide +kernel
  have above : ∀ j, Relation.ReflTransGen (Provider.IsBase ⟨[base, order, line]⟩) 1 j → j = 1 ∨ j = 0 := by
    intro j way
    induction way with
    | refl => exact .inl rfl
    | tail _ step ih =>
      obtain ⟨type, written, here, isBase, found⟩ := step
      rcases ih with rfl | rfl
      · obtain rfl : order = type := by simpa using here
        obtain rfl : "Base" = written := by simpa [RawType.baseName?, order] using isBase
        exact .inr (Option.some.inj (found.symm.trans place))
      · obtain rfl : base = type := by simpa using here
        simp [RawType.baseName?, base] at isBase
  have change : Provider.Changed ⟨[base, order, line]⟩ ⟨[base, order, longer]⟩ 2 line longer :=
    ⟨rfl, rfl, rfl⟩
  have here : [base, order, line][1]? = some order := rfl
  obtain ⟨d, _, found, found', same⟩ := content_stays_apart read read' change rfl extracted extracted'
    (by decide +kernel) here (mem_candidates.mpr ⟨by simp, by decide, rfl⟩)
    (fun way => by simpa using above 2 way)
  refine ⟨read, read', graph, graph', extracted, extracted', of_decide_eq_true differ, d, found, found', ?_⟩
  intro g item t builtin plain
  have steady := Packages.builtin_steady_of_memory plain (· = t)
  exact (same g item t (builtin ▸ steady) _ _ (.refl ⟨rfl, by simp⟩)).2

end Scaffold
