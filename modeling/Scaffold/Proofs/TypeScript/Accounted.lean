import Scaffold.Proofs.Graph.WellFormed
import Scaffold.Proofs.TypeScript.Members
import Scaffold.Template.Placeholder

/-!
No property disappears silently: from a document to the interface of a model, each property of a type is passed
on or reported, once.
-/

namespace Scaffold.Graph

open Metadata

variable {document : Json} {p : Provider} {accepts : RawType → Bool} {versions : List Json} {t : RawType}
  {g : TypeGraph} {d : TypeDescriptor}

theorem notes_extractDocument (read : Provider.ofJson document = .ok p) :
    (extractDocument document versions accepts).notes = (extract p versions accepts).notes := by
  rw [extractDocument, Outcome.notes_bind (a := p) read]
  rfl

/-- An entity or view in the graph is the description of the one accepted type of its name. -/
theorem describe_of_mem_models (extracted : (extract p versions accepts).result = .ok g)
    (distinct : ((candidates p accepts).map (·.qualifiedName)).Nodup) (mem : d ∈ g.models)
    (memT : t ∈ candidates p accepts) (same : t.qualifiedName = d.qualifiedName) :
    t.kind ≠ .enumeration ∧
      (describe p (candidates p accepts) versions t).result = .ok (some d) := by
  obtain ⟨memD, model⟩ := TypeGraph.mem_models.mp mem
  obtain ⟨u, memU, described⟩ := exists_of_mem_extract extracted memD
  have sameU := qualifiedName_of_describe described
  obtain rfl : t = u := List.inj_on_of_nodup_map distinct memT memU (same.trans sameU)
  obtain ⟨kind, _⟩ := describe_eq_ok described
  refine ⟨?_, described⟩
  intro isEnum
  rw [isEnum] at kind
  exact model (Option.some.inj kind).symm

/-- Each property that is collected for an entity or view of a graph is described there, in order, or reported,
once; and each that is described is, in order, a line of the interface that is emitted without hooks, or
reported. Nothing else is reported, neither by the extraction nor by the emission. A well-formed document has a
graph, and where the options are of their kinds each of its models can be emitted. -/
theorem every_property_accounted_for (read : Provider.ofJson document = .ok p)
    (distinct : ((candidates p accepts).map (·.qualifiedName)).Nodup) (versions : List Json) :
    (p.IsWellFormed → ∃ g, (extractDocument document versions accepts).result = .ok g) ∧
    ∀ g, (extractDocument document versions accepts).result = .ok g →
      Note.diagnostics (extractDocument document versions accepts).notes =
          (candidates p accepts).flatMap (reports p) ∧
      ∀ d ∈ g.models,
        (∃ t ∈ candidates p accepts, t.qualifiedName = d.qualifiedName) ∧
        (∀ t ∈ candidates p accepts, t.qualifiedName = d.qualifiedName →
          ∃ collected, p.properties t = .ok collected ∧ (collected.map (·.property.name)).Nodup ∧
            Divided IsDescribed (fun declared r => report? t declared = some r) collected d.properties
              (reports p t)) ∧
        ∀ gen : Generator, gen.target = .typescript → gen.hooks = Hooks.none → ∀ w,
          (gen.config.IsTyped → ∃ a, (gen.emit g .typeScriptModel d w).result = .ok a) ∧
          ∀ a, (gen.emit g .typeScriptModel d w).result = .ok a → ∃ base lines,
            a.source = .str (TypeScript.interfaceLine d base) :: lines.map .str ++ [.str "\x7d"] ∧
            Divided (TypeScript.IsMember gen g) (TypeScript.IsLeftOut g d) d.properties lines
              (Note.diagnostics (gen.emit g .typeScriptModel d w).notes) := by
  constructor
  · intro wellFormed
    obtain ⟨g, extracted⟩ := extract_ok wellFormed versions accepts
    exact ⟨g, Outcome.bind_eq_ok.mpr ⟨p, read, mapError_eq_ok.mpr extracted⟩⟩
  intro g found
  have extracted : (extract p versions accepts).result = .ok g := by
    obtain ⟨q, readQ, extracted⟩ := extractDocument_eq_ok found
    obtain rfl : p = q := Except.ok.inj (read.symm.trans readQ)
    exact extracted
  constructor
  · rw [notes_extractDocument read]
    exact diagnostics_extracted extracted
  intro d mem
  refine ⟨?_, ?_, ?_⟩
  · obtain ⟨t, memT, described⟩ := exists_of_mem_extract extracted (TypeGraph.mem_models.mp mem).1
    exact ⟨t, memT, (qualifiedName_of_describe described).symm⟩
  · intro t memT same
    obtain ⟨model, described⟩ := describe_of_mem_models extracted distinct mem memT same
    obtain ⟨collected, all, divided⟩ := (divided_describe described).2 model
    exact ⟨collected, all, Provider.nodup_properties all, divided⟩
  · intro gen target plain w
    have emitted : gen.emit g .typeScriptModel d = TypeScript.createModel gen g d := by
      unfold Generator.emit
      rw [target]
    rw [emitted]
    constructor
    · intro typed
      exact TypeScript.createModel_ok typed plain g d w
    · intro a made
      exact TypeScript.divided_createModel plain made

/-- A type with five properties, of which two are inherited and one is declared again. One is reported when the
type is described, another one when it is emitted, and three are lines. -/
theorem every_property_accounted_for_order :
    let property (name type : String) (more : List (String × Json)) : Json :=
      .obj ([("name", .str name), ("type", .str type)] ++ more)
    let document : Json := .obj [("types", .arr [
      .obj [("name", .str "Base"), ("kind", .str "abstract"), ("properties", .arr [
        property "Id" "System.Guid" [], property "Total" "object" [],
        property "Tags" "Dictionary<string, int>" []])],
      .obj [("name", .str "Order"), ("base", .str "Base"), ("properties", .arr [
        property "Total" "decimal?" [], property "Data" "object" [],
        property "Next" "Order" [("is_class", .bool true)]])]])]
    let gen : Generator := ⟨"typescript", .typescript, Config.default, .none, .builtin, ⟨none, Template.builtins⟩⟩
    ∃ p t g d a base, ∃ lines : List String, Provider.ofJson document = .ok p ∧
      (extractDocument document [] fun _ => true).result = .ok g ∧ d ∈ g.models ∧
      (gen.emit g .typeScriptModel d { settings := .empty, tree := .empty }).result = .ok a ∧
      (∃ collected, p.properties t = .ok collected ∧
        collected.map (·.property.name) = ["Id", "Total", "Tags", "Data", "Next"]) ∧
      d.properties.map (·.name) = ["Id", "Total", "Data", "Next"] ∧
      (Note.diagnostics (extractDocument document [] fun _ => true).notes).length = 1 ∧
      (Note.diagnostics (gen.emit g .typeScriptModel d { settings := .empty, tree := .empty }).notes).length = 1 ∧
      a.source = .str (TypeScript.interfaceLine d base) :: lines.map .str ++ [.str "\x7d"] ∧
      lines.length = 3 := by
  intro property document gen
  have checked : (Provider.ofJson document).toOption.any (fun p =>
      decide (((candidates p fun _ => true).map (·.qualifiedName)).Nodup) &&
      (candidates p fun _ => true).any fun t => (p.properties t).toOption.any fun collected =>
        decide (collected.map (·.property.name) = ["Id", "Total", "Tags", "Data", "Next"]) &&
      (extractDocument document [] fun _ => true).result.toOption.any fun g => g.models.any fun d =>
        decide (d.properties.map (·.name) = ["Id", "Total", "Data", "Next"] ∧
          (Note.diagnostics (extractDocument document [] fun _ => true).notes).length = 1 ∧
          (Note.diagnostics (gen.emit g .typeScriptModel d { settings := .empty, tree := .empty }).notes).length = 1) &&
      (gen.emit g .typeScriptModel d { settings := .empty, tree := .empty }).result.toOption.any fun a =>
        decide (a.source.length = 5)) = true := by
    decide +kernel
  obtain ⟨p, read, checked⟩ := exists_ok_of_any checked
  obtain ⟨distinct, checked⟩ := Bool.and_eq_true_iff.mp checked
  obtain ⟨t, _, checked⟩ := List.any_eq_true.mp checked
  obtain ⟨collected, all, checked⟩ := exists_ok_of_any checked
  obtain ⟨names, checked⟩ := Bool.and_eq_true_iff.mp checked
  obtain ⟨g, extracted, checked⟩ := exists_ok_of_any checked
  obtain ⟨d, mem, checked⟩ := List.any_eq_true.mp checked
  obtain ⟨described, checked⟩ := Bool.and_eq_true_iff.mp checked
  obtain ⟨a, emitted, length⟩ := exists_ok_of_any checked
  obtain ⟨kept, reported, warned⟩ := of_decide_eq_true described
  obtain ⟨_, model⟩ := (every_property_accounted_for read (of_decide_eq_true distinct) []).2 g extracted
  obtain ⟨base, lines, source, _⟩ := ((model d mem).2.2 gen rfl rfl { settings := .empty, tree := .empty }).2 a emitted
  have count := of_decide_eq_true length
  rw [source] at count
  exact ⟨p, t, g, d, a, base, lines, read, extracted, mem, emitted, ⟨collected, all, of_decide_eq_true names⟩,
    kept, reported, warned, source, by simpa using count⟩

end Scaffold.Graph
