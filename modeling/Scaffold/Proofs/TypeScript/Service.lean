import Scaffold.Proofs.Generation.Hook
import Scaffold.Proofs.Naming.Marks
import Scaffold.Proofs.Packages
import Scaffold.TypeScript.Emission

/-!
The lines of a TypeScript service and of an enumeration. Without hooks and with the templates that are always there
they are put together from the type and, for the imports of a service, from the aliases.
-/

namespace Scaffold

namespace Generator

variable {g : Generator} {w : Workshop}

/-- A template that is answered gives the lines of the answer. -/
theorem templateLines_eq_ok {name s : String} {context : Template.Context} {lines : List String}
    (answer : (g.packages.answer w.uses w.tree ⟨g.name, g.templates, name, context⟩).text = .ok s)
    (h : (g.templateLines name context w).result = .ok lines) : lines = Text.splitLines s := by
  simp only [templateLines, request, answer] at h
  exact (Except.ok.inj h).symm

end Generator

namespace TypeScript

open Scaffold.Graph

variable {g : Generator} {d : TypeDescriptor} {c : Config} {a : Artifact} {w : Workshop} {p : Packages}

/-- Without hooks a service has the imports that its template gives, that of its model, and the lines of its
template. -/
theorem createService_eq_ok (plain : g.hooks = Hooks.none) (h : (createService g d w).result = .ok a) :
    ∃ imports own lines, ∃ w₁ w₂ : Workshop,
      (g.templateLines "typescript/service_imports.ts" (serviceContext g.config d) w₁).result = .ok imports ∧
      importGiven g.config.modelAlias (.str d.name) (.str (Naming.subPath d.namespace_)) = .ok own ∧
      (g.templateLines "typescript/service.ts" (serviceContext g.config d) w₂).result = .ok lines ∧
      a.imports = imports ++ [own] ∧ a.source = lines.map .str ∧
      a.item = .typeScriptService ∧ a.hasRegions = true ∧ a.hasCustomImports = true := by
  unfold createService at h
  simp only [Action.bind_eq, Generator.betweenHooks_none plain] at h
  obtain ⟨name, path, -, -, made⟩ := Generator.exists_of_newArtifact_bind plain h
  rw [made] at h
  obtain ⟨imports, given, h⟩ := Action.bind_eq_ok.mp h
  obtain ⟨own, ofModel, stated⟩ := Building.exists_of_orMisfit_bind h
  rw [stated] at h
  obtain ⟨lines, body, h⟩ := Action.bind_eq_ok.mp h
  obtain rfl := Except.ok.inj h
  exact ⟨imports, own, lines, _, _, given, ofModel, body, by simp [Artifact.addTexts, Artifact.addLines],
    by simp [Artifact.addTexts, Artifact.addLines], rfl, rfl, rfl⟩

/-- With the templates that are always there the lines of a service are known. -/
theorem templateLines_service (renders : g.packages.RendersBuiltins) (builtin : g.templates = ⟨none, Template.builtins⟩)
    {lines : List String}
    (h : (g.templateLines "typescript/service.ts" (serviceContext g.config d) w).result = .ok lines) :
    lines = Text.splitLines ("\n".intercalate (serviceLines g.packages d)) :=
  Generator.templateLines_eq_ok (by rw [builtin, renders.service]) h

theorem templateLines_serviceImports (renders : g.packages.RendersBuiltins)
    (builtin : g.templates = ⟨none, Template.builtins⟩) {lines : List String}
    (h : (g.templateLines "typescript/service_imports.ts" (serviceContext g.config d) w).result = .ok lines) :
    lines = Text.splitLines ("\n".intercalate (serviceImportLines g.config d)) :=
  Generator.templateLines_eq_ok (by rw [builtin, renders.serviceImports]) h

theorem isOpen_serviceLines (p : Packages) : ∀ line ∈ serviceLines p d, Text.IsOpen line := by
  have closed : ∀ line ∈ decoratorLines ++ ["  constructor(public override http: HttpClient) \x7b", "  \x7d", "\x7d"],
      Text.isSingleLine line = true ∧ line ≠ "" := by decide
  have open_ {line : String} (h : Text.isSingleLine line = true ∧ line ≠ "") : Text.IsOpen line :=
    Text.isOpen_of_single h.1 h.2
  intro line mem
  simp only [serviceLines, constructorLines, List.mem_append, List.mem_cons, List.not_mem_nil, or_false] at mem
  rcases mem with mem | rfl | (rfl | rfl | rfl) | rfl
  · exact open_ (closed line (List.mem_append_left _ mem))
  · exact Text.isOpen_append _ (Text.isOpen_of_single (by decide) (by decide))
  · exact open_ (closed _ (by simp))
  · exact Text.isOpen_append _ (Text.isOpen_of_single (by decide) (by decide))
  · exact open_ (closed _ (by simp))
  · exact open_ (closed _ (by simp))

theorem isOpen_serviceImportLines : ∀ line ∈ serviceImportLines c d, Text.IsOpen line := by
  have written (name module_ : String) : Text.IsOpen (importLine name module_) :=
    Text.isOpen_append _ (Text.isOpen_of_single (by decide) (by decide))
  intro line mem
  simp only [serviceImportLines, List.mem_cons, List.not_mem_nil, or_false] at mem
  rcases mem with rfl | rfl | rfl | rfl
  all_goals exact written _ _

/-- The plural of a name, or of no name, has no marks but those of the name. -/
theorem marksIn_pluralOf (keeps : p.KeepsMarks) (name : String) :
    Text.MarksIn (p.pluralOf name).toList name.toList := by
  unfold Packages.pluralOf
  split
  · exact .of_all (by decide)
  · exact keeps name

theorem isSingleLine_serviceLines (keeps : p.KeepsMarks) (single : Text.isSingleLine d.name = true) :
    ∀ line ∈ serviceLines p d, Text.isSingleLine line = true ∧ line ≠ "" := by
  have address : Text.isSingleLine (Text.lower (p.pluralOf d.name)) = true :=
    Text.isSingleLine_of_marksIn ((Naming.marksIn_lower _).trans (marksIn_pluralOf keeps _)) single
  have base : Text.isSingleLine (baseService d) = true := by
    unfold baseService
    split <;> decide
  intro line mem
  rcases List.mem_append.mp mem with mem | mem
  · have decorators : ∀ line ∈ decoratorLines, Text.isSingleLine line = true ∧ line ≠ "" := by decide
    exact decorators line mem
  rcases List.mem_cons.mp mem with rfl | mem
  · unfold serviceLine
    simp only [Text.isSingleLine_append, single, base]
    exact ⟨by decide, by simp⟩
  · simp only [constructorLines, List.cons_append, List.nil_append, List.mem_cons, List.not_mem_nil, or_false] at mem
    rcases mem with rfl | rfl | rfl | rfl
    · decide
    · unfold addressLine
      simp only [Text.isSingleLine_append, address]
      exact ⟨by decide, by simp⟩
    · decide
    · decide

theorem isSingleLine_serviceImportLines (single : Text.isSingleLine c.serviceAlias.text = true) :
    ∀ line ∈ serviceImportLines c d, Text.isSingleLine line = true ∧ line ≠ "" := by
  have base : Text.isSingleLine (baseServiceLine c d) = true ∧ baseServiceLine c d ≠ "" := by
    unfold baseServiceLine importLine baseService
    split
    · simp only [Text.isSingleLine_append, single]
      exact ⟨by decide +kernel, by simp⟩
    · simp only [Text.isSingleLine_append, single]
      exact ⟨by decide +kernel, by simp⟩
  intro line mem
  simp only [serviceImportLines, List.mem_cons, List.not_mem_nil, or_false] at mem
  rcases mem with rfl | rfl | rfl | rfl
  · decide
  · decide
  · exact base
  · decide

/-- Without hooks an enumeration has its lines, and no place for custom imports. -/
theorem createEnum_eq_ok (plain : g.hooks = Hooks.none) (h : (createEnum g d w).result = .ok a) :
    a.imports = [] ∧ a.source = (enumLines d).map .str ∧ a.item = .typeScriptEnum ∧ a.hasRegions = true ∧
      a.hasCustomImports = false := by
  unfold createEnum at h
  simp only [Action.bind_eq, Generator.betweenHooks_none plain] at h
  obtain ⟨name, path, -, -, made⟩ := Generator.exists_of_newArtifact_bind plain h
  rw [made] at h
  obtain rfl := Except.ok.inj h
  exact ⟨rfl, by simp [Artifact.addTexts, Artifact.addLines], rfl, rfl, rfl⟩

end TypeScript

end Scaffold
