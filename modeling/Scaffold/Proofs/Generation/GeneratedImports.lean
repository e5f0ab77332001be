import Scaffold.Proofs.CSharp.Model
import Scaffold.Proofs.Generation.Composed
import Scaffold.Proofs.Generation.Sharing
import Scaffold.Proofs.Template.Rendering
import Scaffold.Proofs.TypeScript.Members
import Scaffold.Proofs.TypeScript.Service

/-!
Imports that are generated, and custom imports. A merge leaves out of the custom imports what the artifact itself
imports, so that stands once in what is built. The usings of a C# model are put above it when its file has been
merged, and no import that the merge knows of: a custom line that says the same as one of them stays.
-/

namespace Scaffold

open Scaffold.Graph Region

variable {g : Generator} {graph : TypeGraph} {item : ItemKind} {d : TypeDescriptor} {w : Workshop}
  {a e : Artifact} {store : Settings.Store} {lines : List String} {line : String}

theorem notGenerated_nil (lines : List String) : notGenerated [] lines = lines :=
  List.filter_eq_self.mpr fun _ _ => rfl

theorem strip_notMem_of_notGenerated {generated : List String} (mem : line ∈ notGenerated generated lines) :
    Text.strip line ∉ generated.map Text.strip := by
  simpa using (List.mem_filter.mp mem).2

namespace TypeScript

/-- Lines that start otherwise are no import lines. -/
theorem importLine_notMem (other : ∀ line ∈ lines, line.toList.head? ≠ some 'i') (name module_ : String) :
    importLine name module_ ∉ lines := fun mem => other _ mem (by simp [importLine])

/-- Import lines stand once above a body without any. -/
theorem count_importLine {imports body : List String} {i : String}
    (written : ∃ name module_, i = importLine name module_) (mem : i ∈ imports)
    (other : ∀ line ∈ body, line.toList.head? ≠ some 'i') :
    (distinctLines imports ++ body.dropLast ++ body.getLast?.toList).count i = 1 := by
  obtain ⟨name, module_, rfl⟩ := written
  rw [List.append_assoc, dropLast_append_last, List.count_append, count_distinctLines mem,
    List.count_eq_zero_of_not_mem (importLine_notMem other name module_)]

theorem importLine_of_modelImports {base : Json} (h : modelImports g.config graph d base = .ok lines)
    (mem : line ∈ lines) : ∃ name module_, line = importLine name module_ := by
  rcases given_of_mem_modelImports h mem with given | ⟨-, -, t, -, given⟩
  all_goals
    obtain ⟨name, -, module_, -, -, -, rfl⟩ := Import.exists_importLine_of_given given
    exact ⟨name, module_, rfl⟩

theorem importLine_of_serviceImports (mem : line ∈ serviceImportLines g.config d) :
    ∃ name module_, line = importLine name module_ := by
  simp only [serviceImportLines, List.mem_cons, List.not_mem_nil, or_false] at mem
  rcases mem with rfl | rfl | rfl | rfl
  all_goals exact ⟨_, _, rfl⟩

theorem head?_serviceLines (p : Packages) : ∀ line ∈ serviceLines p d, line.toList.head? ≠ some 'i' := by
  have closed : ∀ line ∈ decoratorLines ++ ["  constructor(public override http: HttpClient) \x7b", "  \x7d", "\x7d"],
      line.toList.head? ≠ some 'i' := by decide
  have opening : (serviceLine d).toList.head? ≠ some 'i' := by
    unfold serviceLine
    simp
  have address : (addressLine p d).toList.head? ≠ some 'i' := by
    unfold addressLine
    simp
  intro line mem
  simp only [serviceLines, constructorLines, List.mem_append, List.mem_cons, List.not_mem_nil, or_false] at mem
  rcases mem with mem | rfl | (rfl | rfl | rfl) | rfl
  · exact closed line (List.mem_append_left _ mem)
  · exact opening
  · exact closed _ (by simp)
  · exact address
  · exact closed _ (by simp)
  · exact closed _ (by simp)

/-- The imports of a model stand once around its regions. -/
theorem count_modelImports (plain : g.hooks = Hooks.none) (h : (createModel g graph d w).result = .ok e) :
    ∃ body : List String, e.source = body.map .str ∧ e.hasRegions = true ∧ e.hasCustomImports = true ∧
      ∀ i ∈ e.imports, (distinctLines e.imports ++ body.dropLast ++ body.getLast?.toList).count i = 1 := by
  obtain ⟨base, lines, -, imports, source, -, regions, custom, divided⟩ := createModel_eq_ok plain h
  refine ⟨interfaceLine d base :: (lines ++ ["\x7d"]), by simp [source], regions, custom, fun i mem => ?_⟩
  refine count_importLine (importLine_of_modelImports imports mem) mem fun line memBody => ?_
  rcases List.mem_cons.mp memBody with rfl | memBody
  · unfold interfaceLine
    simp
  rcases List.mem_append.mp memBody with memLines | memLast
  · obtain ⟨p, -, type, case, -, -, rfl⟩ := divided.exists_of_mem memLines
    simp
  · obtain rfl := List.mem_singleton.mp memLast
    decide

/-- So do those of a service, if neither its name nor the alias ends a line. -/
theorem count_serviceImports (plain : g.hooks = Hooks.none) (h : (createService g d w).result = .ok e) :
    ∃ body : List String, e.source = body.map .str ∧ e.hasRegions = true ∧ e.hasCustomImports = true ∧
      (g.packages.RendersBuiltins → g.packages.KeepsMarks → g.templates = ⟨none, Template.builtins⟩ →
        Text.isSingleLine d.name = true → Text.isSingleLine g.config.serviceAlias.text = true →
        ∀ i ∈ e.imports, (distinctLines e.imports ++ body.dropLast ++ body.getLast?.toList).count i = 1) := by
  obtain ⟨imports, own, body, w₁, w₂, given, ofModel, made, eq, source, -, regions, custom⟩ :=
    createService_eq_ok plain h
  refine ⟨body, source, regions, custom, fun renders keeps builtin named alias_ i mem => ?_⟩
  have ofBody := templateLines_service renders builtin made
  rw [Text.splitLines_intercalate_of_single (isSingleLine_serviceLines keeps named)] at ofBody
  have ofImports := templateLines_serviceImports renders builtin given
  rw [Text.splitLines_intercalate_of_single (isSingleLine_serviceImportLines alias_)] at ofImports
  refine count_importLine ?_ mem (ofBody ▸ head?_serviceLines _)
  rw [eq, ofImports] at mem
  rcases List.mem_append.mp mem with mem | mem
  · exact importLine_of_serviceImports mem
  · obtain rfl := List.mem_singleton.mp mem
    obtain ⟨name, -, module_, -, -, -, rfl⟩ := Import.exists_importLine_of_given ofModel
    exact ⟨name, module_, rfl⟩

end TypeScript

namespace CSharp

variable {type : PropertyDescriptor → CSharpType} {ps : List PropertyDescriptor}

/-- Does the line look like a using? One has the first letter of that word, and assigns nothing. -/
def looksUsing (line : String) : Bool := line.toList.head? == some 'u' && !line.toList.contains '='

theorem looksUsing_of_head? (h : line.toList.head? ≠ some 'u') : looksUsing line = false := by
  simp [looksUsing, h]

theorem looksUsing_modelUsings : ∀ u ∈ modelUsings, looksUsing u = true := by decide

theorem looksUsing_attribute {scope : Settings.Scope} :
    ∀ line ∈ attributeLines store scope, looksUsing line = false := by
  intro line mem
  obtain ⟨rest, rfl⟩ := exists_of_mem_attributeLines mem
  exact looksUsing_of_head? (by simp)

theorem looksUsing_above : ∀ line ∈ headLines g store d ++ openingLines g store d, looksUsing line = false := by
  have shown : ∀ v ∈ visibilities, v.toList ≠ [] ∧ v.toList.head? ≠ some 'u' := by decide
  obtain ⟨some_, other⟩ := shown _ (visibilityFor_mem g store d)
  intro line mem
  rcases List.mem_append.mp mem with mem | mem
  · rcases exists_of_mem_headLines mem with ⟨rest, rfl⟩ | ⟨rest, rfl⟩
    · exact looksUsing_of_head? (by simp)
    · exact looksUsing_of_head? (by simp)
  · rcases List.mem_pair.mp mem with rfl | rfl
    · refine looksUsing_of_head? ?_
      rwa [String.toList_append, String.toList_append, List.append_assoc, List.head?_append_of_ne_nil _ some_]
    · decide

theorem looksUsing_declarations : ∀ line ∈ ps.flatMap (fun p => declarationLines g store p (type p)),
    looksUsing line = false := by
  intro line mem
  obtain ⟨p, -, mem⟩ := List.mem_flatMap.mp mem
  rcases List.mem_append.mp mem with mem | mem
  · exact looksUsing_attribute line mem
  · obtain rfl := List.mem_singleton.mp mem
    exact looksUsing_of_head? (by simp [propertyLine])

theorem looksUsing_copyMethod {name : String} :
    ∀ line ∈ copyMethod name (ps.map fun p => Mapper.copyOf p (type p)), looksUsing line = false := by
  have copies (p : PropertyDescriptor) : looksUsing (Mapper.copyOf p (type p)) = false := by
    obtain ⟨rest, eq⟩ := exists_copyOf_eq p (type p)
    rw [eq]
    simp [looksUsing]
  simpa [copyMethod, copies, or_imp, forall_and] using
    ⟨looksUsing_of_head? (by simp), by decide, by decide, by decide⟩

theorem looksUsing_methods : ∀ line ∈ methodLines d ps type, looksUsing line = false := by
  have making : ∀ line ∈ factories d.name, line.toList.head? ≠ some 'u' := by simp [factories]
  have comparing : ∀ line ∈ equalsMethod d.name ps, line.toList.head? ≠ some 'u' := by simp [equalsMethod]
  have hashing : ∀ line ∈ hashMethod ps, line.toList.head? ≠ some 'u' := by simp [hashMethod, or_imp, forall_and]
  intro line mem
  rcases List.mem_append.mp mem with mem | mem
  · rcases List.mem_append.mp mem with mem | mem
    · rcases List.mem_append.mp mem with mem | mem
      · exact looksUsing_of_head? (making line mem)
      · exact looksUsing_copyMethod line mem
    · exact looksUsing_of_head? (comparing line mem)
  · exact looksUsing_of_head? (hashing line mem)

/-- A model holds a using only where the settings have it written. -/
theorem count_modelLines {u : String} (mem : u ∈ modelUsings) :
    (modelLines g store d type).count u = (trailingLines g store d).count u := by
  have absent {lines : List String} (h : ∀ line ∈ lines, looksUsing line = false) : lines.count u = 0 := by
    refine List.count_eq_zero_of_not_mem fun memLines => ?_
    exact Bool.false_ne_true ((h u memLines).symm.trans (looksUsing_modelUsings u mem))
  have last : ["\x7d"].count u = 0 := absent (by decide)
  simp only [modelLines, classLines, List.count_append, absent looksUsing_declarations, absent looksUsing_methods, last]
  rw [← List.count_append, absent looksUsing_above]
  omega

/-- Around the regions of a model the usings stand once, those that the settings have written not counted. -/
theorem count_envelope {body : List String} {u : String} (mem : u ∈ modelUsings)
    (source : body = modelLines g store d type) (namespace_ : String) :
    (("namespace " ++ namespace_) :: "\x7b" :: modelUsings ++ body.dropLast ++
      (body.getLast?.toList ++ ["\x7d"])).count u = 1 + (trailingLines g store d).count u := by
  have absent {line : String} (h : looksUsing line = false) : line ≠ u := fun eq =>
    Bool.false_ne_true (h.symm.trans (eq ▸ looksUsing_modelUsings u mem))
  have once : modelUsings.count u = 1 := (by decide : ∀ u ∈ modelUsings, modelUsings.count u = 1) u mem
  have below : ["\x7d"].count u = 0 := List.count_eq_zero_of_not_mem fun memLast =>
    absent (by decide) (List.mem_singleton.mp memLast).symm
  have inBody : body.dropLast.count u + body.getLast?.toList.count u = (trailingLines g store d).count u := by
    rw [← List.count_append, dropLast_append_last, source, count_modelLines mem]
  have named : "namespace " ++ namespace_ ≠ u := absent (looksUsing_of_head? (by simp))
  have opened : "\x7b" ≠ u := absent (by decide)
  simp only [List.cons_append, List.count_append, List.count_cons_of_ne named, List.count_cons_of_ne opened, once,
    below]
  omega

end CSharp

/-- Custom imports and custom code stand in an artifact, each between its labels, among generated lines. -/
def Artifact.ComposedOf (a : Artifact) (l : RegionLabels) (above custom front code last : List String) : Prop :=
  a.source = above.map .str ++ (l.region .imports custom).render ++
    (front.map .str ++ ((l.region .code code).render ++ last.map .str))

namespace Generator

/-- What is built has the custom imports of its file but for those that it has generated, which stand once outside the
regions. A C# model has generated none before it is put below its usings: all custom imports of its file stay, and each
using stands once outside the regions, or once more if the settings have it written. For a service the packages have
to leave the tree; what the built-in templates import is known where they read as they are written. -/
theorem custom_imports_of_build (plain : g.hooks = Hooks.none) (reads : w.Reads store)
    (quiet : item = .typeScriptService → g.packages.Quiet g.templates fun _ t => t = w.tree)
    (taken : item ∈ [ItemKind.model, .typeScriptModel, .typeScriptService])
    (h : (g.build graph item d w).result = .ok a) :
    ∃ p state prior, ∃ above custom front last : List String, Output.filePath g.config a = .ok p ∧
      (extract g.config w.tree p).result = .ok (state, prior) ∧
      a.ComposedOf g.config.labels above custom front (prior.linesOf .code) last ∧
      custom = notGenerated a.imports (prior.linesOf .imports) ∧
      (∀ line ∈ custom, Text.strip line ∉ a.imports.map Text.strip) ∧
      (item = .typeScriptModel → ∀ i ∈ a.imports, (above ++ front ++ last).count i = 1) ∧
      (item = .typeScriptService → g.packages.RendersBuiltins → g.packages.KeepsMarks →
        g.templates = ⟨none, Template.builtins⟩ → Text.isSingleLine d.name = true →
          Text.isSingleLine g.config.serviceAlias.text = true →
            ∀ i ∈ a.imports, (above ++ front ++ last).count i = 1) ∧
      (item = .model → custom = prior.linesOf .imports ∧ ∀ u ∈ CSharp.modelUsings,
        (above ++ front ++ last).count u = 1 + (CSharp.trailingLines g store d).count u) := by
  obtain ⟨e, p, above, below, emitted, filePath, encloses, imports, composed⟩ := composed_of_build plain h
  have tree : (g.emit graph item d w).state.tree = w.tree := by
    refine tree_emit_of_quiet fun asks => asks.elim quiet ?_
    rintro rfl
    simp at taken
  rw [tree] at composed
  have found (regions : e.hasRegions = true) (custom : e.hasCustomImports = true) : ∃ state prior,
      (extract g.config w.tree p).result = .ok (state, prior) ∧ ∀ body : List String, e.source = body.map .str →
        a.ComposedOf g.config.labels (above ++ distinctLines e.imports)
          (notGenerated e.imports (prior.linesOf .imports)) body.dropLast (prior.linesOf .code)
          (body.getLast?.toList ++ below) := by
    obtain ⟨state, prior, extracted, lines⟩ := composed regions
    refine ⟨state, prior, extracted, fun body source => ?_⟩
    rw [Artifact.ComposedOf, lines body source, if_pos custom]
  cases emits_of_ok emitted with
  | inheritance => simp at taken
  | enumeration => simp at taken
  | interface target made =>
    obtain ⟨body, source, regions, custom, once⟩ := TypeScript.count_modelImports plain made
    obtain ⟨state, prior, extracted, lines⟩ := found regions custom
    have composed := lines body source
    obtain ⟨rfl, rfl⟩ := encloses.eq_nil target
    rw [List.nil_append, List.append_nil, ← imports] at composed
    exact ⟨p, state, prior, _, _, _, _, filePath, extracted, composed, rfl,
      fun line => strip_notMem_of_notGenerated, fun _ => imports ▸ once, nofun, nofun⟩
  | service target made =>
    obtain ⟨body, source, regions, custom, once⟩ := TypeScript.count_serviceImports plain made
    obtain ⟨state, prior, extracted, lines⟩ := found regions custom
    have composed := lines body source
    obtain ⟨rfl, rfl⟩ := encloses.eq_nil target
    rw [List.nil_append, List.append_nil, ← imports] at composed
    exact ⟨p, state, prior, _, _, _, _, filePath, extracted, composed, rfl,
      fun line => strip_notMem_of_notGenerated, nofun, fun _ => imports ▸ once, nofun⟩
  | model target made =>
    obtain ⟨type, -, source, none_, isModel, regions, custom⟩ := CSharp.createModel_eq_ok plain reads made
    obtain ⟨state, prior, extracted, lines⟩ := found regions custom
    have composed := lines _ source
    obtain ⟨namespace_, rfl, rfl⟩ := encloses.exists_namespace target
    rw [if_pos isModel, none_] at composed
    rw [none_] at imports
    refine ⟨p, state, prior, _, _, _, _, filePath, extracted, composed, by rw [imports], by simp [imports], nofun,
      nofun, fun _ => ⟨notGenerated_nil _, fun u mem => ?_⟩⟩
    simpa [distinctLines] using CSharp.count_envelope mem rfl namespace_

/-- The file of an order says a using once more among its custom imports, and it stays there. -/
theorem custom_imports_of_build_order :
    let d : TypeDescriptor := { name := "Order", kind := .entity, namespace_ := "", baseName := none, ancestors := []
                                properties := [] }
    let file := Text.encode (Text.joinLines ["using System;", "//@CustomImportBegin", "using System;", "using Custom;",
      "//@CustomImportEnd"])
    let t : Tree := ⟨[], [(["webapi"], .directory), (["webapi", "Models"], .directory),
      (["webapi", "Models", "Order.cs"], .file file)]⟩
    let g : Generator := ⟨"csharp", .csharp, Config.default, .none, .builtin, ⟨none, Template.builtins⟩⟩
    let w : Workshop := ⟨Settings.Resolver.ofStore ⟨[]⟩, t, []⟩
    g.hooks = Hooks.none ∧ w.Reads ⟨[]⟩ ∧ ∃ a, ∃ above custom front code last : List String,
      (g.build (.ofList [d]) .model d w).result = .ok a ∧
      a.ComposedOf g.config.labels above custom front code last ∧ custom = ["using System;", "using Custom;"] ∧
      ∀ u ∈ CSharp.modelUsings, (above ++ front ++ last).count u = 1 := by
  intro d file t g w
  have reads : w.Reads ⟨[]⟩ := Settings.Resolver.AgreesWith.ofStore ⟨[]⟩
  have checked : (g.build (.ofList [d]) .model d w).result.toOption.any (fun a =>
      (Output.filePath g.config a).toOption.any fun p => (extract g.config t p).result.toOption.any fun found =>
        decide (found.2.linesOf .imports = ["using System;", "using Custom;"])) = true := by
    decide +kernel
  obtain ⟨a, built, checked⟩ := exists_ok_of_any checked
  obtain ⟨p, filePath, checked⟩ := exists_ok_of_any checked
  obtain ⟨found, extracted, held⟩ := exists_ok_of_any checked
  obtain ⟨p', state, prior, above, custom, front, last, filePath', extracted', composed, -, -, -, -, model⟩ :=
    custom_imports_of_build rfl reads (fun service => absurd service (by decide)) (by simp) built
  obtain rfl := Except.ok.inj (filePath.symm.trans filePath')
  obtain rfl := Except.ok.inj (extracted.symm.trans extracted')
  obtain ⟨kept, usings⟩ := model rfl
  have trailing : CSharp.trailingLines g ⟨[]⟩ d = [] := by decide +kernel
  rw [trailing] at usings
  exact ⟨rfl, reads, a, above, custom, front, _, last, built, composed, kept.trans (of_decide_eq_true held), usings⟩

end Generator

end Scaffold
