import Scaffold.Proofs.Config.Typed
import Scaffold.Proofs.Generation.Emission
import Scaffold.Proofs.Generation.Place
import Scaffold.Proofs.Packages

/-!
Emission without hooks and with the templates that are always there. Where the options are of their kinds
nothing can fail, and the artifact is at the path that was planned for it.
-/

namespace Scaffold

open Scaffold.Graph Naming

variable {c : Config} {graph : TypeGraph} {d : TypeDescriptor} {g : Generator} {item : ItemKind}
  {s : String}

namespace CSharp

variable {m : Mapper}

theorem modelNamespace_ok (root : m.rootNamespace.IsText) (folder : m.modelsFolder.IsText)
    (d : TypeDescriptor) : ∃ namespace_, m.modelNamespace d = .ok namespace_ := by
  obtain ⟨r, eqRoot⟩ := root
  obtain ⟨f, eqFolder⟩ := folder
  have joined := moduleGiven_texts [r, f, d.namespace_]
  simp only [List.map_cons, List.map_nil] at joined
  exact ⟨_, by rw [Mapper.modelNamespace, eqRoot, eqFolder, joined]⟩

theorem modelFullName_ok (root : m.rootNamespace.IsText) (folder : m.modelsFolder.IsText)
    (d : TypeDescriptor) : ∃ name, m.modelFullName d = .ok name := by
  obtain ⟨namespace_, eq⟩ := modelNamespace_ok root folder d
  exact ⟨_, by rw [Mapper.modelFullName, eq]; rfl⟩

theorem enumFullName_ok (root : m.rootNamespace.IsText) (d : TypeDescriptor) :
    ∃ name, m.enumFullName d = .ok name := by
  obtain ⟨r, eqRoot⟩ := root
  have joined := moduleGiven_texts [r, d.namespace_, d.name]
  simp only [List.map_cons, List.map_nil] at joined
  exact ⟨_, by rw [Mapper.enumFullName, eqRoot, joined]⟩

theorem mapProperty_ok (root : m.rootNamespace.IsText) (folder : m.modelsFolder.IsText)
    (p : PropertyDescriptor) : ∃ mapped, m.mapProperty p = .ok mapped := by
  have target : ∃ found, m.target p = .ok found := by
    unfold Mapper.target
    cases m.graph.resolve? p with
    | none => exact ⟨_, rfl⟩
    | some d =>
      obtain ⟨enum, eqEnum⟩ := enumFullName_ok root d
      obtain ⟨model, eqModel⟩ := modelFullName_ok root folder d
      simp only [eqEnum, eqModel]
      split <;> exact ⟨_, rfl⟩
  obtain ⟨found, eq⟩ := target
  unfold Mapper.mapProperty
  rw [eq]
  split <;> exact ⟨_, rfl⟩

theorem memberLines_ok (root : m.rootNamespace.IsText) (folder : m.modelsFolder.IsText)
    (ps : List PropertyDescriptor) : ∃ lines, memberLines m d ps = .ok lines := by
  have statement (p : PropertyDescriptor) : ∃ line, m.copyStatement p = .ok line := by
    obtain ⟨mapped, eq⟩ := mapProperty_ok root folder p
    exact ⟨_, by rw [Mapper.copyStatement, eq]; rfl⟩
  obtain ⟨statements, copied⟩ :=
    exists_mapM_eq_ok (l := ps.filter fun p => !p.isVersion) fun p _ => statement p
  exact ⟨_, by simp only [memberLines, copied]; rfl⟩

theorem baseWarnings_ok (classes : c.modelBaseClasses.IsMapping) (ds : List TypeDescriptor) :
    ∃ warnings, baseWarnings c ds = .ok warnings := by
  induction ds with
  | nil => exact ⟨_, rfl⟩
  | cons d rest ih =>
    obtain ⟨base, found⟩ := d.baseIn_ok classes
    obtain ⟨warnings, others⟩ := ih
    exact ⟨_, by simp only [baseWarnings, baseClass, found, others]; rfl⟩

end CSharp

namespace TypeScript

theorem statements_ok (enums : c.enumAlias.IsText) (models : c.modelAlias.IsText) :
    ∃ lines, Import.statements graph c d = .ok lines := by
  have stated (i : Import) (aliasText : i.aliasPath.IsText) : ∃ pair, i.stated = .ok pair := by
    obtain ⟨aliasPath, eq⟩ := aliasText
    exact ⟨_, by rw [Import.stated, Import.statement, eq, importGiven_texts]; rfl⟩
  have target (found : TypeDescriptor) : (Import.ofTarget c found).aliasPath.IsText := by
    unfold Import.ofTarget
    split
    · exact enums
    · exact models
  have property (p : PropertyDescriptor) {i : Import} (eq : Import.ofProperty? graph c p = some i) :
      i.aliasPath.IsText := by
    unfold Import.ofProperty? at eq
    split at eq
    · split at eq
      · split at eq
        · exact Option.some.inj eq ▸ target _
        · cases eq
      · cases eq
    · cases eq
  obtain ⟨pairs, eq⟩ := exists_mapM_eq_ok
    (l := (d.properties.filterMap (Import.ofProperty? graph c)).filter fun i => i.name ≠ d.name)
    fun i mem => stated i (by
      obtain ⟨p, _, eq⟩ := List.mem_filterMap.mp (List.mem_filter.mp mem).1
      exact property p eq)
  exact ⟨_, by rw [Import.statements, Import.resolve, eq]; rfl⟩

theorem modelImports_ok (enums : c.enumAlias.IsText) (models : c.modelAlias.IsText) (base : String) :
    ∃ lines, modelImports c graph d (.str base) = .ok lines := by
  obtain ⟨own, eq⟩ := @statements_ok c graph d enums models
  obtain ⟨aliasPath, eqAlias⟩ := models
  simp only [modelImports, eq, eqAlias, importGiven_texts]
  split <;> exact ⟨_, rfl⟩

theorem namingCase_ok (case : ∃ name case, c.propertyCase = .str name ∧ NamingCase.ofName? name = some case) :
    ∃ found, namingCase c = .ok found := by
  obtain ⟨name, case, eq, named⟩ := case
  exact ⟨case, by simp only [namingCase, eq, named]⟩

end TypeScript

/-- The artifact has a path, and regions or not. -/
def Artifact.IsAt (s : String) (regions : Bool) (a : Artifact) : Prop :=
  a.subPath = s ∧ a.hasRegions = regions

namespace Building

theorem askText_yields (scope : Settings.Scope) (default : String) :
    (askText scope default).Yields fun _ => True := fun _ => ⟨_, rfl, trivial⟩

theorem askFlag_yields (scope : Settings.Scope) (default : String) :
    (askFlag scope default).Yields fun _ => True := fun _ => ⟨_, rfl, trivial⟩

theorem orMisfit_yields {α : Type} {r : Except Misfit α} {P : α → Prop} (h : ∃ a, r = .ok a ∧ P a) :
    (orMisfit r).Yields P := by
  obtain ⟨a, rfl, ha⟩ := h
  exact Action.Yields.ok ha

/-- What needs no more than to be there. -/
theorem orMisfit_ok {α : Type} {r : Except Misfit α} (h : ∃ a, r = .ok a) :
    (orMisfit r).Yields fun _ => True := by
  obtain ⟨a, eq⟩ := h
  exact orMisfit_yields ⟨a, eq, trivial⟩

end Building

open Building

namespace Generator

open Action.Yields

theorem newArtifact_yields (plain : g.hooks = Hooks.none) {fullName subPath : Except Misfit String}
    (named : ∃ name, fullName = .ok name) (planned : subPath = .ok s) :
    (g.newArtifact item d fullName subPath).Yields (Artifact.IsAt s true) := by
  refine bind (orMisfit_ok named) fun name _ => bind (orMisfit_yields ⟨s, planned, rfl⟩) ?_
  rintro _ rfl
  rw [plain]
  exact ok ⟨rfl, rfl⟩

/-- A template that is always there gives lines. -/
theorem templateLines_yields (renders : g.packages.RendersBuiltins)
    (builtin : g.templates = ⟨none, Template.builtins⟩) {name : String} {context : Template.Context}
    (asked : Template.IsAsked name context) : (g.templateLines name context).Yields fun _ => True := by
  intro w
  cases asked with
  | service c d => exact ⟨_, by simp only [templateLines, request, builtin, renders.service]; rfl, trivial⟩
  | serviceImports c d =>
    exact ⟨_, by simp only [templateLines, request, builtin, renders.serviceImports]; rfl, trivial⟩
  | inheritance d base =>
    exact ⟨_, by simp only [templateLines, request, builtin, renders.inheritance]; rfl, trivial⟩

end Generator

namespace CSharp

open Generator Action.Yields

theorem addSummary_isAt {a : Artifact} {regions : Bool} {text : String} (h : a.IsAt s regions) :
    (addSummary c text a).IsAt s regions := by
  rw [addSummary_eq]
  exact h

theorem addAttribute_yields (scope : Settings.Scope) {a : Artifact} {regions : Bool}
    (h : a.IsAt s regions) : (addAttribute scope a).Yields (Artifact.IsAt s regions) := by
  refine bind (askText_yields _ _) fun given _ => ok ?_
  split <;> exact h

theorem createModel_yields (typed : g.config.IsTyped) (plain : g.hooks = Hooks.none)
    (planned : subPath g.config d "" = .ok s) :
    (createModel g graph d).Yields (Artifact.IsAt s true) := by
  have root : (mapper g graph).rootNamespace.IsText := typed.rootNamespace
  have folder : (mapper g graph).modelsFolder.IsText := typed.modelsFolder
  have named := modelFullName_ok root folder d
  have visible : (visibility g d).Yields fun _ => True := by
    refine bind (askText_yields _ _) fun given _ => ?_
    split
    · exact ok trivial
    · exact bind (note _) fun _ _ => ok trivial
  have generated (p : PropertyDescriptor) : (isGenerated g p).Yields fun _ => True := by
    unfold isGenerated
    split
    · exact ok trivial
    · exact askFlag_yields _ _
  have property_ (a : Artifact) (p : PropertyDescriptor) (h : a.IsAt s true) :
      (addProperty g (mapper g graph) a p).Yields (Artifact.IsAt s true) := by
    unfold addProperty
    rw [betweenHooks_none plain]
    refine bind (addAttribute_yields _ h) fun b hb => ?_
    exact bind (orMisfit_ok (mapProperty_ok root folder p)) fun mapped _ => ok hb
  unfold createModel
  refine bind (newArtifact_yields plain named planned) fun a ha => bind visible fun _ _ => ?_
  simp only [betweenHooks_none plain]
  refine bind (addAttribute_yields _ (addSummary_isAt ha)) fun b hb => ?_
  refine bind (filterEach generated _) fun ps _ => ?_
  refine bind (foldEach (Q := Artifact.IsAt s true) hb property_) fun b hb => ?_
  refine bind (askText_yields _ _) fun lambda _ => ?_
  refine bind (orMisfit_ok (memberLines_ok root folder ps)) fun lines _ => ok ?_
  split <;> exact hb

theorem createInheritance_yields (typed : g.config.IsTyped) (plain : g.hooks = Hooks.none)
    (renders : g.packages.RendersBuiltins) (builtin : g.templates = ⟨none, Template.builtins⟩)
    (planned : subPath g.config d "Inheritance" = .ok s) :
    (createInheritance g graph d).Yields (Artifact.IsAt s false) := by
  have named := @modelFullName_ok (mapper g graph) typed.rootNamespace typed.modelsFolder d
  obtain ⟨base, found⟩ := d.baseIn_ok typed.modelBaseClasses
  unfold createInheritance
  refine bind (newArtifact_yields plain named planned) fun a ha => ?_
  rw [betweenHooks_none plain]
  refine bind (orMisfit_yields ⟨.str base, found, rfl⟩) ?_
  rintro _ rfl
  exact bind (templateLines_yields renders builtin (.inheritance d _)) fun lines _ =>
    ok (addSummary_isAt ⟨ha.1, rfl⟩)

end CSharp

namespace TypeScript

open Generator Action.Yields

theorem fullName_ok (source : c.angularSourcePath.IsText) (folder : String) (d : TypeDescriptor) :
    ∃ name, fullName c folder d = .ok name := by
  obtain ⟨source, eq⟩ := source
  have := moduleGiven_texts [source, folder, Naming.subPath d.namespace_, d.name]
  simp only [List.map_cons, List.map_nil] at this
  exact ⟨_, by rw [fullName, eq, this]⟩

theorem createEnum_yields (typed : g.config.IsTyped) (plain : g.hooks = Hooks.none)
    (planned : subPath g.config enumsFolder d d.name = .ok s) :
    (createEnum g d).Yields (Artifact.IsAt s true) := by
  unfold createEnum
  refine bind (newArtifact_yields plain (fullName_ok typed.angularSourcePath _ d) planned) fun a ha => ?_
  rw [betweenHooks_none plain]
  exact ok ha

theorem createModel_yields (typed : g.config.IsTyped) (plain : g.hooks = Hooks.none)
    (planned : subPath g.config modelsFolder d d.name = .ok s) :
    (createModel g graph d).Yields (Artifact.IsAt s true) := by
  obtain ⟨base, found⟩ := d.baseIn_ok typed.angularBaseClasses
  obtain ⟨case, named⟩ := namingCase_ok typed.propertyCase
  have member (a : Artifact) (p : PropertyDescriptor) (h : a.IsAt s true) :
      (addMember g graph d a p).Yields (Artifact.IsAt s true) := by
    unfold addMember
    split
    · exact bind (note _) fun _ _ => ok h
    · exact bind (P := fun _ => True) (ofExcept ⟨case, named, trivial⟩) fun _ _ => ok h
  unfold createModel
  refine bind (orMisfit_yields ⟨.str base, found, rfl⟩) ?_
  rintro _ rfl
  refine bind (newArtifact_yields plain (fullName_ok typed.angularSourcePath _ d) planned) fun a ha => ?_
  refine bind (orMisfit_ok (modelImports_ok typed.enumAlias typed.modelAlias base)) fun imports _ => ?_
  rw [betweenHooks_none plain]
  exact bind (foldEach (Q := Artifact.IsAt s true) ha member) fun b hb => ok hb

theorem createService_yields (typed : g.config.IsTyped) (plain : g.hooks = Hooks.none)
    (renders : g.packages.RendersBuiltins) (builtin : g.templates = ⟨none, Template.builtins⟩)
    (planned : subPath g.config servicesFolder d (d.name ++ "Service") = .ok s) :
    (createService g d).Yields (Artifact.IsAt s true) := by
  obtain ⟨aliasPath, eqModel⟩ := typed.modelAlias
  unfold createService
  refine bind (newArtifact_yields plain (fullName_ok typed.angularSourcePath _ d) planned) fun a ha => ?_
  refine bind (templateLines_yields renders builtin (.serviceImports _ d)) fun imports _ => ?_
  refine bind (orMisfit_ok ⟨_, by rw [eqModel, importGiven_texts]⟩) fun own _ => ?_
  rw [betweenHooks_none plain]
  exact bind (templateLines_yields renders builtin (.service _ d)) fun lines _ => ok ha

end TypeScript

namespace Generator

theorem plannedPath_ok (typed : c.IsTyped) (d : TypeDescriptor) (item : ItemKind) :
    ∃ s, plannedPath c d item = .ok s := by
  obtain ⟨folder, eqFolder⟩ := typed.modelsFolder
  obtain ⟨source, eqSource⟩ := typed.angularSourcePath
  cases item with
  | model | modelInheritance =>
    exact ⟨_, by rw [plannedPath, CSharp.subPath, eqFolder]; exact joinGiven_texts [folder, _, _]⟩
  | typeScriptEnum | typeScriptModel | typeScriptService =>
    exact ⟨_, by rw [plannedPath, TypeScript.subPath, eqSource]; exact joinGiven_texts [source, _, _, _]⟩
  | modelProperty | lambda => exact ⟨"", rfl⟩

/-- Every item of the target can be emitted, and is at the path that was planned. -/
theorem emit_yields (typed : g.config.IsTyped) (plain : g.hooks = Hooks.none)
    (renders : g.packages.RendersBuiltins) (builtin : g.templates = ⟨none, Template.builtins⟩)
    (mem : item ∈ g.target.items) (planned : plannedPath g.config d item = .ok s) :
    (g.emit graph item d).Yields (Artifact.IsAt s (decide (item ≠ .modelInheritance))) := by
  unfold emit
  cases target : g.target with
  | csharp =>
    obtain rfl | rfl : item = .model ∨ item = .modelInheritance := by simpa [target, Target.items] using mem
    · exact CSharp.createModel_yields typed plain planned
    · exact CSharp.createInheritance_yields typed plain renders builtin planned
  | typescript =>
    obtain rfl | rfl | rfl : item = .typeScriptEnum ∨ item = .typeScriptModel ∨ item = .typeScriptService := by
      simpa [target, Target.items] using mem
    · exact TypeScript.createEnum_yields typed plain planned
    · exact TypeScript.createModel_yields typed plain planned
    · exact TypeScript.createService_yields typed plain renders builtin planned

/-- Every artifact can be finished. -/
theorem finish_ok (typed : g.config.IsTyped) (d : TypeDescriptor) (a : Artifact) :
    ∃ b, g.finish d a = .ok b := by
  unfold finish
  cases g.target with
  | csharp =>
    obtain ⟨namespace_, named⟩ :=
      @CSharp.modelNamespace_ok (CSharp.mapper g .empty) typed.rootNamespace typed.modelsFolder d
    change moduleGiven [g.config.rootNamespace, g.config.modelsFolder, .str d.namespace_] = _ at named
    exact ⟨_, by simp only [CSharp.envelope, named]; rfl⟩
  | typescript => exact ⟨a, rfl⟩

/-- The check of a graph ends. -/
theorem validate_ok (typed : g.config.IsTyped) : ∃ warnings, g.validate graph = .ok warnings := by
  unfold validate
  cases g.target with
  | csharp =>
    obtain ⟨checked, eq⟩ := typed.csharpWarnings_ok
    obtain ⟨bases, eqBases⟩ := CSharp.baseWarnings_ok typed.modelBaseClasses graph.models
    exact ⟨_, by simp only [eq, eqBases]; rfl⟩
  | typescript =>
    obtain ⟨checked, eq⟩ := typed.typescriptWarnings_ok
    exact ⟨_, by simp only [eq]; rfl⟩

end Generator

end Scaffold
