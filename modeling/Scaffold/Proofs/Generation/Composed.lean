import Scaffold.Proofs.Generation.Agreement

/-!
What an artifact is composed of when it is built. Above its body stand the lines of its namespace, the imports and the
custom imports; the custom code stands before the last line of the body.
-/

namespace Scaffold

open Region

/-- The region of a kind with some lines between its labels. -/
def RegionLabels.region (l : RegionLabels) (kind : RegionKind) (lines : List String) : Region :=
  ⟨l.beginOf kind, l.endOf kind, kind, lines⟩

/-- The lines above and below what is merged. -/
inductive Generator.Encloses (g : Generator) (d : Graph.TypeDescriptor) (item : ItemKind) :
    List String → List String → Prop
  | csharp {namespace_ : String} (target : g.target = .csharp)
      (named : Naming.moduleGiven [g.config.rootNamespace, g.config.modelsFolder, .str d.namespace_] = .ok namespace_) :
      g.Encloses d item
        (("namespace " ++ namespace_) :: "\x7b" :: (if item = .model then CSharp.modelUsings else [])) ["\x7d"]
  | typescript (target : g.target = .typescript) : g.Encloses d item [] []

variable {g : Generator} {graph : Graph.TypeGraph} {item : ItemKind} {d : Graph.TypeDescriptor}
  {w : Workshop} {a e m : Artifact} {body : List String}

theorem dropLast_append_last {α : Type} (l : List α) : l.dropLast ++ l.getLast?.toList = l := by
  rcases List.eq_nil_or_concat l with rfl | ⟨front, last, rfl⟩
  · rfl
  · simp

theorem Region.spliced_parts {l : RegionLabels} {prior : Regions} (labelled : prior.Labelled l)
    (source : e.source = body.map .str) :
    spliced l e prior = (distinctLines e.imports).map .str ++
      (if e.hasCustomImports then
        (l.region .imports (notGenerated e.imports (prior.linesOf .imports))).render else []) ++
      (body.dropLast.map .str ++ ((l.region .code (prior.linesOf .code)).render ++ body.getLast?.toList.map .str)) := by
  have code := getD_emptyRegion labelled .code
  have custom := getD_emptyRegion labelled .imports
  simp only [Regions.of] at code custom
  have kept : withoutGenerated (distinctLines e.imports) ⟨l.beginOf .imports, l.endOf .imports, .imports,
      prior.linesOf .imports⟩ = l.region .imports (notGenerated e.imports (prior.linesOf .imports)) := by
    rw [← notGenerated_distinctLines]
    rfl
  simp only [spliced, code, custom, kept, beforeLast_eq, source]
  simp [List.map_dropLast, List.getLast?_map, Option.toList_map, RegionLabels.region]

namespace Generator

/-- How an item is emitted. -/
inductive Emits (g : Generator) (graph : Graph.TypeGraph) (d : Graph.TypeDescriptor) (w : Workshop)
    (e : Artifact) : ItemKind → Prop
  | model (target : g.target = .csharp) (made : (CSharp.createModel g graph d w).result = .ok e) :
      g.Emits graph d w e .model
  | inheritance (target : g.target = .csharp) (made : (CSharp.createInheritance g graph d w).result = .ok e) :
      g.Emits graph d w e .modelInheritance
  | enumeration (target : g.target = .typescript) (made : (TypeScript.createEnum g d w).result = .ok e) :
      g.Emits graph d w e .typeScriptEnum
  | interface (target : g.target = .typescript) (made : (TypeScript.createModel g graph d w).result = .ok e) :
      g.Emits graph d w e .typeScriptModel
  | service (target : g.target = .typescript) (made : (TypeScript.createService g d w).result = .ok e) :
      g.Emits graph d w e .typeScriptService

theorem emits_of_ok (h : (g.emit graph item d w).result = .ok e) : g.Emits graph d w e item := by
  unfold emit at h
  cases target : g.target with
  | csharp =>
    rw [target] at h
    cases item with
    | model => exact .model target h
    | modelInheritance => exact .inheritance target h
    | _ => cases h
  | typescript =>
    rw [target] at h
    cases item with
    | typeScriptEnum => exact .enumeration target h
    | typeScriptModel => exact .interface target h
    | typeScriptService => exact .service target h
    | _ => cases h

theorem Encloses.eq_nil {above below : List String} (h : g.Encloses d item above below)
    (target : g.target = .typescript) : above = [] ∧ below = [] := by
  cases h with
  | csharp other => cases target.symm.trans other
  | typescript => exact ⟨rfl, rfl⟩

theorem Encloses.exists_namespace {above below : List String} (h : g.Encloses d item above below)
    (target : g.target = .csharp) : ∃ namespace_, below = ["\x7d"] ∧
      above = ("namespace " ++ namespace_) :: "\x7b" :: (if item = .model then CSharp.modelUsings else []) := by
  cases h with
  | csharp => exact ⟨_, rfl, rfl⟩
  | typescript other => cases target.symm.trans other

theorem finish_encloses (h : g.finish d m = .ok a) :
    ∃ above below, g.Encloses d m.item above below ∧ a.imports = m.imports ∧
      a.source = above.map .str ++ m.source ++ below.map .str := by
  unfold finish at h
  cases target : g.target with
  | typescript =>
    simp only [target] at h
    obtain rfl := Except.ok.inj h
    exact ⟨[], [], .typescript target, rfl, by simp⟩
  | csharp =>
    simp only [target, CSharp.envelope] at h
    cases named : Naming.moduleGiven [g.config.rootNamespace, g.config.modelsFolder, .str d.namespace_] with
    | error e => simp [named, Except.map] at h
    | ok namespace_ =>
      simp only [named, Except.map] at h
      obtain rfl := Except.ok.inj h
      exact ⟨_, _, .csharp target named, rfl, by simp [Artifact.inNamespace]⟩

/-- What is built is what was emitted, with the custom lines that are found for its path between their labels. Above
the custom imports stand the generated ones and what encloses the body. -/
theorem composed_of_build (plain : g.hooks = Hooks.none) (h : (g.build graph item d w).result = .ok a) :
    ∃ e p above below, (g.emit graph item d w).result = .ok e ∧ Output.filePath g.config a = .ok p ∧
      g.Encloses d e.item above below ∧ a.imports = e.imports ∧
      (e.hasRegions = true → ∃ state prior,
        (extract g.config (g.emit graph item d w).state.tree p).result = .ok (state, prior) ∧
        ∀ body : List String, e.source = body.map .str → a.source = (above ++ distinctLines e.imports).map .str ++
          (if e.hasCustomImports then
            (g.config.labels.region .imports (notGenerated e.imports (prior.linesOf .imports))).render else []) ++
          (body.dropLast.map .str ++ ((g.config.labels.region .code (prior.linesOf .code)).render ++
            (body.getLast?.toList ++ below).map .str))) := by
  obtain ⟨e, project, m, emitted, path, merged, finished⟩ := build_eq_ok plain h
  obtain ⟨-, filePath⟩ := filePath_of_finish (emit_gives plain _ _ emitted) path merged finished
  obtain ⟨prior, unstated, found⟩ := merge_eq_ok merged
  obtain ⟨above, below, encloses, imports, source⟩ := finish_encloses finished
  have sameItem : m.item = e.item := by
    have := congrArg Artifact.item unstated
    exact this
  have sameImports : m.imports = e.imports := by
    have := congrArg Artifact.imports unstated
    exact this
  have sameSource : m.source = (mergedTo g.config.labels e prior).source := by
    have := congrArg Artifact.source unstated
    exact this
  refine ⟨e, e.path project, above, below, emitted, filePath, sameItem ▸ encloses, imports.trans sameImports, ?_⟩
  intro regions
  obtain ⟨state, extracted⟩ := found regions
  refine ⟨state, prior, extracted, fun body lines => ?_⟩
  rw [source, sameSource, mergedTo, if_pos regions, spliced_parts (extract_labelled extracted) lines]
  simp

end Generator

end Scaffold
