import Scaffold.Generation.Run
import Scaffold.Proofs.Generation.Hook

/-!
What is kept while an artifact is emitted. It starts with the unit, the name and the path of its item and type, and
what follows adds lines and imports; nothing but a hook changes the rest. So what holds of the bare artifact, and
is kept by the hooks, holds of the emitted one. Without hooks it is for the unit of the target, and its path ends
with the extension of the target.
-/

namespace Scaffold

namespace Artifact

/-- A property that adding to an artifact leaves: lines, imports and the places of regions have no part in it. -/
def LeftByAdding (P : Artifact → Prop) : Prop :=
  ∀ (a : Artifact) source imports hasRegions hasCustomImports, P a →
    P { a with source, imports, hasRegions, hasCustomImports }

/-- An artifact for the unit of a target and under its extension. -/
structure IsFor (target : Target) (a : Artifact) : Prop where
  unit : a.unit = target.unit
  subPath : ∃ parts name, Naming.joinGiven (parts ++ [.str (name ++ target.extension)]) = .ok a.subPath

theorem leftByAdding_subPath (Q : String → Prop) : LeftByAdding fun a => Q a.subPath :=
  fun _ _ _ _ _ h => h

theorem leftByAdding_isFor (target : Target) : LeftByAdding (IsFor target) :=
  fun _ _ _ _ _ h => ⟨h.unit, h.subPath⟩

theorem LeftByAdding.source {P : Artifact → Prop} {a : Artifact} (left : LeftByAdding P) (h : P a)
    (source : List Json) : P { a with source } := left a source _ _ _ h

end Artifact

namespace Generator

open Action.Gives

variable {g : Generator} {graph : Graph.TypeGraph} {item : ItemKind} {d : Graph.TypeDescriptor}
  {t : Tree} {P : Artifact → Prop}

/-- The path of an item's file for a type. The last two items have no files of their own. -/
def plannedPath (c : Config) (d : Graph.TypeDescriptor) : ItemKind → Except Misfit String
  | .model => CSharp.subPath c d ""
  | .modelInheritance => CSharp.subPath c d "Inheritance"
  | .typeScriptEnum => TypeScript.subPath c TypeScript.enumsFolder d d.name
  | .typeScriptModel => TypeScript.subPath c TypeScript.modelsFolder d d.name
  | .typeScriptService => TypeScript.subPath c TypeScript.servicesFolder d (d.name ++ "Service")
  | .modelProperty | .lambda => .ok ""

/-- The bare artifact of an item has a property, where the item is planned for a type. -/
def StartsWith (g : Generator) (item : ItemKind) (d : Graph.TypeDescriptor) (P : Artifact → Prop) : Prop :=
  ∀ name path, plannedPath g.config d item = .ok path →
    P { unit := g.target.unit, item, fullName := name, subPath := path, extension := g.target.extension }

section Creators

variable (left : Artifact.LeftByAdding P) (keep : g.hooks.Keep P)

include left

theorem addAttribute_keeps (scope : Settings.Scope) {a : Artifact} (ha : P a) :
    (CSharp.addAttribute scope a).Gives P := by
  refine after fun given => ok ?_
  split
  · exact ha
  · exact left.source ha _

theorem addSummary_keeps {c : Config} (text : String) {a : Artifact} (ha : P a) :
    P (CSharp.addSummary c text a) := by
  rw [CSharp.addSummary_eq]
  exact left.source ha _

theorem addMember_keeps {a : Artifact} {p : Graph.PropertyDescriptor} (ha : P a) :
    (TypeScript.addMember g graph d a p).Gives P := by
  unfold TypeScript.addMember
  split
  · exact after fun _ => ok ha
  · exact after fun _ => ok (left.source ha _)

include keep

theorem addProperty_keeps (m : CSharp.Mapper) {a : Artifact} {p : Graph.PropertyDescriptor} (ha : P a) :
    (CSharp.addProperty g m a p).Gives P :=
  bind (betweenHooks_keeps keep ha fun _ hb => addAttribute_keeps left _ hb) fun _ hb =>
    after fun _ => ok (left.source hb _)

theorem createModel_keeps (start : g.StartsWith .model d P) : (CSharp.createModel g graph d).Gives P := by
  unfold CSharp.createModel
  refine bind (newArtifact_keeps keep start) fun a ha => after fun visibility => ?_
  refine bind (betweenHooks_keeps keep (addSummary_keeps left _ ha) fun _ hb => addAttribute_keeps left _ hb)
    fun a ha => after fun ps => ?_
  refine bind (foldEach (left.source ha _) fun a p ha => addProperty_keeps left keep _ ha) fun a ha => ?_
  refine after fun lambda => after fun members => ok (left.source ?_ _)
  split
  · exact ha
  · exact left.source ha _

theorem createInheritance_keeps (start : g.StartsWith .modelInheritance d P) :
    (CSharp.createInheritance g graph d).Gives P := by
  unfold CSharp.createInheritance
  refine bind (newArtifact_keeps keep start) fun a ha => ?_
  refine betweenHooks_keeps keep (addSummary_keeps left _ (left a _ _ _ _ ha)) fun b hb => ?_
  exact after fun base => after fun lines => ok (left.source hb _)

theorem createEnum_keeps (start : g.StartsWith .typeScriptEnum d P) : (TypeScript.createEnum g d).Gives P :=
  bind (newArtifact_keeps keep start) fun a ha =>
    betweenHooks_keeps keep (left a _ _ _ _ ha) fun _ hb => ok (left.source hb _)

theorem createInterface_keeps (start : g.StartsWith .typeScriptModel d P) :
    (TypeScript.createModel g graph d).Gives P := by
  unfold TypeScript.createModel
  refine after fun base => bind (newArtifact_keeps keep start) fun a ha => after fun imports => ?_
  refine betweenHooks_keeps keep (left a _ _ _ _ ha) fun b hb => ?_
  exact bind (foldEach (left.source hb _) fun b p hb => addMember_keeps left hb) fun b hb =>
    ok (left.source hb _)

theorem createService_keeps (start : g.StartsWith .typeScriptService d P) :
    (TypeScript.createService g d).Gives P := by
  unfold TypeScript.createService
  refine bind (newArtifact_keeps keep start) fun a ha => after fun imports => after fun own => ?_
  refine betweenHooks_keeps keep (left a _ _ _ _ ha) fun b hb => ?_
  exact after fun lines => ok (left.source hb _)

/-- What holds of the bare artifact, and is kept by the hooks, holds of what is emitted. -/
theorem emit_keeps (start : item ∈ g.target.items → g.StartsWith item d P) :
    (g.emit graph item d).Gives P := by
  unfold emit
  split
  case h_1 target => exact createModel_keeps left keep (start (by simp [target, Target.items]))
  case h_2 target => exact createInheritance_keeps left keep (start (by simp [target, Target.items]))
  case h_3 target => exact createEnum_keeps left keep (start (by simp [target, Target.items]))
  case h_4 target => exact createInterface_keeps left keep (start (by simp [target, Target.items]))
  case h_5 target => exact createService_keeps left keep (start (by simp [target, Target.items]))
  case h_6 => exact fail _

end Creators

/-- A planned path ends with the extension of the target. -/
theorem joinGiven_of_plannedPath {c : Config} {target : Target} {s : String} (mem : item ∈ target.items)
    (planned : plannedPath c d item = .ok s) :
    ∃ parts name, Naming.joinGiven (parts ++ [.str (name ++ target.extension)]) = .ok s := by
  cases target with
  | csharp =>
    cases item with
    | model => exact ⟨[c.modelsFolder, .str _], d.name ++ "", planned⟩
    | modelInheritance => exact ⟨[c.modelsFolder, .str _], d.name ++ "Inheritance", planned⟩
    | _ => simp [Target.items] at mem
  | typescript =>
    cases item with
    | typeScriptEnum | typeScriptModel =>
      exact ⟨[c.angularSourcePath, .str _, .str _], Naming.fileItem d.name, planned⟩
    | typeScriptService =>
      exact ⟨[c.angularSourcePath, .str _, .str _], Naming.fileItem (d.name ++ "Service"), planned⟩
    | _ => simp [Target.items] at mem

/-- What is emitted without hooks is for the unit of the target and under its extension. -/
theorem emit_gives (plain : g.hooks = Hooks.none) :
    (g.emit graph item d).Gives (Artifact.IsFor g.target) :=
  emit_keeps (Artifact.leftByAdding_isFor _) (plain ▸ Hooks.keep_none) fun mem _ _ planned =>
    ⟨rfl, joinGiven_of_plannedPath mem planned⟩

end Generator

end Scaffold
