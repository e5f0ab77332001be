import Scaffold.Generation.Run
import Scaffold.Proofs.Outcome
import Scaffold.Proofs.Packages
import Scaffold.Proofs.Respects
import Scaffold.Proofs.Settings.Answers

/-!
Building in a workshop that others use as well. All that emission does with the workshop is to ask the settings and
to have templates rendered. What one build leaves there are answers that were given and requests for templates;
where the packages answer alike whatever was asked before, neither is seen by another build.
-/

namespace Scaffold

open Settings

variable {K : Template.Situation} {t : Tree} {g : Generator} {graph : Graph.TypeGraph}
  {d : Graph.TypeDescriptor} {α β : Type}

/-- The warnings of a build. -/
inductive IsBuildWarning : Diagnostic → Prop
  | visibility {source given : String} :
      IsBuildWarning ⟨.str source, "invalid visibility '" ++ given ++ "'; using public"⟩
  | member {source type : String} :
      IsBuildWarning ⟨.str source, "no TypeScript type for '" ++ type ++ "'; property skipped"⟩
  | unclosed {source first last : String} :
      IsBuildWarning ⟨.str source, "'" ++ first ++ "' without '" ++ last ++ "'; region ignored"⟩
  | dropped {source : String} :
      IsBuildWarning ⟨.str source, "custom imports found but not supported here; dropped"⟩

namespace Generator

/-- What the steps of a generator are put together from: results, records, warnings, questions to the settings,
and templates that are asked for. -/
inductive Does (g : Generator) : {α : Type} → Building α → Prop where
  | ofExcept {α : Type} (r : Except BuildError α) : g.Does (Action.ofExcept r)
  | record (r : Log.Record) : g.Does (Action.note (.record r))
  | warn {d : Diagnostic} (isWarning : IsBuildWarning d) : g.Does (Action.note (.diagnostic d))
  | ask {q : Query} (text : q.HasTextDefault) : g.Does (Building.ask q)
  | prewarm {qs : List Query} (texts : ∀ q ∈ qs, q.HasTextDefault) : g.Does (Building.prewarm qs)
  | templateLines {name : String} {context : Template.Context} (asked : Template.IsAsked name context) :
    g.Does (g.templateLines name context)
  | bind {α β : Type} {x : Building α} {f : α → Building β} (first : g.Does x) (next : ∀ a, g.Does (f a)) :
    g.Does (x.bind f)

namespace Does

theorem ok (a : α) : g.Does (Action.ok a : Building α) := ofExcept (.ok a)

theorem fail (e : BuildError) : g.Does (Action.fail e : Building α) := ofExcept (.error e)

theorem orHook (r : Except HookError α) : g.Does (Building.orHook r) := ofExcept _

theorem orMisfit (r : Except Misfit α) : g.Does (Building.orMisfit r) := ofExcept _

theorem askFlag (scope : Scope) (default : String) : g.Does (Building.askFlag scope default) :=
  bind (ask ⟨default, rfl⟩) fun _ => ok _

theorem askText (scope : Scope) (default : String) : g.Does (Building.askText scope default) :=
  bind (ask ⟨default, rfl⟩) fun _ => ok _

theorem foldEach {f : β → α → Building β} (step : ∀ b a, g.Does (f b a)) (b : β) (l : List α) :
    g.Does (Action.foldEach f b l) := by
  induction l generalizing b with
  | nil => exact ok b
  | cons a rest ih => exact bind (step b a) ih

theorem filterEach {f : α → Building Bool} (step : ∀ a, g.Does (f a)) (l : List α) :
    g.Does (Action.filterEach f l) := by
  induction l with
  | nil => exact ok []
  | cons a rest ih => exact bind (step a) fun keep => bind ih fun kept => ok _

theorem mapEach {f : α → Building β} (step : ∀ a, g.Does (f a)) (l : List α) :
    g.Does (Action.mapEach f l) := by
  induction l with
  | nil => exact ok []
  | cons a rest ih => exact bind (step a) fun b => bind ih fun bs => ok _

theorem newArtifact (item : ItemKind) (fullName subPath : Except Misfit String) :
    g.Does (g.newArtifact item d fullName subPath) :=
  bind (orMisfit _) fun _ => bind (orMisfit _) fun _ => orHook _

theorem betweenHooks {item : ItemKind} {subject : Subject} {step : Artifact → Building Artifact}
    (h : ∀ a, g.Does (step a)) (a : Artifact) : g.Does (g.betweenHooks item subject step a) := by
  refine bind (orHook _) fun (b, done) => ?_
  cases done
  · exact bind (h b) fun _ => orHook _
  · exact bind (ok b) fun _ => orHook _

end Does

end Generator

namespace CSharp

open Generator.Does

theorem isGenerated_does (p : Graph.PropertyDescriptor) : g.Does (isGenerated g p) := by
  unfold isGenerated
  split
  · exact ok _
  · exact askFlag _ _

theorem visibility_does : g.Does (visibility g d) := by
  unfold visibility
  refine bind (askText _ _) fun given => ?_
  split
  · exact ok _
  · exact bind (warn .visibility) fun _ => ok _

theorem addAttribute_does (scope : Scope) (a : Artifact) : g.Does (addAttribute scope a) := by
  unfold addAttribute
  exact bind (askText _ _) fun _ => ok _

theorem addProperty_does (m : Mapper) (a : Artifact) (p : Graph.PropertyDescriptor) :
    g.Does (addProperty g m a p) :=
  bind (betweenHooks (addAttribute_does _) a) fun _ => bind (orMisfit _) fun _ => ok _

theorem createModel_does : g.Does (createModel g graph d) := by
  refine bind (newArtifact _ _ _) fun a => bind visibility_does fun visibility => ?_
  refine bind (betweenHooks (addAttribute_does _) _) fun a => ?_
  refine bind (filterEach isGenerated_does _) fun ps => ?_
  refine bind (foldEach (addProperty_does _) _ _) fun a => ?_
  exact bind (askText _ _) fun lambda => bind (orMisfit _) fun members => ok _

theorem createInheritance_does : g.Does (createInheritance g graph d) := by
  refine bind (newArtifact _ _ _) fun a => betweenHooks (fun a => ?_) _
  exact bind (orMisfit _) fun base => bind (templateLines (.inheritance d base)) fun lines => ok _

end CSharp

namespace TypeScript

open Generator.Does

theorem createEnum_does : g.Does (createEnum g d) :=
  bind (newArtifact _ _ _) fun _ => betweenHooks (fun _ => ok _) _

theorem addMember_does (a : Artifact) (p : Graph.PropertyDescriptor) : g.Does (addMember g graph d a p) := by
  unfold addMember
  split
  · exact bind (warn .member) fun _ => ok _
  · exact bind (ofExcept _) fun _ => ok _

theorem createModel_does : g.Does (createModel g graph d) := by
  refine bind (orMisfit _) fun base => bind (newArtifact _ _ _) fun a => ?_
  refine bind (orMisfit _) fun imports => betweenHooks (fun a => ?_) _
  exact bind (foldEach addMember_does _ _) fun _ => ok _

theorem createService_does : g.Does (createService g d) := by
  refine bind (newArtifact _ _ _) fun a => bind (templateLines (.serviceImports g.config d)) fun imports => ?_
  refine bind (orMisfit _) fun own => betweenHooks (fun a => ?_) _
  exact bind (templateLines (.service g.config d)) fun lines => ok _

end TypeScript

namespace Generator

open Does

theorem emit_does (item : ItemKind) : g.Does (g.emit graph item d) := by
  unfold emit
  split
  · exact CSharp.createModel_does
  · exact CSharp.createInheritance_does
  · exact TypeScript.createEnum_does
  · exact TypeScript.createModel_does
  · exact TypeScript.createService_does
  · exact fail _

theorem isPlanned_does (item : ItemKind) : g.Does (g.isPlanned item d) := by
  unfold isPlanned isOn
  refine bind (bind (askFlag _ _) fun _ => askFlag _ _) fun on => ?_
  split
  · exact bind (record _) fun _ => ok _
  · exact ok _

theorem plan_does : g.Does (g.plan graph) :=
  bind (mapEach (fun item => bind (filterEach (fun _ => isPlanned_does item) _) fun _ => ok _) _) fun _ => ok _

/-- The queries that are answered ahead have texts as defaults. -/
theorem hasTextDefault_queries : ∀ q ∈ g.queries graph, q.HasTextDefault := by
  intro q mem
  unfold queries at mem
  split at mem
  · obtain ⟨item, _, rfl⟩ := List.mem_map.mp mem
    exact ⟨"True", rfl⟩
  · rcases List.mem_append.mp mem with mem | mem
    · obtain ⟨item, _, rfl⟩ := List.mem_map.mp mem
      exact ⟨"True", rfl⟩
    · obtain ⟨d, _, mem⟩ := List.mem_flatMap.mp mem
      obtain ⟨p, _, rfl⟩ := List.mem_map.mp mem
      exact ⟨"True", rfl⟩

theorem prepare_does : g.Does (Generation.prepare graph g) :=
  bind (orMisfit _) fun _ => bind (prewarm hasTextDefault_queries) fun _ => bind plan_does fun _ => ok _

end Generator

namespace Workshop

/-- What was asked of templates, and the tree, are of one kind. -/
def Within (K : Template.Situation) (w : Workshop) : Prop := K w.uses w.tree

/-- The settings answer alike, in situations of one kind. -/
structure Alike (K : Template.Situation) (w w' : Workshop) : Prop where
  answers : w.settings.SameAnswers w'.settings
  left : w.Within K
  right : w'.Within K

instance (K : Template.Situation) : Std.Symm (Alike K) :=
  ⟨fun _ _ h => ⟨h.answers.symm, h.right, h.left⟩⟩

instance (K : Template.Situation) : IsTrans Workshop (Alike K) :=
  ⟨fun _ _ _ h h' => ⟨h.answers.trans h'.answers, h.left, h'.right⟩⟩

theorem Alike.refl {w : Workshop} (within : w.Within K) : Alike K w w := ⟨.refl _, within, within⟩

end Workshop

open Workshop (Alike)

namespace Building

theorem ask_respects {q : Query} (text : q.HasTextDefault) : (ask q).Respects (Alike K) where
  result same := congrArg Except.ok (same.answers q text)
  diagnostics {w w'} _ := by
    simp only [ask, Resolver.diagnostics_query]
  state alike := ⟨.query text, alike.left, alike.right⟩

theorem prewarm_respects {qs : List Query} (texts : ∀ q ∈ qs, q.HasTextDefault) :
    (prewarm qs).Respects (Alike K) where
  result _ := rfl
  diagnostics _ := (Resolver.diagnostics_prewarm _ _).trans (Resolver.diagnostics_prewarm _ _).symm
  state alike := ⟨.prewarm texts, alike.left, alike.right⟩

/-- In one tree a look at it finds the same. -/
theorem looking_respects (one : ∀ uses t', K uses t' → t' = t) (f : Tree → Outcome BuildError α) :
    (looking f).Respects (Alike K) where
  result same := by
    simp only [looking, one _ _ same.left, one _ _ same.right]
  diagnostics same := by
    simp only [looking, one _ _ same.left, one _ _ same.right]
  state alike := alike

end Building

namespace Generator

variable [Template.Lasting K]

/-- What an engine is asked for is remembered with the tree, which it left as it was. -/
theorem templateLines_preserves (quiet : g.packages.Quiet g.templates K) {name : String}
    {context : Template.Context} (asked : Template.IsAsked name context) :
    (g.templateLines name context).Preserves (·.Within K) := by
  intro w within
  have same := quiet w.uses w.tree g.name name context within asked
  simp only [Workshop.Within, templateLines, request, same]
  exact Template.Lasting.next _ within

/-- A template that is asked for once more gives the same lines. -/
theorem templateLines_respects (steady : g.packages.Steady g.templates K) {name : String}
    {context : Template.Context} (asked : Template.IsAsked name context) :
    (g.templateLines name context).Respects (Alike K) where
  result {w w'} same := by
    simp only [templateLines, request,
      steady.repeats w.uses w.tree w'.uses w'.tree g.name name context same.left same.right asked]
  diagnostics _ := rfl
  state {w} alike := ⟨.refl _, alike.left, templateLines_preserves steady.quiet asked w alike.left⟩

/-- Where templates are rendered quietly, the steps of a generator leave situations of the kind. -/
theorem Does.preserves (quiet : g.packages.Quiet g.templates K) {x : Building α} (does : g.Does x) :
    x.Preserves (·.Within K) := by
  induction does with
  | ofExcept r => exact .ofExcept r
  | record r => exact .note _
  | warn _ => exact .note _
  | ask text => exact fun _ within => within
  | prewarm texts => exact fun _ within => within
  | templateLines asked => exact templateLines_preserves quiet asked
  | bind _ _ first next => exact .bind first next

/-- Where templates are rendered alike, no step of a generator sees what was done before in the workshop. -/
theorem Does.respects (steady : g.packages.Steady g.templates K) {x : Building α} (does : g.Does x) :
    x.Respects (Alike K) := by
  induction does with
  | ofExcept r => exact .ofExcept r
  | record r => exact .note _
  | warn _ => exact .note _
  | ask text => exact Building.ask_respects text
  | prewarm texts => exact Building.prewarm_respects texts
  | templateLines asked => exact templateLines_respects steady asked
  | bind _ _ first next => exact .bind first next

/-- Only a service and the derivation of a class have templates rendered. -/
theorem emit_packages {item : ItemKind} (service : item ≠ .typeScriptService)
    (derivation : item ≠ .modelInheritance) (p : Packages) :
    ({ g with packages := p } : Generator).emit graph item d = g.emit graph item d := by
  obtain ⟨_, target, _, _, _, _⟩ := g
  cases item with
  | typeScriptService => exact absurd rfl service
  | modelInheritance => exact absurd rfl derivation
  | _ => cases target <;> rfl

/-- Emission leaves the tree, if the packages do wherever they are asked. -/
theorem tree_emit_of_quiet {item : ItemKind} {w : Workshop}
    (quiet : item = .typeScriptService ∨ item = .modelInheritance →
      g.packages.Quiet g.templates fun _ t => t = w.tree) :
    (g.emit graph item d w).state.tree = w.tree := by
  by_cases asks : item = .typeScriptService ∨ item = .modelInheritance
  · exact (emit_does item).preserves (K := fun _ t => t = w.tree) (quiet asks) w rfl
  · obtain ⟨service, derivation⟩ := not_or.mp asks
    let idle : Packages := ⟨id, fun _ _ t _ => ⟨t, .ok ""⟩⟩
    have still : idle.Quiet g.templates fun _ t => t = w.tree := fun _ _ _ _ _ _ _ => rfl
    rw [← emit_packages service derivation idle]
    exact (emit_does item).preserves (g := { g with packages := idle }) (K := fun _ t => t = w.tree) still w rfl

/-- With the templates that are always there emission leaves the tree. -/
theorem tree_emit_of_builtins (renders : g.packages.RendersBuiltins) (builtin : g.templates = ⟨none, Template.builtins⟩)
    (item : ItemKind) (w : Workshop) : (g.emit graph item d w).state.tree = w.tree :=
  tree_emit_of_quiet fun _ => builtin ▸ renders.steady.quiet

theorem build_preserves (quiet : g.packages.Quiet g.templates K) (item : ItemKind) :
    (g.build graph item d).Preserves (·.Within K) := by
  refine .bind ((emit_does item).preserves quiet) fun a => .bind (.ofExcept _) fun project => ?_
  refine .bind (fun _ within => within) fun merged => .bind (.ofExcept _) fun finished => ?_
  exact .bind (.ofExcept _) fun _ => .bind (.note _) fun _ => .ok _

/-- What is built in one tree does not depend on what was built before in the same workshop. -/
theorem build_respects (one : ∀ uses t', K uses t' → t' = t) (steady : g.packages.Steady g.templates K)
    (item : ItemKind) : (g.build graph item d).Respects (Alike K) := by
  refine .bind ((emit_does item).respects steady) fun a => .bind (.ofExcept _) fun project => ?_
  refine .bind (Building.looking_respects one _) fun merged => .bind (.ofExcept _) fun finished => ?_
  exact .bind (.ofExcept _) fun _ => .bind (.note _) fun _ => .ok _

end Generator

end Scaffold
