import Scaffold.Proofs.Generation.Agreement
import Scaffold.Proofs.Generation.Hook
import Scaffold.Proofs.Graph.Lookup
import Scaffold.Proofs.Outcome

/-!
The paths of the artifacts of a run. Merging and finishing leave them; so what holds of all planned paths, and is
kept by the hooks, holds of the paths of a run.
-/

namespace Scaffold.Generator

open Action.Gives

variable {g : Generator} {graph : Graph.TypeGraph} {item : ItemKind} {d : Graph.TypeDescriptor}
  {t : Tree} {P : String → Prop}

theorem subPath_of_finish {a b : Artifact} (h : g.finish d a = .ok b) : b.subPath = a.subPath := by
  obtain ⟨above, below, whole⟩ := finish_eq_ok h
  obtain rfl := Except.ok.inj ((whole a rfl).symm.trans h)
  rfl

theorem subPath_of_merge {c : Config} {a b : Artifact} {project : Path}
    (h : (Region.merge c t a project).result = .ok b) : b.subPath = a.subPath := by
  obtain ⟨r, unstated, _⟩ := Region.merge_eq_ok h
  have := congrArg Artifact.subPath unstated
  exact this

/-- Merging and finishing keep the path, so that what is built has what the hooks keep. -/
theorem build_keeps (keep : g.hooks.KeepThroughout fun a => P a.subPath)
    (planned : ∀ s, plannedPath g.config d item = .ok s → P s) :
    (g.build graph item d).Gives fun a => P a.subPath := by
  unfold build
  refine bind (emit_keeps (Artifact.leftByAdding_subPath P) keep.toKeep fun _ _ => planned) fun a ha =>
    after fun project => ?_
  refine bind (P := fun m : Artifact => P m.subPath) (fun w m merged => ?_) fun m hm => ?_
  · have same : m.subPath = a.subPath := subPath_of_merge (mapError_eq_ok.mp merged)
    change P m.subPath
    rwa [same]
  refine bind (P := fun b => P b.subPath) (ofExcept fun b finished => ?_) fun b hb => ?_
  · rwa [subPath_of_finish (mapError_eq_ok.mp finished)]
  refine bind (Building.orHook_gives fun e ran => ?_) fun e he => after fun _ => ok he
  exact Hooks.runAll_keeps (P := fun a => P a.subPath) keep.finish hb ran

theorem mem_descriptors_of_candidate (mem : d ∈ candidates item graph) : d ∈ graph.descriptors := by
  unfold candidates at mem
  split at mem
  · exact (Graph.TypeGraph.mem_enumerations.mp mem).1
  · exact (Graph.TypeGraph.mem_models.mp mem).1

/-- What is planned are items of the target for types of the graph. -/
theorem plan_gives : (g.plan graph).Gives fun tasks =>
    ∀ task ∈ tasks, task.1 ∈ g.target.items ∧ task.2 ∈ graph.descriptors := by
  have group (item : ItemKind) (mem : item ∈ g.target.items) :
      ((Action.filterEach (g.isPlanned item) (candidates item graph)).bind fun ds =>
        Action.ok (ds.map (item, ·)) : Building _).Gives
        fun tasks => ∀ task ∈ tasks, task.1 ∈ g.target.items ∧ task.2 ∈ graph.descriptors := by
    refine bind (filterEach _ _) fun ds sublist => ok fun task memTask => ?_
    obtain ⟨d, memD, rfl⟩ := List.mem_map.mp memTask
    exact ⟨mem, mem_descriptors_of_candidate (sublist.subset memD)⟩
  unfold plan
  refine bind (mapEach group) fun groups all => ok fun task memTask => ?_
  obtain ⟨tasks, memTasks, memTask⟩ := List.mem_flatten.mp memTask
  exact all tasks memTasks task memTask

end Scaffold.Generator

namespace Scaffold.Generation

open Action.Gives

variable {graph : Graph.TypeGraph} {t : Tree} {c : Config} {gs : List Generator} {w : Workshop}
  {a : Artifact} {P : String → Prop}

/-- The jobs of a generator are for its items and types of the graph. -/
theorem prepare_jobs (g : Generator) : (prepare graph g).Gives fun prepared =>
    ∀ job ∈ prepared.2, job.generator = g ∧ job.item ∈ g.target.items ∧ job.type ∈ graph.descriptors := by
  unfold prepare
  refine after fun warnings => after fun _ => bind Generator.plan_gives fun tasks planned => ok ?_
  intro job mem
  obtain ⟨task, memTask, rfl⟩ := List.mem_map.mp mem
  exact ⟨rfl, planned task memTask⟩

/-- Every artifact was built by a generator of the run, for one of its items and a type of the graph. -/
theorem exists_of_mem_artifacts {built : Built} (ran : (buildAll graph c gs w).result = .ok built)
    (mem : a ∈ built.artifacts) : ∃ g ∈ gs, ∃ item ∈ g.target.items, ∃ d ∈ graph.descriptors,
      ∃ s, (g.build graph item d s).result = .ok a := by
  obtain ⟨prepared, count, artifacts, collision, ready, _, done, _, rfl⟩ := buildAll_eq_ok.mp ran
  obtain ⟨job, memJob, s, eq⟩ := Action.mapEach_mem done a mem
  obtain ⟨pair, memPair, memJob⟩ := List.mem_flatMap.mp memJob
  obtain ⟨g, memG, s', eq'⟩ := Action.mapEach_mem ready pair memPair
  obtain ⟨rfl, item, type⟩ := prepare_jobs g s' pair eq' job memJob
  exact ⟨_, memG, _, item, _, type, s, eq⟩

/-- Where no collision ends a run, its artifacts have distinct paths. -/
theorem distinct_of_built {built : Built} (ran : (buildAll graph c gs w).result = .ok built)
    (apart : built.collision = none) : ∃ paths, Located c built.artifacts paths ∧ paths.Nodup := by
  obtain ⟨prepared, count, artifacts, collision, _, _, _, compared, rfl⟩ := buildAll_eq_ok.mp ran
  obtain rfl : collision = none := apart
  exact collision?_eq_none compared

theorem distinct_of_generated {first : Result} (h : (generate graph c gs w).result = .ok first) :
    ∃ paths, Located c first.artifacts paths ∧ paths.Nodup := by
  rcases artifacts_of_generate h with none_ | ⟨built, ran, apart, eq⟩
  · exact ⟨[], none_ ▸ .nil, List.nodup_nil⟩
  · rw [eq]
    exact distinct_of_built ran apart

theorem distinct_of_run {packages : Packages} {r : Registry} {hooks : Hooks} {document : Json}
    {names : List String} {run : Result}
    (ran : (fromDocument packages r c hooks document names w).result = .ok run) :
    ∃ paths, Located c run.artifacts paths ∧ paths.Nodup := by
  obtain ⟨graph, gs, first, _, _, generated, rfl⟩ := fromDocument_eq_ok ran
  have distinct := distinct_of_generated generated
  exact distinct

/-- What holds of all planned paths, and is kept by the hooks, holds of the paths of a run. -/
theorem generated_keeps {hooks : Hooks} (keep : hooks.KeepThroughout fun a => P a.subPath)
    (config : ∀ g ∈ gs, g.config = c ∧ g.hooks = hooks)
    (planned : ∀ d ∈ graph.descriptors, ∀ (target : Target), ∀ item ∈ target.items, ∀ s,
      Generator.plannedPath c d item = .ok s → P s)
    {first : Result} (h : (generate graph c gs w).result = .ok first) :
    ∀ a ∈ first.artifacts, P a.subPath := by
  rcases artifacts_of_generate h with none_ | ⟨built, ran, _, eq⟩
  · simp [none_]
  · intro a mem
    obtain ⟨g, memG, item, memItem, d, memD, s, done⟩ := exists_of_mem_artifacts ran (eq ▸ mem)
    obtain ⟨rfl, rfl⟩ := config g memG
    exact Generator.build_keeps keep (planned d memD _ item memItem) s a done

end Scaffold.Generation
