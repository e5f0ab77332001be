import Scaffold.Proofs.Generation.Collision
import Scaffold.Proofs.Generation.Emission
import Scaffold.Proofs.Generation.Sharing
import Scaffold.Proofs.Region.Extraction

/-!
Runs over two trees. Where templates are rendered alike in both and the same regions are found for what is built,
the same is built, but for the states of the merges.
-/

namespace Scaffold

open Region

/-- Settings that answer alike in two trees, each after requests in that tree alone. -/
structure Workshop.Paired (t u : Tree) (w w' : Workshop) : Prop where
  answers : w.settings.SameAnswers w'.settings
  left : w.Within (Template.Within (· = t))
  right : w'.Within (Template.Within (· = u))

variable {T : Tree → Prop} {t u : Tree}

theorem Workshop.within_of_eq {w : Workshop} (inT : T t) (within : w.Within (Template.Within (· = t))) :
    w.Within (Template.Within T) := Template.Within.mono (fun _ eq => eq ▸ inT) within

theorem Workshop.Paired.alike {w w' : Workshop} (h : Paired t u w w') (inT : T t) (inU : T u) :
    Alike (Template.Within T) w w' :=
  ⟨h.answers, within_of_eq inT h.left, within_of_eq inU h.right⟩

namespace Generator

variable {g : Generator} {graph : Graph.TypeGraph} {item : ItemKind}
  {d : Graph.TypeDescriptor} {w w' : Workshop} {a e m : Artifact} {project : Path}

theorem quiet_of_eq (steady : g.packages.Steady g.templates (Template.Within T)) (inT : T t) :
    g.packages.Quiet g.templates (Template.Within (· = t)) :=
  steady.quiet.mono (Template.Within.mono fun _ eq => eq ▸ inT)

/-- A step of a generator ends alike in two trees where templates are rendered alike. -/
theorem Does.paired (steady : g.packages.Steady g.templates (Template.Within T)) (inT : T t) (inU : T u)
    (h : Workshop.Paired t u w w') {α : Type} {x : Building α} (does : g.Does x) :
    (x w).result = (x w').result ∧ Workshop.Paired t u (x w).state (x w').state := by
  have respects := does.respects steady
  have alike := h.alike inT inU
  exact ⟨respects.result alike, (respects.related alike).answers,
    does.preserves (quiet_of_eq steady inT) w h.left, does.preserves (quiet_of_eq steady inU) w' h.right⟩

/-- Finishing puts lines above and below the body. -/
theorem finish_eq_ok (h : g.finish d m = .ok a) :
    ∃ above below, ∀ m' : Artifact, m'.item = m.item →
      g.finish d m' = .ok { m' with source := above ++ m'.source ++ below } := by
  unfold finish at h ⊢
  cases target : g.target with
  | typescript => exact ⟨[], [], fun m' _ => by simp⟩
  | csharp =>
    simp only [target, CSharp.envelope] at h ⊢
    cases named : Naming.moduleGiven
        [g.config.rootNamespace, g.config.modelsFolder, .str d.namespace_] with
    | error e => simp [named, Except.map] at h
    | ok namespace_ =>
      refine ⟨.str ("namespace " ++ namespace_) :: .str "\x7b" ::
        (if m.item = .model then CSharp.modelUsings else []).map .str, [.str "\x7d"], fun m' hm => ?_⟩
      simp [Except.map, Artifact.inNamespace, hm]

theorem finish_unstated {m' : Artifact} (h : g.finish d m = .ok a) (same : m'.unstated = m.unstated) :
    ∃ a', g.finish d m' = .ok a' ∧ a'.unstated = a.unstated := by
  obtain ⟨above, below, eq⟩ := finish_eq_ok h
  have item : m'.item = m.item := by simpa using congrArg Artifact.item same
  have source : m'.source = m.source := by simpa using congrArg Artifact.source same
  have a_eq := (Except.ok.inj (h.symm.trans (eq m rfl)))
  refine ⟨_, eq m' item, ?_⟩
  rw [a_eq]
  simp only [Artifact.unstated, source]
  simp only [Artifact.unstated, Artifact.mk.injEq] at same ⊢
  simp [same]

/-- What is built was emitted, merged with the regions of the project and finished. -/
theorem build_eq_ok (plain : g.hooks = Hooks.none) (h : (g.build graph item d w).result = .ok a) :
    ∃ e project m, (g.emit graph item d w).result = .ok e ∧ g.projectPath = .ok project ∧
      (merge g.config (g.emit graph item d w).state.tree e project).result = .ok m ∧ g.finish d m = .ok a := by
  obtain ⟨e, emitted, h⟩ := Action.bind_eq_ok.mp h
  obtain ⟨project, path, h⟩ := Action.ofExcept_bind_eq_ok.mp h
  obtain ⟨m, merged, h⟩ := Action.bind_eq_ok.mp h
  obtain ⟨f, finished, h⟩ := Action.ofExcept_bind_eq_ok.mp h
  obtain ⟨b, hooked, h⟩ := Action.ofExcept_bind_eq_ok.mp h
  obtain ⟨_, _, h⟩ := Action.bind_eq_ok.mp h
  obtain rfl : b = a := Except.ok.inj h
  rw [plain] at hooked
  obtain rfl : f = b := Except.ok.inj hooked
  exact ⟨e, project, m, emitted, mapError_eq_ok.mp path, mapError_eq_ok.mp merged,
    mapError_eq_ok.mp finished⟩

theorem build_of_ok (plain : g.hooks = Hooks.none) (emitted : (g.emit graph item d w).result = .ok e)
    (path : g.projectPath = .ok project)
    (merged : (merge g.config (g.emit graph item d w).state.tree e project).result = .ok m)
    (finished : g.finish d m = .ok a) :
    (g.build graph item d w).result = .ok a ∧
      (g.build graph item d w).state = (g.emit graph item d w).state := by
  have hooked : Hooks.runAll (.type d) a g.hooks.finish = .ok a := by
    rw [plain]
    rfl
  refine Action.run_bind ⟨emitted, rfl⟩ (Action.run_bind (a := project) ⟨?_, rfl⟩ ?_)
  · rw [Building.orMisfit, path]
    rfl
  · refine Action.run_bind (a := m) ⟨?_, rfl⟩ (Action.run_bind (a := a) ⟨?_, rfl⟩ ?_)
    · exact mapError_eq_ok.mpr merged
    · rw [Building.orMisfit, finished]
      rfl
    · refine Action.run_bind (a := a) ⟨?_, rfl⟩ (Action.run_bind ⟨rfl, rfl⟩ ⟨rfl, rfl⟩)
      rw [Building.orHook, hooked]
      rfl

/-- Merging and finishing leave the path of the file that was emitted. -/
theorem filePath_of_finish (isFor : e.IsFor g.target) (path : g.projectPath = .ok project)
    (merged : (merge g.config t e project).result = .ok m) (finished : g.finish d m = .ok a) :
    a.IsFor g.target ∧ Output.filePath g.config a = .ok (e.path project) := by
  obtain ⟨r, unstated, _⟩ := merge_eq_ok merged
  obtain ⟨above, below, whole⟩ := finish_eq_ok finished
  obtain rfl := Except.ok.inj ((whole m rfl).symm.trans finished)
  have subPath : m.subPath = e.subPath := by
    have := congrArg Artifact.subPath unstated
    exact this
  have unit : m.unit = g.target.unit := by
    have := congrArg Artifact.unit unstated
    exact this.trans isFor.unit
  have located : g.config.projectPath m.unit.name = .ok project := by
    rw [unit]
    exact path
  refine ⟨⟨unit, by simpa only [subPath] using isFor.subPath⟩, ?_⟩
  simp only [Output.filePath, located, Except.map, Artifact.path, subPath]

/-- An artifact that is built has the regions of its path in its body, below and above what finishes it. -/
theorem build_parts (plain : g.hooks = Hooks.none) (h : (g.build graph item d w).result = .ok a) :
    ∃ e p r above below, a.IsFor g.target ∧ Output.filePath g.config a = .ok p ∧
      a.unstated = { mergedTo g.config.labels e r with
        source := above ++ (mergedTo g.config.labels e r).source ++ below } ∧
      (e.hasRegions = true → ∃ state,
        (extract g.config (g.emit graph item d w).state.tree p).result = .ok (state, r)) := by
  obtain ⟨e, project, m, emitted, path, merged, finished⟩ := build_eq_ok plain h
  obtain ⟨isFor, filePath⟩ := filePath_of_finish (emit_gives plain _ _ emitted) path merged finished
  obtain ⟨r, unstated, found⟩ := merge_eq_ok merged
  obtain ⟨above, below, whole⟩ := finish_eq_ok finished
  obtain rfl := Except.ok.inj ((whole m rfl).symm.trans finished)
  have source : m.source = (mergedTo g.config.labels e r).source := by
    have := congrArg Artifact.source unstated
    exact this
  refine ⟨e, e.path project, r, above, below, isFor, filePath, ?_, found⟩
  rw [← source, ← unstated]
  rfl

/-- Where templates are rendered quietly, what is emitted leaves the tree. -/
theorem tree_emit (quiet : g.packages.Quiet g.templates (Template.Within (· = t)))
    (within : w.Within (Template.Within (· = t))) : (g.emit graph item d w).state.tree = t :=
  ((emit_does item).preserves quiet w within).1

/-- Where the same regions are found for an artifact, the same artifact is built. -/
theorem build_agree (plain : g.hooks = Hooks.none)
    (steady : g.packages.Steady g.templates (Template.Within T)) (inT : T t) (inU : T u)
    (paired : Workshop.Paired t u w w') (h : (g.build graph item d w).result = .ok a)
    (regions : ∀ p, Output.filePath g.config a = .ok p → SameRegions g.config t u p) :
    ∃ a', (g.build graph item d w').result = .ok a' ∧
      Workshop.Paired t u (g.build graph item d w).state (g.build graph item d w').state ∧
      a'.unstated = a.unstated := by
  obtain ⟨e, project, m, emitted, path, merged, finished⟩ := build_eq_ok plain h
  obtain ⟨same, left⟩ := (emit_does item).paired steady inT inU paired
  have built := build_of_ok plain emitted path merged finished
  rw [left.left.1] at merged
  obtain ⟨_, filePath⟩ := filePath_of_finish (emit_gives plain _ _ emitted) path merged finished
  obtain ⟨m', merged', unstated'⟩ := (regions _ filePath).merge merged
  obtain ⟨a', finished', unstatedA⟩ := finish_unstated finished unstated'
  rw [same] at emitted
  rw [← left.right.1] at merged'
  have built' := build_of_ok plain emitted path merged' finished'
  refine ⟨a', built'.1, ?_, unstatedA⟩
  rw [built'.2, built.2]
  exact left

end Generator

namespace Generation

variable {packages : Packages} {c : Config} {T : Tree → Prop} {t u : Tree} {graph : Graph.TypeGraph}
  {gs : List Generator} {w w' : Workshop}

/-- Where its file goes, the same regions are found for an artifact in two trees. -/
def SameFor (c : Config) (t u : Tree) (a : Artifact) : Prop :=
  ∀ p, Output.filePath c a = .ok p → SameRegions c t u p

/-- A run succeeds if all generators prepare, everything prepared is built, and the paths can be compared. -/
theorem buildAll_eq_ok {built : Built} : (buildAll graph c gs w).result = .ok built ↔
    ∃ prepared count artifacts collision, (Action.mapEach (prepare graph) gs w).result = .ok prepared ∧
      workers c.maxWorkers = .ok count ∧
      (Action.mapEach (runJob graph) (prepared.flatMap (·.2))
        (Action.mapEach (prepare graph) gs w).state).result = .ok artifacts ∧
      collision? c artifacts = .ok collision ∧
      built = ⟨prepared.flatMap (·.1), count, artifacts, collision⟩ := by
  constructor
  · intro h
    obtain ⟨prepared, ready, h⟩ := Action.bind_eq_ok.mp h
    obtain ⟨count, counted, h⟩ := Action.ofExcept_bind_eq_ok.mp h
    obtain ⟨artifacts, done, h⟩ := Action.bind_eq_ok.mp h
    obtain ⟨collision, compared, h⟩ := Action.ofExcept_bind_eq_ok.mp h
    exact ⟨prepared, count, artifacts, collision, ready, mapError_eq_ok.mp counted, done,
      mapError_eq_ok.mp compared, (Except.ok.inj h).symm⟩
  · rintro ⟨prepared, count, artifacts, collision, ready, counted, done, compared, rfl⟩
    refine Action.bind_eq_ok.mpr ⟨prepared, ready, Action.ofExcept_bind_eq_ok.mpr ⟨count, ?_, ?_⟩⟩
    · exact mapError_eq_ok.mpr counted
    refine Action.bind_eq_ok.mpr ⟨artifacts, done, Action.ofExcept_bind_eq_ok.mpr ⟨collision, ?_, rfl⟩⟩
    exact mapError_eq_ok.mpr compared

theorem prepare_gives (g : Generator) :
    (prepare graph g).Gives fun prepared => ∀ job ∈ prepared.2, job.generator = g := by
  unfold prepare
  refine Action.Gives.after fun warnings => Action.Gives.after fun _ => Action.Gives.after fun tasks =>
    Action.Gives.ok ?_
  intro job mem
  obtain ⟨pair, _, rfl⟩ := List.mem_map.mp mem
  rfl

theorem filePath_congr {a a' : Artifact} (same : a'.unstated = a.unstated) :
    Output.filePath c a' = Output.filePath c a := by
  have unit : a'.unit = a.unit := by simpa using congrArg Artifact.unit same
  have subPath : a'.subPath = a.subPath := by simpa using congrArg Artifact.subPath same
  have path : a'.path = a.path := by
    funext project
    rw [Artifact.path, Artifact.path, subPath]
  rw [Output.filePath, Output.filePath, unit, path]

/-- Artifacts that differ in the states of their merges alone have the same paths. -/
theorem Located.congr {as as' : List Artifact} {paths : List Path} (h : Located c as paths)
    (same : as'.map Artifact.unstated = as.map Artifact.unstated) : Located c as' paths := by
  induction as generalizing as' paths with
  | nil =>
    obtain rfl := List.map_eq_nil_iff.mp same
    exact h
  | cons a rest ih =>
    obtain ⟨a', rest', rfl, first, more⟩ := List.map_eq_cons_iff.mp same
    obtain ⟨p, paths, rfl, path, located⟩ := h.of_cons
    exact cons_iff.mpr ⟨(filePath_congr first).trans path, ih located more⟩

theorem collision?_congr {as as' : List Artifact} (apart : collision? c as = .ok none)
    (same : as'.map Artifact.unstated = as.map Artifact.unstated) : collision? c as' = .ok none := by
  obtain ⟨paths, located, distinct⟩ := collision?_eq_none apart
  obtain ⟨found, compared, iff⟩ := collision?_of_located (located.congr same)
  rw [compared, iff.mpr distinct]

/-- The generators of a run render templates quietly in its tree. -/
def QuietIn (t : Tree) (gs : List Generator) : Prop :=
  ∀ g ∈ gs, g.packages.Quiet g.templates (Template.Within (· = t))

/-- A generator without hooks that renders templates alike in trees of one kind. -/
structure Reliable (c : Config) (T : Tree → Prop) (g : Generator) : Prop where
  config : g.config = c
  plain : g.hooks = Hooks.none
  steady : g.packages.Steady g.templates (Template.Within T)

theorem generator_of_prepared {prepared : List (List String × List Job)}
    (ready : (Action.mapEach (prepare graph) gs w).result = .ok prepared) :
    ∀ job ∈ prepared.flatMap (·.2), job.generator ∈ gs := by
  intro job mem
  obtain ⟨pair, hp, mem⟩ := List.mem_flatMap.mp mem
  obtain ⟨g, hg, s, eq⟩ := Action.mapEach_mem ready pair hp
  rw [prepare_gives g s pair eq job mem]
  exact hg

theorem prepareAll_preserves (quiet : QuietIn t gs) :
    (Action.mapEach (prepare graph) gs).Preserves (·.Within (Template.Within (· = t))) :=
  .mapEach fun g mem => Generator.prepare_does.preserves (quiet g mem)

/-- Every artifact was built by a generator of the run, in the tree of the run. -/
theorem buildAll_gives (quiet : QuietIn t gs) (within : w.Within (Template.Within (· = t))) {all : Built}
    (h : (buildAll graph c gs w).result = .ok all) :
    ∀ a ∈ all.artifacts, ∃ job : Job, job.generator ∈ gs ∧ ∃ s : Workshop,
      s.Within (Template.Within (· = t)) ∧ (job.generator.build graph job.item job.type s).result = .ok a := by
  obtain ⟨prepared, count, artifacts, collision, ready, _, built, _, rfl⟩ := buildAll_eq_ok.mp h
  have generators := generator_of_prepared ready
  intro a mem
  obtain ⟨job, hjob, s, isWithin, eq⟩ := Action.mapEach_mem_of
    (fun job mem => Generator.build_preserves (quiet _ (generators job mem)) job.item)
    (prepareAll_preserves quiet w within) built a mem
  exact ⟨job, generators job hjob, s, isWithin, eq⟩

theorem buildAll_preserves (quiet : QuietIn t gs) :
    (buildAll graph c gs).Preserves (·.Within (Template.Within (· = t))) := by
  intro w within
  have prepared : (Action.mapEach (prepare graph) gs w).state.Within (Template.Within (· = t)) :=
    prepareAll_preserves quiet w within
  unfold buildAll
  simp only [Action.bind_eq]
  cases ready : (Action.mapEach (prepare graph) gs w).result with
  | error e =>
    rw [Action.bind_of_error ready]
    exact prepared
  | ok jobs =>
    rw [Action.state_bind ready]
    refine Action.Preserves.bind (.ofExcept _) (fun count => Action.Preserves.bind (.mapEach fun job mem => ?_)
      fun artifacts => .bind (.ofExcept _) fun collision => .ok _) _ prepared
    exact Generator.build_preserves (quiet _ (generator_of_prepared ready job mem)) job.item

theorem prepareAll_agree (reliable : ∀ g ∈ gs, Reliable c T g) (inT : T t) (inU : T u)
    (paired : Workshop.Paired t u w w') {prepared : List (List String × List Job)}
    (ready : (Action.mapEach (prepare graph) gs w).result = .ok prepared) :
    (Action.mapEach (prepare graph) gs w').result = .ok prepared ∧
      Workshop.Paired t u (Action.mapEach (prepare graph) gs w).state
        (Action.mapEach (prepare graph) gs w').state := by
  obtain ⟨prepared', ready', left, same⟩ := Action.mapEach_agree (R := Workshop.Paired t u) id (fun _ => True)
    (fun g mem s s' b paired ok _ => by
      obtain ⟨same, left⟩ := Generator.prepare_does.paired (reliable g mem).steady inT inU paired
      exact ⟨b, same ▸ ok, left, rfl⟩) paired ready fun _ _ => trivial
  obtain rfl : prepared' = prepared := by simpa using same
  exact ⟨ready', left⟩

theorem buildAll_agree (reliable : ∀ g ∈ gs, Reliable c T g) (inT : T t) (inU : T u)
    (paired : Workshop.Paired t u w w') {all : Built}
    (h : (buildAll graph c gs w).result = .ok all) (apart : all.collision = none)
    (same : ∀ a ∈ all.artifacts, SameFor c t u a) :
    ∃ all', (buildAll graph c gs w').result = .ok all' ∧ all'.collision = none ∧
      all'.artifacts.map Artifact.unstated = all.artifacts.map Artifact.unstated := by
  obtain ⟨prepared, count, artifacts, collision, ready, counted, built, compared, rfl⟩ :=
    buildAll_eq_ok.mp h
  obtain ⟨ready', left⟩ := prepareAll_agree reliable inT inU paired ready
  obtain ⟨artifacts', built', _, unstated⟩ :=
    Action.mapEach_agree (R := Workshop.Paired t u) Artifact.unstated (SameFor c t u)
      (fun job mem s s' a paired ok good => by
        obtain ⟨config, plain, steady⟩ := reliable _ (generator_of_prepared ready job mem)
        refine Generator.build_agree plain steady inT inU paired ok ?_
        rw [config]
        exact good) left built same
  have collision' : collision? c artifacts' = .ok none := by
    obtain rfl : collision = none := apart
    exact collision?_congr compared unstated
  have ran := buildAll_eq_ok.mpr ⟨prepared, count, artifacts', none, ready', counted, built', collision', rfl⟩
  exact ⟨_, ran, rfl, unstated⟩

/-- A run succeeds without generators, or where everything is built and no two paths are the same. -/
theorem generate_eq_ok {result : Result} (h : (generate graph c gs w).result = .ok result)
    (success : result.isSuccess = true) :
    (gs = [] ∧ result = nothing) ∨ gs ≠ [] ∧ ∃ built, (buildAll graph c gs w).result = .ok built ∧
      built.collision = none ∧ result = succeed graph gs built (buildAll graph c gs w).notes := by
  unfold generate at h
  split at h
  · rename_i empty
    exact .inl ⟨List.isEmpty_iff.mp empty, (Except.ok.inj h).symm⟩
  · rename_i some_
    refine .inr ⟨fun empty => some_ (List.isEmpty_iff.mpr empty), ?_⟩
    cases built : (buildAll graph c gs w).result with
    | error e =>
      simp only [built, Except.ok.injEq] at h
      subst h
      cases success
    | ok all =>
      cases collision : all.collision with
      | some found => simp [built, collision] at h
      | none =>
        simp only [built, collision, Except.ok.injEq] at h
        exact ⟨all, rfl, collision, h.symm⟩

/-- Where the same regions are found for all artifacts of a run, the run gives the same artifacts. -/
theorem generate_agree (reliable : ∀ g ∈ gs, Reliable c T g) (inT : T t) (inU : T u)
    (paired : Workshop.Paired t u w w') {first : Result}
    (h : (generate graph c gs w).result = .ok first) (success : first.isSuccess = true)
    (same : ∀ a ∈ first.artifacts, SameFor c t u a) :
    ∃ second, (generate graph c gs w').result = .ok second ∧ second.isSuccess = true ∧
      second.artifacts.map Artifact.unstated = first.artifacts.map Artifact.unstated := by
  rcases generate_eq_ok h success with ⟨rfl, rfl⟩ | ⟨some_, all, built, apart, rfl⟩
  · exact ⟨nothing, rfl, rfl, rfl⟩
  · obtain ⟨all', built', apart', unstated⟩ := buildAll_agree reliable inT inU paired built apart same
    refine ⟨succeed graph gs all' (buildAll graph c gs w').notes, ?_, rfl, unstated⟩
    rw [generate, if_neg (mt List.isEmpty_iff.mp some_)]
    simp only [built', apart']

/-- A run ends in the state that its builds leave. -/
theorem state_generate : (generate graph c gs w).state = w ∨
    (generate graph c gs w).state = (buildAll graph c gs w).state := by
  unfold generate
  split
  · exact .inl rfl
  · right
    dsimp only
    split
    · rfl
    · split <;> rfl

theorem generate_preserves (quiet : QuietIn t gs) :
    (generate graph c gs).Preserves (·.Within (Template.Within (· = t))) := by
  intro w within
  rcases @state_generate c graph gs w with eq | eq
  · rw [eq]
    exact within
  · rw [eq]
    exact buildAll_preserves quiet w within

/-- A generator of a run is made for its packages, configuration and hooks, with the engine of the configuration. -/
theorem generatorFor_eq_ok {r : Registry} {hooks : Hooks} {name : String} {g : Generator}
    (h : generatorFor packages r t c hooks name = .ok g) :
    (g.config = c ∧ g.hooks = hooks) ∧ g.packages = packages ∧ Generator.engineFor t c = .ok g.templates := by
  obtain ⟨target, _, h⟩ := exists_of_bind_eq_ok h
  have made := mapError_eq_ok.mp h
  unfold Generator.create at made
  cases engine : Generator.engineFor t c with
  | error e => simp [engine, Except.map] at made
  | ok templates =>
    simp only [engine, Except.map, Except.ok.injEq] at made
    subst made
    exact ⟨⟨rfl, rfl⟩, rfl, rfl⟩

theorem generators_eq_ok {r : Registry} {hooks : Hooks} {names : List String}
    (h : names.mapM (generatorFor packages r t c hooks) = .ok gs) : ∀ g ∈ gs,
      (g.config = c ∧ g.hooks = hooks) ∧ g.packages = packages ∧ Generator.engineFor t c = .ok g.templates := by
  intro g mem
  obtain ⟨name, _, made⟩ := exists_of_mem_mapM h mem
  exact generatorFor_eq_ok made

/-- The trees hold the same in the directory of templates. -/
def SameTemplates (c : Config) (t u : Tree) : Prop :=
  ∀ directory, Generator.templateDirectory? c.custom = .ok (some directory) → ∀ below, ".." ∉ below →
    t.nodeAt? ⟨directory.anchor, directory.parts ++ below⟩ = u.nodeAt? ⟨directory.anchor, directory.parts ++ below⟩

theorem engineFor_congr (same : SameTemplates c t u) : Generator.engineFor t c = Generator.engineFor u c := by
  unfold Generator.engineFor
  cases directory : Generator.templateDirectory? c.custom with
  | error e => rfl
  | ok directory? =>
    cases directory? with
    | none => rfl
    | some p =>
      have node : t.nodeAt? p = u.nodeAt? p := by simpa using same p directory [] (by simp)
      simp only [mapError_ok, bind, Except.bind, Template.Engine.create, Tree.exists?_congr node]

theorem generatorFor_congr (same : SameTemplates c t u) (r : Registry) (hooks : Hooks) :
    generatorFor packages r t c hooks = generatorFor packages r u c hooks := by
  funext name
  simp only [generatorFor, Generator.create, engineFor_congr same]

/-- What is built in a tree: an artifact of a target that has the regions found for its path in its body. -/
def IsBuilt (c : Config) (t : Tree) (a : Artifact) : Prop :=
  ∃ target e p r above below, a.IsFor target ∧ Output.filePath c a = .ok p ∧
    a.unstated = { mergedTo c.labels e r with
      source := above ++ (mergedTo c.labels e r).source ++ below } ∧
    (e.hasRegions = true → ∃ state, (extract c t p).result = .ok (state, r))

/-- The artifacts of a run were built, and no two of them have one path. -/
theorem artifacts_of_generate {first : Result} (h : (generate graph c gs w).result = .ok first) :
    first.artifacts = [] ∨ ∃ built, (buildAll graph c gs w).result = .ok built ∧
      built.collision = none ∧ first.artifacts = built.artifacts := by
  unfold generate at h
  split at h
  · obtain rfl := Except.ok.inj h
    exact .inl rfl
  · cases ran : (buildAll graph c gs w).result with
    | error e =>
      simp only [ran, Except.ok.injEq] at h
      subst h
      exact .inl rfl
    | ok built =>
      simp only [ran] at h
      cases collision : built.collision with
      | some found => simp [collision] at h
      | none =>
        simp only [collision, Except.ok.injEq] at h
        subst h
        exact .inr ⟨built, rfl, collision, rfl⟩

theorem generate_gives (config : ∀ g ∈ gs, g.config = c ∧ g.hooks = Hooks.none) (quiet : QuietIn t gs)
    (within : w.Within (Template.Within (· = t))) {first : Result}
    (h : (generate graph c gs w).result = .ok first) : ∀ a ∈ first.artifacts, IsBuilt c t a := by
  rcases artifacts_of_generate h with none_ | ⟨built, ran, _, eq⟩
  · simp [none_]
  · intro a mem
    obtain ⟨job, memG, s, isWithin, eq⟩ := buildAll_gives quiet within ran a (eq ▸ mem)
    obtain ⟨rfl, plain⟩ := config _ memG
    obtain ⟨e, p, r, above, below, parts⟩ := Generator.build_parts plain eq
    rw [Generator.tree_emit (quiet _ memG) isWithin] at parts
    exact ⟨_, e, p, r, above, below, parts⟩

/-- A run over a document is one over its graph, with a generator for each name. -/
theorem fromDocument_eq_ok {r : Registry} {hooks : Hooks} {document : Json} {names : List String}
    {first : Result} (h : (fromDocument packages r c hooks document names w).result = .ok first) :
    ∃ graph gs ran, (graphOf c document).result = .ok graph ∧
      names.mapM (generatorFor packages r w.tree c hooks) = .ok gs ∧
      (generate graph c gs { w with uses := [] }).result = .ok ran ∧
      first = ran.after (graphOf c document).notes := by
  unfold fromDocument at h
  cases extracted : (graphOf c document).result with
  | error e => simp [extracted] at h
  | ok graph =>
    cases made : names.mapM (generatorFor packages r w.tree c hooks) with
    | error e => simp [extracted, made] at h
    | ok gs =>
      simp only [extracted, made] at h
      cases ran : (generate graph c gs { w with uses := [] }).result with
      | error e => simp [ran, Except.map] at h
      | ok result =>
        simp only [ran, mapError_ok, Except.map, Except.ok.injEq] at h
        exact ⟨graph, gs, result, rfl, rfl, ran, h.symm⟩

/-- Behind its directory the engine of a configuration has the templates that are always there. -/
theorem eq_of_engineFor {e : Template.Engine} (h : Generator.engineFor t c = .ok e) :
    e = ⟨e.directory, Template.builtins⟩ := by
  obtain ⟨directory, _, made⟩ := exists_of_bind_eq_ok h
  have made := mapError_eq_ok.mp made
  cases directory with
  | none => exact (Except.ok.inj made) ▸ rfl
  | some p =>
    obtain ⟨isThere, _, rfl⟩ := exists_of_map_eq_ok made
    rfl

/-- The engine of the configuration renders templates quietly in a tree. -/
def EngineQuiet (packages : Packages) (c : Config) (t : Tree) : Prop :=
  ∀ e, Generator.engineFor t c = .ok e → packages.Quiet e (Template.Within (· = t))

theorem quietIn_of_engine (quiet : EngineQuiet packages c t) {r : Registry} {hooks : Hooks} {names : List String}
    (made : names.mapM (generatorFor packages r t c hooks) = .ok gs) : QuietIn t gs := by
  intro g mem
  obtain ⟨_, rfl, engine⟩ := generators_eq_ok made g mem
  exact quiet _ engine

theorem within_start (w : Workshop) :
    ({ w with uses := [] } : Workshop).Within (Template.Within (· = w.tree)) := ⟨rfl, by simp⟩

/-- Where templates are rendered quietly, a run leaves the tree. -/
theorem tree_fromDocument (quiet : EngineQuiet packages c w.tree) (r : Registry) (hooks : Hooks) (document : Json)
    (names : List String) : (fromDocument packages r c hooks document names w).state.tree = w.tree := by
  unfold fromDocument
  dsimp only
  split
  · rfl
  · split
    · rfl
    · rename_i gs made
      exact (generate_preserves (quietIn_of_engine quiet made) _ (within_start w)).1

/-- Every artifact of a run over a document is built. -/
theorem fromDocument_gives (quiet : EngineQuiet packages c w.tree) {r : Registry} {document : Json}
    {names : List String} {first : Result}
    (h : (fromDocument packages r c .none document names w).result = .ok first) :
    ∀ a ∈ first.artifacts, IsBuilt c w.tree a := by
  obtain ⟨graph, gs, ran, _, made, generated, rfl⟩ := fromDocument_eq_ok h
  intro a mem
  exact generate_gives (fun g mem => (generators_eq_ok made g mem).1) (quietIn_of_engine quiet made)
    (within_start w) generated a mem

/-- The engine of the configuration renders templates alike in all trees that hold the same templates. -/
def EngineSteady (packages : Packages) (c : Config) (t : Tree) : Prop :=
  ∀ e, Generator.engineFor t c = .ok e → packages.Steady e (Template.Within (SameTemplates c t))

/-- Without a directory the templates of all trees are the same. -/
theorem sameTemplates_of_memory (memory : Generator.templateDirectory? c.custom = .ok none) (t u : Tree) :
    SameTemplates c t u := by
  intro directory found
  rw [memory] at found
  cases found

theorem engineFor_of_memory (memory : Generator.templateDirectory? c.custom = .ok none) (t : Tree) :
    Generator.engineFor t c = .ok ⟨none, Template.builtins⟩ := by
  simp only [Generator.engineFor, memory, mapError_ok, bind, Except.bind, Template.Engine.create]

theorem engineSteady_of_memory (memory : Generator.templateDirectory? c.custom = .ok none)
    (steady : packages.Steady ⟨none, Template.builtins⟩ (Template.Within fun _ => True)) (t : Tree) :
    EngineSteady packages c t := by
  intro e engine
  obtain rfl := Except.ok.inj ((engineFor_of_memory memory t).symm.trans engine)
  exact steady.mono (Template.Within.mono fun _ _ => trivial)

theorem EngineSteady.quiet (h : EngineSteady packages c t) (same : SameTemplates c t u) :
    EngineQuiet packages c u :=
  fun e engine => (h e (engineFor_congr same ▸ engine)).quiet.mono (Template.Within.mono fun _ eq => eq ▸ same)

/-- A run over a document gives the same artifacts in two trees with the same templates, where the same
regions are found for all of them. -/
theorem fromDocument_agree (steady : EngineSteady packages c t) (templates : SameTemplates c t u)
    {r : Registry} {document : Json} {names : List String} {settings : Settings.Resolver} {first : Result}
    (h : (fromDocument packages r c .none document names { settings, tree := t }).result = .ok first)
    (success : first.isSuccess = true) (same : ∀ a ∈ first.artifacts, SameFor c t u a) :
    ∃ second, (fromDocument packages r c .none document names { settings, tree := u }).result = .ok second ∧
      second.isSuccess = true ∧
      second.artifacts.map Artifact.unstated = first.artifacts.map Artifact.unstated := by
  obtain ⟨graph, gs, ran, extracted, made, generated, rfl⟩ := fromDocument_eq_ok h
  have reliable : ∀ g ∈ gs, Reliable c (SameTemplates c t) g := by
    intro g mem
    obtain ⟨⟨config, plain⟩, rfl, engine⟩ := generators_eq_ok made g mem
    exact ⟨config, plain, steady _ engine⟩
  have paired : Workshop.Paired t u { settings, tree := t } { settings, tree := u } :=
    ⟨.refl _, ⟨rfl, by simp⟩, ⟨rfl, by simp⟩⟩
  obtain ⟨second, ran', success', unstated⟩ :=
    generate_agree reliable (fun _ _ _ _ => rfl) templates paired generated success same
  have made' : names.mapM (generatorFor packages r u c .none) = .ok gs := by
    rw [← generatorFor_congr templates]
    exact made
  refine ⟨second.after (graphOf c document).notes, ?_, success', unstated⟩
  simp [fromDocument, extracted, made', ran', Except.map]

end Generation

end Scaffold
