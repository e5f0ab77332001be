import Scaffold.Proofs.Generation.Agreement
import Scaffold.Proofs.Generation.Total
import Scaffold.Proofs.Settings.Switches

/-!
What a generator plans where no setting is set: every item of its target for every type that the item may be
for. So a run of one generator comes down to the builds of all these, and a collision to their paths.
-/

namespace Scaffold

open Settings Scaffold.Action

open Workshop (Alike)

variable {K : Template.Situation} {graph : Graph.TypeGraph} {c : Config} {g : Generator} {w : Workshop}

/-- Nothing is set: every query is answered with its default. -/
def Workshop.Unset (w : Workshop) : Prop := w.settings.SameAnswers .empty

/-- Where nothing is set, a switch that is on by default is on. -/
theorem Building.askFlag_unset (unset : w.Unset) (scope : Scope) :
    (askFlag scope "True").Always (Alike K w) true := by
  have evaluated : ValueType.read "True" .flag = .ok (.bool true) := read_flag_text true
  have answer (r : Resolver) (same : r.SameAnswers .empty) :
      r.answer { scope, default := .str "True", type := .flag } = .bool true := by
    have fallback : (Store.empty.value? scope).getD (Json.str "True").text = "True" := rfl
    rw [same _ ⟨"True", rfl⟩, Resolver.answer_eq]
    simp only [Resolver.empty, Resolver.ofStore, Query.evaluate, fallback, evaluated]
    rfl
  intro s alike
  have respects : (askFlag scope "True").Respects (Alike K) := .bind (ask_respects ⟨"True", rfl⟩) fun _ => .ok _
  refine ⟨?_, respects.alike_state alike⟩
  exact congrArg (fun value : Json => Except.ok value.isSet)
    (answer _ (alike.answers.symm.trans unset))

namespace Generator

/-- Every item of the target with every type that it may be for. -/
def tasks (g : Generator) (graph : Graph.TypeGraph) : List (ItemKind × Graph.TypeDescriptor) :=
  (g.target.items.map fun item => (candidates item graph).map (item, ·)).flatten

theorem isPlanned_unset (unset : w.Unset) (item : ItemKind) (d : Graph.TypeDescriptor) :
    (g.isPlanned item d).Always (Alike K w) true :=
  .bind (.bind (Building.askFlag_unset unset _) (Building.askFlag_unset unset _)) (.ok true)

theorem plan_unset (unset : w.Unset) : (g.plan graph).Always (Alike K w) (g.tasks graph) :=
  .bind (.mapEach fun item _ => .bind (.filterEach_all fun d _ => isPlanned_unset unset item d) (.ok _)) (.ok _)

end Generator

namespace Generation

/-- The jobs of a generator where nothing is set. -/
def jobsOf (g : Generator) (graph : Graph.TypeGraph) : List Job :=
  (g.tasks graph).map fun task => ⟨g, task.1, task.2⟩

theorem prepare_unset (typed : g.config.IsTyped) (unset : w.Unset) :
    ∃ warnings, (prepare graph g).Always (Alike K w) (warnings, jobsOf g graph) := by
  obtain ⟨warnings, checked⟩ : ∃ warnings, g.validate graph = .ok warnings := Generator.validate_ok typed
  have validated : (Building.orMisfit (g.validate graph)).Always (Alike K w) warnings := by
    rw [Building.orMisfit, checked]
    exact .ok warnings
  have prewarms := Building.prewarm_respects (K := K) (@Generator.hasTextDefault_queries g graph)
  exact ⟨warnings, .bind validated (.bind (fun s alike => ⟨rfl, prewarms.alike_state alike⟩)
    (.bind (Generator.plan_unset unset) (.ok _)))⟩

/-- A run ends with a collision if it has built artifacts that collide. -/
theorem generate_eq_error {collision : Collision} (some_ : gs.isEmpty = false) :
    (generate graph c gs w).result = .error collision ↔
      ∃ built, (buildAll graph c gs w).result = .ok built ∧ built.collision = some collision := by
  simp only [generate, some_]
  cases ran : (buildAll graph c gs w).result with
  | error e => simp
  | ok built => cases found : built.collision <;> simp [found]

/-- Where nothing is set, a run of one generator builds every task, and compares the paths of what it has
built. -/
theorem buildAll_unset (typed : c.IsTyped) (config : g.config = c) (renders : g.packages.RendersBuiltins)
    (builtin : g.templates = ⟨none, Template.builtins⟩) (unset : w.Unset) {artifacts : List Artifact}
    {compared : Option Collision} :
    (∃ built, (buildAll graph c [g] w).result = .ok built ∧ built.artifacts = artifacts ∧
        built.collision = compared) ↔
      List.Forall₂ (fun task a => (g.build graph task.1 task.2 w).result = .ok a) (g.tasks graph) artifacts ∧
        collision? c artifacts = .ok compared := by
  let here : Template.Situation := fun _ t => t = w.tree
  have each : ∀ job ∈ jobsOf g graph, (runJob graph job).Respects (Alike here) := by
    intro job mem
    obtain ⟨task, _, rfl⟩ := List.mem_map.mp mem
    exact Generator.build_respects (fun _ _ same => same) (builtin ▸ renders.steady) _
  obtain ⟨warnings, prepares⟩ := @prepare_unset here graph g w (config ▸ typed) unset
  have all : (Action.mapEach (prepare graph) [g]).Always (Alike here w) [(warnings, jobsOf g graph)] :=
    .bind prepares (.ok _)
  obtain ⟨ready, alike⟩ := all w (.refl rfl)
  have jobs : [(warnings, jobsOf g graph)].flatMap (·.2) = jobsOf g graph := by simp
  have builds : (Action.mapEach (runJob graph) (jobsOf g graph)
        (Action.mapEach (prepare graph) [g] w).state).result = .ok artifacts ↔
      List.Forall₂ (fun task a => (g.build graph task.1 task.2 w).result = .ok a) (g.tasks graph) artifacts :=
    (Respects.mapEach_eq_ok_iff each alike).trans (by rw [jobsOf, List.forall₂_map_left_iff]; rfl)
  rw [← builds]
  constructor
  · rintro ⟨built, ran, rfl, rfl⟩
    obtain ⟨prepared, count, artifacts, compared, ready', _, done, eq, rfl⟩ := buildAll_eq_ok.mp ran
    obtain rfl := Except.ok.inj (ready.symm.trans ready')
    rw [jobs] at done
    exact ⟨done, eq⟩
  · rintro ⟨done, eq⟩
    obtain ⟨n, given⟩ := typed.maxWorkers
    have counted : workers c.maxWorkers = .ok (.int (max 1 n)) := by rw [given]; rfl
    rw [← jobs] at done
    exact ⟨_, buildAll_eq_ok.mpr ⟨_, _, artifacts, compared, ready, counted, done, eq, rfl⟩, rfl, rfl⟩

theorem collides_unset (typed : c.IsTyped) (config : g.config = c) (renders : g.packages.RendersBuiltins)
    (builtin : g.templates = ⟨none, Template.builtins⟩) (unset : w.Unset) {collision : Collision} :
    (generate graph c [g] w).result = .error collision ↔
      ∃ artifacts,
        List.Forall₂ (fun task a => (g.build graph task.1 task.2 w).result = .ok a) (g.tasks graph) artifacts ∧
          collision? c artifacts = .ok (some collision) := by
  rw [generate_eq_error rfl]
  simp only [← buildAll_unset typed config renders builtin unset]
  constructor
  · rintro ⟨built, ran, found⟩
    exact ⟨built.artifacts, built, ran, rfl, found⟩
  · rintro ⟨artifacts, built, ran, _, found⟩
    exact ⟨built, ran, found⟩

end Generation

end Scaffold
