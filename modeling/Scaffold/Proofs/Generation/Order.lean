import Scaffold.Proofs.Generation.Agreement
import Scaffold.Proofs.Template.Rendering

/-!
The order in which artifacts are built. Each build ends as it would on its own, so that a run that builds
in any order, and then puts the artifacts back where they were planned, gives what a run in the planned
order gives. This is so where templates are rendered alike whenever they are asked for.
-/

namespace Scaffold.Generation

open Workshop (Alike)

variable {t : Tree} {graph : Graph.TypeGraph} {c : Config} {gs : List Generator} {w : Workshop}

/-- Builds an artifact and keeps the place of its job in the plan. -/
def runPlaced (graph : Graph.TypeGraph) (job : Job × Nat) : Building (Artifact × Nat) :=
  (runJob graph job.1).bind fun a => .ok (a, job.2)

/-- The artifacts in the order of the places of their jobs. -/
def inPlannedOrder (found : List (Artifact × Nat)) : List Artifact :=
  (found.mergeSort fun a b => decide (a.2 ≤ b.2)).map (·.1)

/-- A run that builds what is planned in an order of its own. -/
def buildScheduled (schedule : List (Job × Nat) → List (Job × Nat)) (graph : Graph.TypeGraph) (config : Config)
    (gs : List Generator) : Building Built := do
  let prepared ← Action.mapEach (prepare graph) gs
  let count ← Building.orMisfit (workers config.maxWorkers)
  let found ← Action.mapEach (runPlaced graph) (schedule (prepared.flatMap (·.2)).zipIdx)
  let artifacts := inPlannedOrder found
  let collision ← Building.orMisfit (collision? config artifacts)
  return ⟨prepared.flatMap (·.1), count, artifacts, collision⟩

theorem inPlannedOrder_of_perm {found : List (Artifact × Nat)} {as : List Artifact}
    (perm : found.Perm as.zipIdx) : inPlannedOrder found = as := by
  have ordered : as.zipIdx.Pairwise fun a b => decide (a.2 ≤ b.2) = true := by
    have places : (as.zipIdx.map (·.2)).Pairwise (· < ·) := by
      rw [List.zipIdx_map_snd]
      exact List.pairwise_lt_range'
    exact (List.pairwise_map.mp places).imp fun lt => decide_eq_true (Nat.le_of_lt lt)
  have sorted := @List.pairwise_mergeSort _ (fun a b : Artifact × Nat => decide (a.2 ≤ b.2))
    (by simp only [decide_eq_true_eq]; omega) (by simp only [Bool.or_eq_true, decide_eq_true_eq]; omega)
    found
  have same : (found.mergeSort fun a b => decide (a.2 ≤ b.2)) = as.zipIdx := by
    refine List.Perm.eq_of_pairwise ?_ sorted ordered ((List.mergeSort_perm _ _).trans perm)
    intro a b memA memB le ge
    have placeA := List.mem_zipIdx_iff_getElem?.mp (perm.mem_iff.mp (List.mem_mergeSort.mp memA))
    have placeB := List.mem_zipIdx_iff_getElem?.mp memB
    simp only [decide_eq_true_eq] at le ge
    have place : a.2 = b.2 := by omega
    rw [place, placeB] at placeA
    exact Prod.ext (Option.some.inj placeA).symm place
  rw [inPlannedOrder, same, List.zipIdx_map_fst]

/-- Keeping the places changes nothing else. -/
theorem mapEach_runPlaced (jobs : List Job) (place : Nat) (w : Workshop) :
    Action.mapEach (runPlaced graph) (jobs.zipIdx place) w =
      ⟨(Action.mapEach (runJob graph) jobs w).notes, (Action.mapEach (runJob graph) jobs w).state,
        (Action.mapEach (runJob graph) jobs w).result.map (·.zipIdx place)⟩ := by
  induction jobs generalizing w place with
  | nil => rfl
  | cons job rest ih =>
    simp only [List.zipIdx_cons, Action.mapEach, Action.bind, runPlaced, ih]
    cases (runJob graph job w).result with
    | error e => rfl
    | ok a =>
      simp only [Action.ok, List.append_nil]
      cases (Action.mapEach (runJob graph) rest (runJob graph job w).state).result <;> rfl

/-- The generators have their templates rendered alike, whatever was asked of them before in the tree. -/
def SteadyIn (t : Tree) (gs : List Generator) : Prop :=
  ∀ g ∈ gs, g.packages.Steady g.templates (Template.Within (· = t))

theorem SteadyIn.quietIn (h : SteadyIn t gs) : QuietIn t gs := fun g mem => (h g mem).quiet

theorem runPlaced_respects (steady : SteadyIn t gs) {job : Job × Nat} (mem : job.1.generator ∈ gs) :
    (runPlaced graph job).Respects (Alike (Template.Within (· = t))) :=
  .bind (Generator.build_respects (fun _ _ within => within.1) (steady _ mem) _) fun _ => .ok _

/-- Jobs that are all done in the planned order are done in any other one, with the same artifacts. -/
theorem runPlaced_scheduled (steady : SteadyIn t gs) (within : w.Within (Template.Within (· = t)))
    {jobs : List Job} (generators : ∀ job ∈ jobs, job.generator ∈ gs) {order : List (Job × Nat)}
    (perm : order.Perm jobs.zipIdx) {as : List Artifact}
    (ran : (Action.mapEach (runJob graph) jobs w).result = .ok as) :
    ∃ found, (Action.mapEach (runPlaced graph) order w).result = .ok found ∧
      inPlannedOrder found = as ∧
      (Note.diagnostics (Action.mapEach (runPlaced graph) order w).notes).Perm
        (Note.diagnostics (Action.mapEach (runJob graph) jobs w).notes) := by
  have each : ∀ job ∈ jobs.zipIdx, (runPlaced graph job).Respects (Alike (Template.Within (· = t))) :=
    fun job mem => runPlaced_respects steady (generators job.1 (List.fst_mem_of_mem_zipIdx mem))
  have planned := @mapEach_runPlaced graph jobs 0 w
  have placed : (Action.mapEach (runPlaced graph) jobs.zipIdx w).result = .ok as.zipIdx := by
    rw [planned, ran]
    rfl
  obtain ⟨found, ran', permFound, diagnostics⟩ := Action.Respects.mapEach_perm each (.refl within) perm placed
  rw [planned] at diagnostics
  exact ⟨found, ran', inPlannedOrder_of_perm permFound, diagnostics⟩

/-- A run that builds in another order gives what the planned order gives, its artifacts in their places. -/
theorem buildScheduled_same (steady : SteadyIn t gs) (within : w.Within (Template.Within (· = t)))
    {schedule : List (Job × Nat) → List (Job × Nat)} (perm : ∀ jobs, (schedule jobs).Perm jobs)
    {built : Built} (ran : (buildAll graph c gs w).result = .ok built) :
    (buildScheduled schedule graph c gs w).result = .ok built ∧
      (Note.diagnostics (buildScheduled schedule graph c gs w).notes).Perm
        (Note.diagnostics (buildAll graph c gs w).notes) := by
  obtain ⟨prepared, count, artifacts, collision, ready, counted, done, compared, rfl⟩ :=
    buildAll_eq_ok.mp ran
  obtain ⟨found, done', placed, diagnostics⟩ :=
    runPlaced_scheduled steady (prepareAll_preserves steady.quietIn w within) (generator_of_prepared ready)
      (perm _) done
  refine ⟨?_, ?_⟩
  · refine Action.bind_eq_ok.mpr ⟨prepared, ready, Action.ofExcept_bind_eq_ok.mpr ⟨count, ?_, ?_⟩⟩
    · exact mapError_eq_ok.mpr counted
    refine Action.bind_eq_ok.mpr ⟨found, done', Action.ofExcept_bind_eq_ok.mpr ⟨collision, ?_, ?_⟩⟩
    · exact mapError_eq_ok.mpr (placed ▸ compared)
    · rw [placed]
      rfl
  · simp only [buildScheduled, buildAll, Action.bind_eq, Building.orMisfit, counted, placed, compared,
      mapError_ok, Action.ofExcept_bind, Action.notes_bind ready, Action.notes_bind done,
      Action.notes_bind done', Note.diagnostics_append]
    exact (diagnostics.append_right _).append_left _

/-- A run of generators returns what it has built, and records no more diagnostics. -/
theorem generate_of_built {built : Built} (ran : (buildAll graph c gs w).result = .ok built) :
    (∀ result, (generate graph c gs w).result = .ok result → result.artifacts = built.artifacts) ∧
      Note.diagnostics (generate graph c gs w).notes =
        Note.diagnostics (buildAll graph c gs w).notes := by
  unfold generate
  split
  · rename_i none_
    obtain rfl := List.isEmpty_iff.mp none_
    have whole : buildAll graph c [] = (Building.orMisfit (workers c.maxWorkers)).bind fun count =>
        .ok ⟨[], count, [], none⟩ := rfl
    rw [whole] at ran ⊢
    obtain ⟨count, counted, h⟩ := Action.bind_eq_ok.mp ran
    obtain rfl := Except.ok.inj h
    refine ⟨fun result eq => ?_, ?_⟩
    · obtain rfl := Except.ok.inj eq
      rfl
    · rw [Action.notes_bind counted]
      rfl
  · simp only [ran]
    cases built.collision with
    | some collision => exact ⟨by simp, rfl⟩
    | none =>
      refine ⟨fun result eq => ?_, ?_⟩
      · obtain rfl := Except.ok.inj eq
        rfl
      · simp [Note.diagnostics, record, Note.diagnostic?]

/-- Wherever no build fails, the planned builds can be run in any order, all in one workshop: with the artifacts
put back into the planned order the run gives exactly what the sequential run returns, and it records the same
diagnostics, perhaps in another order. The packages have to render alike each time, and to leave the tree. -/
theorem any_order_builds_same (steady : SteadyIn w.tree gs)
    (within : w.Within (Template.Within (· = w.tree)))
    {schedule : List (Job × Nat) → List (Job × Nat)} (perm : ∀ jobs, (schedule jobs).Perm jobs)
    {built : Built} (noneFails : (buildAll graph c gs w).result = .ok built) :
    (buildScheduled schedule graph c gs w).result = .ok built ∧
      (∀ result, (generate graph c gs w).result = .ok result → result.artifacts = built.artifacts) ∧
      (Note.diagnostics (buildScheduled schedule graph c gs w).notes).Perm
        (Note.diagnostics (generate graph c gs w).notes) := by
  obtain ⟨same, diagnostics⟩ := buildScheduled_same steady within perm noneFails
  obtain ⟨returned, recorded⟩ := generate_of_built noneFails
  exact ⟨same, returned, by rwa [recorded]⟩

/-- An entity and an enumeration for both targets, built from the last to the first. The settings leave out the
service, and ask for a visibility that there is not. -/
theorem any_order_builds_same_reversed :
    let c := { Config.default with outputPath := Path.ofText "out" }
    let templates : Template.Engine := ⟨none, Template.builtins⟩
    let gs : List Generator :=
      [⟨"csharp", .csharp, c, .none, .builtin, templates⟩,
        ⟨"typescript", .typescript, c, .none, .builtin, templates⟩]
    let graph := Graph.TypeGraph.ofList
      [{ name := "Order", kind := .entity }, { name := "Color", kind := .enumeration }]
    let store := (Settings.Store.empty.set ⟨"WebApi", "Model", "Order", .text "Visibility"⟩ "hidden").set
      ⟨"AngularApp", "TypeScriptService", "All", .text "Generate"⟩ "no"
    let w : Workshop := { settings := .ofStore store, tree := .empty }
    ∃ built, (buildAll graph c gs w).result = .ok built ∧ built.artifacts.length = 4 ∧
      (buildScheduled List.reverse graph c gs w).result = .ok built ∧
      (Note.diagnostics (generate graph c gs w).notes).length = 1 ∧
      (Note.diagnostics (buildScheduled List.reverse graph c gs w).notes).Perm
        (Note.diagnostics (generate graph c gs w).notes) := by
  intro c templates gs graph store w
  have checked :
      ((buildAll graph c gs w).result.toOption.any fun built =>
          decide (built.artifacts.length = 4)) &&
        decide ((Note.diagnostics (buildAll graph c gs w).notes).length = 1) = true := by
    decide +kernel
  simp only [Bool.and_eq_true, decide_eq_true_eq] at checked
  obtain ⟨built, ran, four⟩ := exists_ok_of_any checked.1
  have steady : SteadyIn .empty gs := by
    intro g mem
    have builtin : g.packages = .builtin ∧ g.templates = templates := by
      rcases List.mem_cons.mp mem with rfl | mem
      · exact ⟨rfl, rfl⟩
      · obtain rfl := List.mem_singleton.mp mem
        exact ⟨rfl, rfl⟩
    rw [builtin.1, builtin.2]
    exact Packages.builtin_steady_of_memory rfl _
  obtain ⟨same, _, diagnostics⟩ := any_order_builds_same steady ⟨rfl, by simp [w]⟩ List.reverse_perm ran
  have recorded := (generate_of_built ran).2
  exact ⟨built, ran, of_decide_eq_true four, same, by rw [recorded, checked.2], diagnostics⟩

end Scaffold.Generation
