import Scaffold.Command.Run
import Scaffold.Proofs.Generation.Agreement
import Scaffold.Proofs.Template.Rendering

/-!
What a generate command does to the tree. All that it does before it writes only looks, if templates are rendered
without a change of the tree; so the tree is as it was, unless the run succeeded and is to be written. Then the
tree is what writing the artifacts makes of it.
-/

namespace Scaffold

namespace Command

variable {s : Surroundings} {t : Tree} {o : GenerateOptions} {verbose : Bool}

/-- Everything that comes before the writing: the configuration, and what the run over the document gave. -/
def prepare (s : Surroundings) (o : GenerateOptions) :
    Acting (Config × Except Collision Generation.Result) := do
  let direct ← Action.ofExcept (directOptions o)
  let config ← loadConfig s o.config direct
  let targets ← Action.ofExcept (resolveTargets s.registry o.targets)
  let document ← loadMetadata s o.metadata
  let resolver ← loadResolver s o.settings
  let ran ← runOver s config document targets resolver
  return (config, ran)

/-- What is done with what was prepared. -/
def complete (verbose : Bool) (o : GenerateOptions) :
    Config × Except Collision Generation.Result → Acting Shown
  | (_, .error e) => .ok ⟨[.failure "Path collision" e.message], 1⟩
  | (config, .ok result) => finish o config verbose result

theorem generate_eq : generate s verbose o = (prepare s o).bind (complete verbose o) := by
  simp only [generate, prepare, Action.bind_eq, Action.pure_eq, Action.bind_assoc, Action.ok_bind]
  iterate 6 refine congrArg _ (funext fun _ => ?_)
  rename_i ran
  cases ran <;> rfl

/-- A step that looks at the tree leaves it as it is, where there is no log file. -/
theorem preserves_looking {ε α : Type} (make : ε → Failure) (f : Tree → Outcome ε α) :
    (looking make f).Preserves (· = ⟨t, none⟩) := by
  rintro d rfl
  rfl

theorem preserves_loadDocument (source : String) : (loadDocument s source).Preserves (· = ⟨t, none⟩) :=
  .bind (preserves_looking _ _) fun _ => preserves_looking _ _

theorem preserves_loadStore (source : String) : (loadStore s source).Preserves (· = ⟨t, none⟩) :=
  .bind (.mapError _ (preserves_loadDocument source)) fun _ =>
    .bind (.ofExcept _) fun _ => .bind (.ofExcept _) fun _ => .ok _

theorem preserves_loadResolver (source : Option String) :
    (loadResolver s source).Preserves (· = ⟨t, none⟩) := by
  unfold loadResolver
  split
  · exact .ok _
  split
  · exact .ok _
  · exact preserves_loadStore _

@[simp] theorem Desk.closeReplaced_nil (d : Desk) : d.closeReplaced [] = d := rfl

/-- A change of the tree is the same one in a command, where there is no log file. -/
theorem changing_none {ε α : Type} (make : ε → Failure) (x : Action Tree ε α) (t : Tree) :
    changing make (fun _ => []) x ⟨t, none⟩ =
      ⟨(x t).notes, ⟨(x t).state, none⟩, (x t).result.mapError make⟩ := by
  have noFiles : ((x t).result.toOption.map fun _ => ([] : List Path)).getD [] = [] := by
    cases (x t).result <;> rfl
  simp only [changing, noFiles, Desk.closeReplaced_nil]
  rfl

/-- In this tree the packages render quietly, with the templates of any directory before those that are always
there. -/
def Surroundings.QuietIn (s : Surroundings) (t : Tree) : Prop :=
  ∀ directory, s.packages.Quiet ⟨directory, Template.builtins⟩ (Template.Within (· = t))

theorem Surroundings.QuietIn.engineQuiet (quiet : s.QuietIn t) (c : Config) :
    Generation.EngineQuiet s.packages c t := by
  intro e engine
  rw [Generation.eq_of_engineFor engine]
  exact quiet e.directory

/-- The run over a document leaves the tree as it is. -/
theorem preserves_runOver (quiet : s.QuietIn t) (c : Config) (document : Json) (targets : List String)
    (r : Settings.Resolver) : (runOver s c document targets r).Preserves (· = ⟨t, none⟩) := by
  rintro d rfl
  have same := Generation.tree_fromDocument (w := { settings := r, tree := t }) (quiet.engineQuiet c) s.registry
    .none document targets
  exact (congrArg Ended.state (changing_none .document _ t)).trans (congrArg (Desk.mk · none) same)

theorem preserves_prepare (quiet : s.QuietIn t) : (prepare s o).Preserves (· = ⟨t, none⟩) :=
  .bind (.ofExcept _) fun _ =>
    .bind (preserves_looking _ _) fun _ =>
      .bind (.ofExcept _) fun _ =>
        .bind (.bind (preserves_loadDocument _) fun _ => .ofExcept _) fun _ =>
          .bind (preserves_loadResolver _) fun _ => .bind (preserves_runOver quiet _ _ _ _) fun _ => .ok _

theorem mapEach_changing {ε α β : Type} (make : ε → Failure) (f : α → Action Tree ε β) (as : List α)
    (t : Tree) :
    Action.mapEach (fun a => changing make (fun _ => []) (f a)) as ⟨t, none⟩ =
      ⟨(Action.mapEach f as t).notes, ⟨(Action.mapEach f as t).state, none⟩,
        (Action.mapEach f as t).result.mapError make⟩ := by
  induction as generalizing t with
  | nil => rfl
  | cons a rest ih =>
    have first := changing_none make (f a) t
    unfold Action.mapEach
    cases result : (f a t).result with
    | error e =>
      rw [Action.bind_of_error result, Action.bind_of_error (by rw [first, result]; rfl), first]
      rfl
    | ok b =>
      rw [Action.bind_of_ok result, Action.bind_of_ok (by rw [first, result]; rfl), first]
      have later := ih (f a t).state
      cases results : (Action.mapEach f rest (f a t).state).result with
      | error e =>
        rw [Action.bind_of_error results, Action.bind_of_error (by rw [later, results]; rfl), later]
        rfl
      | ok bs =>
        rw [Action.bind_of_ok results, Action.bind_of_ok (by rw [later, results]; rfl), later]
        rfl

theorem writeArtifacts_none (c : Config) (as : List Artifact) (t : Tree) :
    (writeArtifacts c as ⟨t, none⟩).state = ⟨(Output.write c as t).state, none⟩ ∧
    (writeArtifacts c as ⟨t, none⟩).result = ((Output.write c as t).result.map fun _ => ()).mapError .write := by
  have each := mapEach_changing .write (Output.writeOne c) as t
  unfold writeArtifacts Output.write
  simp only [Action.bind_eq]
  cases result : (Action.mapEach (Output.writeOne c) as t).result with
  | error e =>
    rw [Action.bind_of_error result, Action.bind_of_error (by rw [each, result]; rfl), each]
    exact ⟨rfl, rfl⟩
  | ok paths =>
    rw [Action.bind_of_ok result, Action.bind_of_ok (by rw [each, result]; rfl), each]
    exact ⟨rfl, rfl⟩

/-- How a command that writes can end: it shows what it wrote, reports that it was refused, or ends with a
fault of the writing. -/
inductive WriteExit : List Item → Exit → Prop
  | written (items : List Item) : WriteExit items (.code 0)
  | refused (message : String) : WriteExit [.failure "Failed to write artifacts" message] (.code 1)
  | fault (items : List Item) (why : Output.WriteFailure) : WriteExit items (.fault (.write why))

theorem WriteExit.refused_of_one {items : List Item} (h : WriteExit items (.code 1)) :
    ∃ message, items = [.failure "Failed to write artifacts" message] := by
  cases h
  exact ⟨_, rfl⟩

theorem WriteExit.write_of_fault {items : List Item} {e : Failure} (h : WriteExit items (.fault e)) :
    ∃ why, e = .write why := by
  cases h
  exact ⟨_, rfl⟩

/-- The run over the document succeeded, and the artifacts are to be written. -/
structure Writes (s : Surroundings) (t : Tree) (o : GenerateOptions) (c : Config)
    (result : Generation.Result) : Prop where
  prepared : (prepare s o ⟨t, none⟩).result = .ok (c, .ok result)
  success : result.failure = none
  notDry : o.dryRun = false

/-- The report of a task that ended. -/
def reportOf (ended : Ended Desk Failure Shown) : Report :=
  match ended.result with
  | .ok shown => ⟨ended.state.tree, shown.items, .nothing, .code shown.code⟩
  | .error e =>
    let (notes, items, exit) := conclude e
    ⟨(ended.state.enter notes).tree, items, .nothing, exit⟩

theorem tree_reportOf {ended : Ended Desk Failure Shown} (state : ended.state = ⟨t, none⟩) :
    (reportOf ended).tree = t := by
  unfold reportOf
  rw [state]
  split <;> rfl

theorem writeExit_refused (notes : List Note) (t : Tree) (why : Output.WriteFailure) :
    let report := reportOf ⟨notes, ⟨t, none⟩, match unwritten? (.write why) with
      | some shown => .ok shown
      | none => .error (.write why)⟩
    report.tree = t ∧ WriteExit report.items report.exit := by
  cases told : unwritten? (.write why) with
  | none => exact ⟨rfl, .fault _ why⟩
  | some shown =>
    obtain ⟨message, rfl⟩ : ∃ message, shown = ⟨[.failure "Failed to write artifacts" message], 1⟩ := by
      unfold unwritten? at told
      split at told
      · split at told
        · exact ⟨_, (Option.some.inj told).symm⟩
        · cases told
      · cases told
    exact ⟨rfl, .refused message⟩

theorem writeAndShow_none (r : Generation.Result) (c : Config) (verbose : Bool) (t : Tree) :
    let report := reportOf (writeAndShow r c verbose ⟨t, none⟩)
    report.tree = (Output.write c r.artifacts t).state ∧ WriteExit report.items report.exit := by
  obtain ⟨state, result⟩ := writeArtifacts_none c r.artifacts t
  unfold writeAndShow
  cases written : (Output.write c r.artifacts t).result with
  | ok paths =>
    rw [written] at result
    simp only [result, state]
    exact ⟨rfl, .written _⟩
  | error why =>
    rw [written] at result
    simp only [result, state]
    exact writeExit_refused _ _ why

/-- A command that generates leaves the tree as it is or writes what the run gave. -/
theorem generate_course (quiet : s.QuietIn t) (verbose : Bool) (o : GenerateOptions) :
    let report := reportOf (generate s verbose o ⟨t, none⟩)
    report.tree = t ∨ ∃ c result, Writes s t o c result ∧
      report.tree = (Output.write c result.artifacts t).state ∧ WriteExit report.items report.exit := by
  have looked : (prepare s o ⟨t, none⟩).state = ⟨t, none⟩ := preserves_prepare quiet _ rfl
  have course : generate s verbose o ⟨t, none⟩ = _ := congrFun generate_eq _
  cases prepared : (prepare s o ⟨t, none⟩).result with
  | error e =>
    refine .inl (tree_reportOf ?_)
    rw [course, Action.bind_of_error prepared, looked]
  | ok ready =>
    obtain ⟨c, ran⟩ := ready
    rw [Action.bind_of_ok prepared, looked] at course
    simp only [course]
    cases ran with
    | error collision => exact .inl (tree_reportOf rfl)
    | ok result =>
      simp only [complete, finish]
      cases failure : result.failure with
      | some e => exact .inl (tree_reportOf rfl)
      | none =>
        cases dry : o.dryRun with
        | true => exact .inl (tree_reportOf rfl)
        | false => exact .inr ⟨c, result, ⟨prepared, failure, dry⟩, writeAndShow_none result c verbose t⟩

/-- A command that generates, without a log file, leaves the tree as it is if it ends well as a dry run, if it
reports anything but that files were not written, and if it ends with a fault of another step. All it ever does
to the tree is to write the artifacts of a run that succeeded. Of the packages this asks that they leave the tree
when they render what is asked of them, whatever the directory of templates. -/
theorem generate_untouched (quiet : s.QuietIn t) {time : String} {args : List String} {i : Invocation}
    (asked : Invocation.ofArguments args = .ok i) (noLog : i.logFile = none) (task : i.task = some (.generate o)) :
    let report := run s time t args
    (report.exit = .code 0 → o.dryRun = true → report.tree = t) ∧
    (report.exit = .code 1 → (∀ message, report.items ≠ [.failure "Failed to write artifacts" message]) →
      report.tree = t) ∧
    (∀ e, report.exit = .fault e → (∀ why, e ≠ .write why) → report.tree = t) ∧
    (report.tree ≠ t → ∃ c result, Writes s t o c result ∧
      report.tree = (Output.write c result.artifacts t).state) := by
  intro report
  have reported : report = reportOf (generate s i.verbose o ⟨t, none⟩) := by
    simp only [report, run, asked, journalOf, noLog, Option.map_none, Option.getD_none, carryOut, task]
    rfl
  rcases generate_course quiet i.verbose o with same | ⟨c, result, writes, tree, exit⟩
  · rw [← reported] at same
    exact ⟨fun _ _ => same, fun _ _ => same, fun _ _ _ => same, fun changed => absurd same changed⟩
  · rw [← reported] at tree exit
    refine ⟨fun _ dry => ?_, fun code other => ?_, fun e fault other => ?_, fun _ => ?_⟩
    · exact absurd dry (by simp [writes.notDry])
    · obtain ⟨message, items⟩ := (code ▸ exit).refused_of_one
      exact absurd items (other message)
    · obtain ⟨why, write⟩ := (fault ▸ exit).write_of_fault
      exact absurd write (other why)
    · exact ⟨c, result, writes, tree⟩

theorem exit_eq_code {exit : Exit} {n : Nat} (h : (match exit with | .code m => m == n | _ => false) = true) :
    exit = .code n := by
  split at h
  · rw [beq_iff_eq.mp h]
  · cases h

/-- A document with one enumeration, whose file was edited by hand. -/
def editedTree : Tree where
  home := []
  nodes := [
    (["m.json"], .file "\x7b\"types\": [\x7b\"name\": \"A\", \"kind\": \"enum\"\x7d]\x7d".toUTF8),
    (["out"], .directory), (["out", "angular"], .directory), (["out", "angular", "src"], .directory),
    (["out", "angular", "src", "app"], .directory), (["out", "angular", "src", "app", "enums"], .directory),
    (["out", "angular", "src", "app", "enums", "a.ts"],
      .file "export enum A \x7b\n//@CustomCodeBegin\n  B = 1,\n//@CustomCodeEnd\n\x7d\n".toUTF8)]

def offline : Surroundings := ⟨.builtin, .builtin, fun _ => .failed .connection "no network", 3⟩

theorem generate_untouched_dry :
    let args := ["generate", "m.json", "-o", "out", "-t", "typescript", "--dry-run"]
    let o : GenerateOptions :=
      { metadata := "m.json", output := some "out", targets := ["typescript"], dryRun := true }
    let report := run offline "" editedTree args
    Invocation.ofArguments args = .ok { task := some (.generate o) } ∧ report.exit = .code 0 ∧
      report.tree = editedTree := by
  intro args o report
  have asked : Invocation.ofArguments args = .ok { task := some (.generate o) } := rfl
  have quiet : offline.QuietIn editedTree := fun directory => Packages.builtin_quiet _ _
  have code : report.exit = .code 0 := exit_eq_code (by decide +kernel)
  exact ⟨asked, code, (generate_untouched (s := offline) quiet asked rfl rfl).1 code rfl⟩

end Command

end Scaffold
